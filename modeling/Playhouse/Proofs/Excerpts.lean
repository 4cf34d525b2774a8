import Playhouse.Source.Excerpt

/-!
# Playhouse.Proofs.Excerpts — spans that can be shown

To show a span, its closing mark is put before the blanks at its end. If there is nothing but blanks in the last of
its lines, there is no place for the mark, and the span cannot be shown. A span that ends after a character that is
no blank is not in danger: line breaks are blanks, so that its last line is the one of that character. Main
statement: `exists_showSpan`.
-/

namespace Playhouse.Source

open Text

/-- The span is a stretch of the text that does not end in a blank. -/
structure Solid (text : List Char) (s : Span) : Prop where
  lt : s.start < s.stop
  le : s.stop ≤ text.length
  inked : ∃ c, text[s.stop - 1]? = some c ∧ isBlank c = false

/-! ### Lines -/

theorem lines_ne_nil (cs : List Char) : ∀ l ∈ lines cs, l ≠ [] := by
  fun_induction lines cs with
  | case1 => simp
  | case2 cs ih => simpa using ih
  | case3 c cs _ _ ih => simpa using ih
  | case4 c cs _ _ h ih => simp
  | case5 c cs _ _ l ls h ih =>
    rw [h] at ih
    simp only [List.mem_cons, forall_eq_or_imp] at ih ⊢
    exact ⟨List.cons_ne_nil c l, ih.2⟩

/-- All lines but the last end in a line break. -/
theorem lineBreak_of_lines (cs : List Char) :
    ∀ l ∈ (lines cs).dropLast, ∃ c, l.getLast? = some c ∧ isLineBreak c = true := by
  fun_induction lines cs with
  | case1 => simp
  | case2 cs ih =>
    intro l hl
    cases hls : lines cs with
    | nil => simp [hls] at hl
    | cons m ms =>
      rw [hls] at hl ih
      rw [List.dropLast_cons_cons] at hl
      rcases List.mem_cons.mp hl with rfl | hl
      · exact ⟨'\n', rfl, by decide⟩
      · exact ih l hl
  | case3 c cs _ hbreak ih =>
    intro l hl
    cases hls : lines cs with
    | nil => simp [hls] at hl
    | cons m ms =>
      rw [hls] at hl ih
      rw [List.dropLast_cons_cons] at hl
      rcases List.mem_cons.mp hl with rfl | hl
      · exact ⟨c, rfl, hbreak⟩
      · exact ih l hl
  | case4 c cs _ _ h ih => simp
  | case5 c cs _ _ l ls h ih =>
    intro m hm
    rw [h] at ih
    cases ls with
    | nil => simp at hm
    | cons k ks =>
      rw [List.dropLast_cons_cons] at hm ih
      rcases List.mem_cons.mp hm with rfl | hm
      · obtain ⟨d, hd, hbreak⟩ := ih l List.mem_cons_self
        refine ⟨d, ?_, hbreak⟩
        rw [List.getLast?_cons, hd]
        rfl
      · exact ih m (List.mem_cons_of_mem l hm)

/-- A line break before a line is what the text before that line ends in. -/
theorem blank_before_line {cs l : List Char} {before after : List (List Char)}
    (h : lines cs = before ++ l :: after) (hbefore : before ≠ []) :
    ∃ c, before.flatten.getLast? = some c ∧ isBlank c = true := by
  obtain ⟨front, k, rfl⟩ := List.eq_nil_or_concat before |>.resolve_left hbefore
  have hmem : k ∈ (lines cs).dropLast := by
    rw [h, List.concat_eq_append, List.dropLast_append_of_ne_nil (List.cons_ne_nil l after)]
    simp
  obtain ⟨c, hc, hbreak⟩ := lineBreak_of_lines cs k hmem
  refine ⟨c, ?_, isBlank_of_isLineBreak hbreak⟩
  rw [List.concat_eq_append, List.flatten_append, List.flatten_singleton, List.getLast?_append, hc]
  rfl

/-! ### Places -/

theorem placeIn_of_lt {ls : List (List Char)} : ∀ {n pos : Nat}, pos < ls.flatten.length →
    ∃ before l after, ls = before ++ l :: after ∧ before.flatten.length ≤ pos ∧
      pos - before.flatten.length < l.length ∧
      placeIn n ls pos = some ⟨n + before.length, pos - before.flatten.length⟩ := by
  induction ls with
  | nil => exact fun h => absurd h (Nat.not_lt_zero _)
  | cons l ls ih =>
    intro n pos h
    unfold placeIn
    by_cases hl : pos < l.length
    · rw [if_pos hl]
      exact ⟨[], l, ls, rfl, Nat.zero_le _, hl, rfl⟩
    · rw [List.flatten_cons, List.length_append] at h
      obtain ⟨before, m, after, hls, hle, hlt, hplace⟩ := @ih (n + 1) (pos - l.length) (by omega)
      refine ⟨l :: before, m, after, by rw [hls, List.cons_append], ?_, ?_, ?_⟩
      · rw [List.flatten_cons, List.length_append]
        omega
      · rw [List.flatten_cons, List.length_append]
        omega
      · rw [if_neg hl, hplace, List.flatten_cons, List.length_append, List.length_cons, Nat.sub_sub]
        congr 2
        omega

/-- Where a character is in its line. -/
theorem getElem?_line {ls before after : List (List Char)} {l : List Char}
    (h : ls = before ++ l :: after) {k : Nat} (hk : k < l.length) :
    ls.flatten[before.flatten.length + k]? = l[k]? := by
  rw [h, List.flatten_append, List.flatten_cons, List.getElem?_append_right (Nat.le_add_right _ _),
    Nat.add_sub_cancel_left, List.getElem?_append_left hk]

theorem take_line {ls before after : List (List Char)} {l : List Char} (h : ls = before ++ l :: after) :
    ls.take (before.length + 1) = before ++ [l] := by
  rw [h, List.take_append, List.take_of_length_le (Nat.le_succ _), Nat.add_sub_cancel_left]
  rfl

/-! ### Marks -/

theorem slice_cast {α : Type} (xs : List α) (a b : Nat) : slice xs a b = (xs.take b).drop a := by
  have hclamp : ∀ i : Nat, clampIndex xs.length i = min i xs.length := by
    intro i
    unfold clampIndex
    rw [if_neg (by omega), Int.toNat_natCast]
  unfold slice
  simp only [hclamp]
  rw [List.drop_take]
  rcases Nat.le_total a xs.length with ha | ha
  · rw [Nat.min_eq_left ha, List.take_eq_take_iff, List.length_drop]
    omega
  · rw [Nat.min_eq_right ha, List.drop_eq_nil_of_le ha, List.drop_eq_nil_of_le (Nat.le_refl _)]
    simp

theorem slice_to_line {ls before after : List (List Char)} {l : List Char}
    (h : ls = before ++ l :: after) {n : Nat} (hn : n ≤ before.length) :
    slice ls n (before.length + 1) = before.drop n ++ [l] := by
  rw [← Int.natCast_succ, slice_cast, take_line h, List.drop_append_of_le_length hn]

/-- The closing mark goes in after a character that is no blank, the opening mark at a column of the first line. -/
theorem markedLines_of_inked {ls front : List (List Char)} {l : List Char} {p q : Place} {k : Nat} {c : Char}
    (hitem : slice ls p.line (q.line + 1) = front ++ [l])
    (hcolumn : (if front.length + 1 < q.line + 1 - p.line then l.length else q.column) = k + 1)
    (hc : l[k]? = some c) (hblank : isBlank c = false) :
    markedLines ls p q =
      .ok ((front ++ [insertAt l ['<', '<'] (k + 1)]).modifyHead (insertAt · ['>', '>'] p.column)) := by
  have hat : at? l ((k : Int) + 1 - 1) = some c := by
    unfold at?
    rw [if_neg (by omega), show ((k : Int) + 1 - 1).toNat = k by omega, hc]
  have hback : backOverBlanks l (2 * l.length + 2) ((k + 1 : Nat) : Int) = some ((k : Int) + 1) := by
    rw [show 2 * l.length + 2 = (2 * l.length + 1) + 1 from rfl]
    unfold backOverBlanks
    rw [show ((k + 1 : Nat) : Int) = (k : Int) + 1 by omega, hat]
    simp [hblank]
  have hinsert : insertBeforeBlanks l ['<', '<'] ((k + 1 : Nat) : Int) = .ok (insertAt l ['<', '<'] (k + 1)) := by
    unfold insertBeforeBlanks
    rw [hback]
  unfold markedLines
  simp only [hitem, List.getLast?_concat, List.length_append, List.length_singleton]
  rw [hcolumn, hinsert, List.dropLast_concat]
  cases front with
  | nil => rfl
  | cons first front => rfl

/-! ### Spans -/

theorem endLine_of_inked {text : List Char} {c : Char} (hc : text.getLast? = some c) (hblank : isBlank c = false) :
    endLine text = (lines text).length := by
  have hne : text.isEmpty = false := by
    cases text with
    | nil => cases hc
    | cons d ds => rfl
  unfold endLine
  simp only [hne, hc]
  split
  · next h =>
    cases h
    cases hblank
  · next h =>
    cases h
    cases hblank
  · rfl

/-- Earlier positions are in earlier lines. -/
theorem length_le_of_pos_le {ls before before' after after' : List (List Char)} {l l' : List Char} {m n : Nat}
    (h : ls = before ++ l :: after) (h' : ls = before' ++ l' :: after') (hmn : m ≤ n)
    (hm : before.flatten.length ≤ m) (hn : n - before'.flatten.length < l'.length) :
    before.length ≤ before'.length := by
  refine Nat.le_of_not_lt fun hlt => ?_
  have hsplit : before = before' ++ l' :: (before.drop (before'.length + 1)) := by
    have htake : before = ls.take before.length := by rw [h, List.take_left]
    have htake' : before.take (before'.length + 1) = before' ++ [l'] := by
      rw [htake, List.take_take, Nat.min_eq_left (by omega), take_line h']
    calc before = before.take (before'.length + 1) ++ before.drop (before'.length + 1) :=
          (List.take_append_drop _ _).symm
      _ = before' ++ l' :: before.drop (before'.length + 1) := by
          rw [htake', List.append_assoc, List.singleton_append]
  have hlength : before'.flatten.length + l'.length ≤ before.flatten.length := by
    rw [hsplit, List.flatten_append, List.flatten_cons, List.length_append, List.length_append]
    omega
  omega

theorem placeOf_of_lt {text : List Char} {pos : Nat} (h : pos < text.length) :
    ∃ before l after, lines text = before ++ l :: after ∧ before.flatten.length ≤ pos ∧
      pos - before.flatten.length < l.length ∧
      placeOf text pos = .ok ⟨before.length, pos - before.flatten.length⟩ := by
  obtain ⟨before, l, after, hls, hle, hlt, hplace⟩ :=
    placeIn_of_lt (n := 0) (show pos < (lines text).flatten.length by
    rw [flatten_lines]
    exact h)
  refine ⟨before, l, after, hls, hle, hlt, ?_⟩
  unfold placeOf place?
  rw [if_neg (by omega), hplace, Nat.zero_add]

/-- The end `q` of a solid span, in a text whose lines up to number `n` do not go past its beginning: `last` is the
line of its last character, `k` the column of that character. -/
structure StopsAt (text : List Char) (stop n : Nat) (q : Place) (front : List (List Char))
    (last : List Char) (k : Nat) :
    Prop where
  place : placeOf text stop = .ok q
  le : n ≤ front.length
  split : ∃ rest, lines text = front ++ last :: rest ∧
    (q.line = front.length ∧ stop < front.flatten.length + last.length ∨
    q.line = front.length + 1 ∧ rest = [] ∧ stop = text.length)
  item : slice (lines text) n (q.line + 1) = front.drop n ++ [last]
  column : (if (front.drop n).length + 1 < q.line + 1 - n then last.length else q.column) = k + 1
  inked : ∃ c, last[k]? = some c ∧ isBlank c = false
  stop : front.flatten.length + (k + 1) = stop

section Stops

variable {text : List Char} {s : Span} {before after : List (List Char)} {l : List Char}

/-- A solid span that goes to the end of the text ends in the last line. -/
theorem exists_stop_at_end (h : Solid text s) (hls : lines text = before ++ l :: after)
    (hend : s.stop = text.length) :
    ∃ q front last k, StopsAt text s.stop before.length q front last k := by
  obtain ⟨c, hc, hblank⟩ := h.inked
  have hflat := flatten_lines text
  have hlast : text.getLast? = some c := by rw [List.getLast?_eq_getElem?, ← hend, hc]
  obtain ⟨front, last, hfront⟩ : ∃ front last, lines text = front ++ [last] := by
    obtain hnil | ⟨front, last, hconcat⟩ := List.eq_nil_or_concat (lines text)
    · rw [hls] at hnil
      cases before <;> cases hnil
    · exact ⟨front, last, by rw [hconcat, List.concat_eq_append]⟩
  have hn : before.length ≤ front.length := by
    have := congrArg List.length (hls.symm.trans hfront)
    simp only [List.length_append, List.length_cons, List.length_nil] at this
    omega
  have hne : last ≠ [] := lines_ne_nil text last (by rw [hfront]; simp)
  have hpos : 0 < last.length := List.length_pos_iff.mpr hne
  have hlength : (lines text).length = front.length + 1 := by
    rw [hfront, List.length_append, List.length_singleton]
  have htotal : text.length = front.flatten.length + last.length := by
    rw [← hflat, hfront, List.flatten_append, List.flatten_singleton, List.length_append]
  refine ⟨⟨(lines text).length, 0⟩, front, last, last.length - 1, ?_, hn, ⟨[], hfront, .inr ⟨hlength, rfl, hend⟩⟩,
    ?_, ?_, ⟨c, ?_, hblank⟩, ?_⟩
  · unfold placeOf place?
    rw [if_pos hend, endLine_of_inked hlast hblank]
  · rw [← Int.natCast_succ, slice_cast, List.take_of_length_le (Nat.le_succ _), hfront,
      List.drop_append_of_le_length hn]
  · rw [List.length_drop, if_pos (by dsimp only; omega)]
    omega
  · rw [← getElem?_line hfront (by omega), hflat, ← hc]
    congr 1
    omega
  · omega

/-- A solid span does not end at the beginning of a line: it would end in a line break. -/
theorem lt_stop_of_solid (h : Solid text s) (hls : lines text = before ++ l :: after)
    (hle : before.flatten.length ≤ s.stop) : before.flatten.length < s.stop := by
  rcases Nat.lt_or_eq_of_le hle with hlt | heq
  · exact hlt
  · obtain ⟨c, hc, hblank⟩ := h.inked
    have hlt := h.lt
    have hne : before ≠ [] := by
      rintro rfl
      rw [← heq] at hlt
      exact absurd hlt (Nat.not_lt_zero _)
    obtain ⟨d, hd, hdblank⟩ := blank_before_line hls hne
    have hsame : text[s.stop - 1]? = some d := by
      rw [← flatten_lines text, hls, List.flatten_append, List.getElem?_append_left (by omega), ← heq,
        ← List.getLast?_eq_getElem?, hd]
    rw [hc] at hsame
    cases hsame
    rw [hblank] at hdblank
    cases hdblank

/-- A solid span after which something follows ends in the line of what follows. -/
theorem exists_stop_before_end (h : Solid text s) (hls : lines text = before ++ l :: after)
    (hle : before.flatten.length ≤ s.start) (hstop : s.stop < text.length) :
    ∃ q front last k, StopsAt text s.stop before.length q front last k := by
  obtain ⟨c, hc, hblank⟩ := h.inked
  obtain ⟨front, last, rest, hlast, hle', hlt', hplace⟩ := placeOf_of_lt hstop
  have hn : before.length ≤ front.length := length_le_of_pos_le hls hlast (Nat.le_of_lt h.lt) hle hlt'
  have hcolumn : front.flatten.length < s.stop := lt_stop_of_solid h hlast hle'
  refine ⟨_, front, last, s.stop - front.flatten.length - 1, hplace, hn, ⟨rest, hlast, .inl ⟨rfl, by omega⟩⟩,
    slice_to_line hlast hn, ?_, ⟨c, ?_, hblank⟩, ?_⟩
  · rw [List.length_drop, if_neg (by dsimp only; omega)]
    dsimp only
    omega
  · rw [← getElem?_line hlast (by omega), flatten_lines, ← hc]
    congr 1
    omega
  · omega

/-- The last line of a solid span, and the column of its last character. -/
theorem exists_stop_of_solid (h : Solid text s) (hls : lines text = before ++ l :: after)
    (hle : before.flatten.length ≤ s.start) :
    ∃ q front last k, StopsAt text s.stop before.length q front last k := by
  rcases Nat.lt_or_eq_of_le h.le with hstop | hend
  · exact exists_stop_before_end h hls hle hstop
  · exact exists_stop_at_end h hls hend

end Stops

theorem StopsAt.marked {text : List Char} {stop n k : Nat} {q : Place} {front : List (List Char)}
    {last : List Char} (h : StopsAt text stop n q front last k) (column : Nat) :
    markedLines (lines text) ⟨n, column⟩ q =
      .ok ((front.drop n ++ [insertAt last ['<', '<'] (k + 1)]).modifyHead (insertAt · ['>', '>'] column)) := by
  obtain ⟨c, hc, hblank⟩ := h.inked
  exact markedLines_of_inked (p := ⟨n, column⟩) h.item h.column hc hblank

theorem showSpan_of_marked {text : List Char} {s : Span} {p q : Place} {marked : List (List Char)} (amount : Int)
    (hp : placeOf text s.start = .ok p) (hq : placeOf text s.stop = .ok q)
    (hmarked : markedLines (lines text) p q = .ok marked) :
    showSpan text s amount = .ok ((linesBefore (lines text) p.line amount).flatten ++ marked.flatten ++
      (linesAfter (lines text) q.line amount).flatten) := by
  unfold showSpan
  simp only [hp, hq, hmarked, bind, Except.bind]
  rfl

/-- **A span that does not end in a blank can be shown.** -/
theorem exists_showSpan {text : List Char} {s : Span} (h : Solid text s) (amount : Int) :
    ∃ context, showSpan text s amount = .ok context := by
  have hlt := h.lt
  have hle := h.le
  obtain ⟨before, l, after, hls, hstart, -, hplace⟩ := placeOf_of_lt (show s.start < text.length by omega)
  obtain ⟨q, front, last, k, hstop⟩ := exists_stop_of_solid h hls hstart
  exact ⟨_, showSpan_of_marked amount hplace hstop.place (hstop.marked _)⟩

end Playhouse.Source
