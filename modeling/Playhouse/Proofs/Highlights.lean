import Playhouse.Proofs.Excerpts

/-!
# Playhouse.Proofs.Highlights — what an excerpt shows

A span is shown by cutting lines out of the text, putting marks into the first and the last of its own, and joining
all again. Told without lines: the excerpt goes through the text character by character, keeps those on the lines
from the first line of context to the last, and puts the marks in before and after the characters of the span. Main
statement: `excerpt_faithful`.
-/

namespace Playhouse.Source

open Text

/-! ### Lines counted by line feeds -/

/-- Lines of the text end in line feeds only. -/
def FeedsOnly (text : List Char) : Prop := ∀ c ∈ text, isLineBreak c = true → c = '\n'

instance (text : List Char) : Decidable (FeedsOnly text) :=
  decidable_of_iff ((text.all fun c => !isLineBreak c || c == '\n') = true)
    (by simp [FeedsOnly, Decidable.or_iff_not_imp_left])

/-- The line of a position: the number of line feeds before it. The end of the text counts as one line further. -/
def feedLine (text : List Char) (pos : Nat) : Nat :=
  (text.take pos).count '\n' + if pos = text.length then 1 else 0

/-- What is shown of the character at a position if the lines from `first` to `last` are shown. -/
def shownAt (text : List Char) (s : Span) (first last : Nat) (x : Char × Nat) : List Char :=
  if first ≤ feedLine text x.2 ∧ feedLine text x.2 ≤ last then
    (if x.2 = s.start then ['>', '>'] else []) ++ [x.1] ++ (if x.2 + 1 = s.stop then ['<', '<'] else [])
  else []

/-- The lines from `first` to `last` of a text, with marks around the characters of a span. -/
def markedBlock (text : List Char) (s : Span) (first last : Nat) : List Char :=
  text.zipIdx.flatMap (shownAt text s first last)

/-- The position where a line begins; past the last line, the end of the text. -/
def lineStart (text : List Char) (n : Nat) : Nat := ((lines text).take n).flatten.length

theorem feedLine_of_lt {text : List Char} {pos : Nat} (h : pos < text.length) :
    feedLine text pos = (text.take pos).count '\n' := by
  unfold feedLine
  rw [if_neg (Nat.ne_of_lt h), Nat.add_zero]

/-- A position lies on one of the first `n` lines if it comes before the next one. -/
theorem feedLine_lt_iff {text : List Char} (h : FeedsOnly text) : ∀ {i n : Nat}, i < text.length →
    (feedLine text i < n ↔ i < lineStart text n) := by
  suffices hcount : ∀ {i n : Nat}, i < text.length →
      ((text.take i).count '\n' < n ↔ i < ((lines text).take n).flatten.length) by
    intro i n hi
    rw [feedLine_of_lt hi, lineStart, hcount hi]
  -- along the recursion that divides the text into lines; the first of them may be empty
  fun_induction lines text with
  | case1 => exact fun hi => absurd hi (Nat.not_lt_zero _)
  | case2 cs ih => exact absurd (h '\r' List.mem_cons_self (by decide)) (by decide)
  | case3 c cs _ hbreak ih =>
    intro i n hi
    obtain rfl := h c List.mem_cons_self hbreak
    cases n with
    | zero => simp
    | succ n =>
      cases i with
      | zero => simp
      | succ i =>
        have hrest := @ih (fun d hd => h d (List.mem_cons_of_mem _ hd)) i n (Nat.lt_of_succ_lt_succ hi)
        simp only [List.take_succ_cons, List.count_cons_self, List.flatten_cons, List.singleton_append,
          List.length_cons]
        omega
  | case4 c cs _ hbreak hnil ih =>
    intro i n hi
    have hcs : cs = [] := by rw [← flatten_lines cs, hnil, List.flatten_nil]
    subst hcs
    obtain rfl : i = 0 := by simpa using hi
    cases n <;> simp
  | case5 c cs _ hbreak l ls hls ih =>
    intro i n hi
    have hc : c ≠ '\n' := by
      rintro rfl
      exact hbreak (by decide)
    cases n with
    | zero => simp
    | succ n =>
      cases i with
      | zero => simp
      | succ i =>
        have hrest := @ih (fun d hd => h d (List.mem_cons_of_mem _ hd)) i (n + 1) (Nat.lt_of_succ_lt_succ hi)
        rw [hls] at hrest
        simp only [List.take_succ_cons, List.count_cons_of_ne hc, List.flatten_cons, List.cons_append,
          List.length_cons] at hrest ⊢
        omega

/-! ### Stretches of a text -/

/-- The characters from position `a` up to but without position `b`. -/
def stretch (text : List Char) (a b : Nat) : List Char := (text.take b).drop a

theorem stretch_append (text : List Char) {a b c : Nat} (hab : a ≤ b) (hbc : b ≤ c) :
    stretch text a b ++ stretch text b c = stretch text a c := by
  have hfirst : stretch text a b = (stretch text a c).take (b - a) := by
    unfold stretch
    rw [← List.drop_take, List.take_take, Nat.min_eq_left hbc]
  have hsecond : stretch text b c = (stretch text a c).drop (b - a) := by
    unfold stretch
    rw [List.drop_drop, Nat.add_sub_cancel' hab]
  rw [hfirst, hsecond, List.take_append_drop]

theorem lineStart_of_split {text : List Char} {before after : List (List Char)}
    (h : lines text = before ++ after) :
    lineStart text before.length = before.flatten.length := by
  rw [lineStart, h, List.take_left]

theorem flatten_take_append (ls : List (List Char)) {a b : Nat} (h : a ≤ b) :
    (ls.take a).flatten ++ ((ls.take b).drop a).flatten = (ls.take b).flatten := by
  have htake : (ls.take b).take a = ls.take a := by rw [List.take_take, Nat.min_eq_left h]
  rw [← List.flatten_append, ← htake, List.take_append_drop]

theorem lineStart_mono (text : List Char) {a b : Nat} (h : a ≤ b) : lineStart text a ≤ lineStart text b := by
  rw [lineStart, lineStart, ← flatten_take_append (lines text) h, List.length_append]
  exact Nat.le_add_right _ _

/-- The next line begins after this one. -/
theorem lineStart_next {text l : List Char} {before after : List (List Char)}
    (h : lines text = before ++ l :: after) :
    lineStart text (before.length + 1) = before.flatten.length + l.length := by
  rw [lineStart, take_line h, List.flatten_append, List.flatten_singleton, List.length_append]

theorem lineStart_lt (text : List Char) {a b : Nat} (hab : a < b) (ha : a < (lines text).length) :
    lineStart text a < lineStart text b := by
  obtain ⟨before, l, after, hls, rfl⟩ : ∃ before l after, lines text = before ++ l :: after ∧ before.length = a :=
    ⟨(lines text).take a, (lines text)[a],
      (lines text).drop (a + 1), by rw [← List.drop_eq_getElem_cons ha, List.take_append_drop],
      List.length_take_of_le (Nat.le_of_lt ha)⟩
  have hne : l ≠ [] := lines_ne_nil text l (by rw [hls]; simp)
  have hpos : 0 < l.length := List.length_pos_iff.mpr hne
  have hbegin : lineStart text before.length = before.flatten.length := lineStart_of_split hls
  have hnext := lineStart_next hls
  have hmono := lineStart_mono text (show before.length + 1 ≤ b from hab)
  omega

theorem take_lineStart (text : List Char) (n : Nat) :
    text.take (lineStart text n) = ((lines text).take n).flatten := by
  have htext : ((lines text).take n).flatten ++ ((lines text).drop n).flatten = text := by
    rw [← List.flatten_append, List.take_append_drop, flatten_lines]
  calc text.take (lineStart text n)
      = (((lines text).take n).flatten ++ ((lines text).drop n).flatten).take
          ((lines text).take n).flatten.length := by
        rw [htext, lineStart]
    _ = ((lines text).take n).flatten := List.take_left

theorem lineStart_le (text : List Char) (n : Nat) : lineStart text n ≤ text.length := by
  have hlength := congrArg List.length (take_lineStart text n)
  rw [List.length_take, ← lineStart] at hlength
  omega

/-- Lines together are a stretch of the text. -/
theorem flatten_lines_between (text : List Char) {a b : Nat} (h : a ≤ b) :
    (((lines text).take b).drop a).flatten = stretch text (lineStart text a) (lineStart text b) := by
  rw [stretch, take_lineStart, ← flatten_take_append (lines text) h, lineStart, List.drop_left]

/-! ### The block -/

theorem flatMap_zipIdx_plain {f : Char × Nat → List Char} {cs : List Char} {k : Nat}
    (h : ∀ c i, k ≤ i → i < k + cs.length → f (c, i) = [c]) : (cs.zipIdx k).flatMap f = cs := by
  induction cs generalizing k with
  | nil => rfl
  | cons c cs ih =>
    rw [List.length_cons] at h
    rw [List.zipIdx_cons, List.flatMap_cons, h c k (Nat.le_refl k) (by omega),
      ih fun d i hk hi => h d i (by omega) (by omega), List.singleton_append]

theorem flatMap_zipIdx_nothing {f : Char × Nat → List Char} {cs : List Char} {k : Nat}
    (h : ∀ c i, k ≤ i → i < k + cs.length → f (c, i) = []) : (cs.zipIdx k).flatMap f = [] := by
  refine List.flatMap_eq_nil_iff.mpr fun x hx => ?_
  obtain ⟨hk, hi, -⟩ := List.mem_zipIdx hx
  exact h x.1 x.2 hk (by omega)

theorem flatMap_zipIdx_closed {f : Char × Nat → List Char} {cs back : List Char} {k : Nat} (hne : cs ≠ [])
    (h : ∀ c i, k ≤ i → i < k + cs.length → f (c, i) = [c] ++ if i + 1 = k + cs.length then back else []) :
    (cs.zipIdx k).flatMap f = cs ++ back := by
  obtain ⟨front, last, rfl⟩ := (List.eq_nil_or_concat cs).resolve_left hne
  rw [List.concat_eq_append] at h ⊢
  rw [List.length_append, List.length_singleton] at h
  have hfront : (front.zipIdx k).flatMap f = front := by
    refine flatMap_zipIdx_plain fun c i hk hi => ?_
    rw [h c i hk (by omega), if_neg (by omega), List.append_nil]
  have hlast : f (last, k + front.length) = [last] ++ back := by
    rw [h last _ (Nat.le_add_right _ _) (by omega), if_pos (by omega)]
  rw [List.zipIdx_append, List.flatMap_append, hfront, List.zipIdx_singleton, List.flatMap_singleton, hlast,
    List.append_assoc]

theorem flatMap_zipIdx_marked {f : Char × Nat → List Char} {cs opening closing : List Char} {k : Nat}
    (hne : cs ≠ []) (h : ∀ c i, k ≤ i → i < k + cs.length →
      f (c, i) = (if i = k then opening else []) ++ [c] ++ if i + 1 = k + cs.length then closing else []) :
    (cs.zipIdx k).flatMap f = opening ++ cs ++ closing := by
  cases cs with
  | nil => exact absurd rfl hne
  | cons c cs =>
    rw [List.length_cons] at h
    rw [List.zipIdx_cons, List.flatMap_cons, h c k (Nat.le_refl k) (by omega), if_pos rfl]
    cases cs with
    | nil => simp
    | cons d ds =>
      have hrest : ((d :: ds).zipIdx (k + 1)).flatMap f = d :: ds ++ closing := by
        refine flatMap_zipIdx_closed (List.cons_ne_nil d ds) fun e i hk hi => ?_
        rw [h e i (by omega) (by omega), if_neg (by omega), List.nil_append]
        simp only [show k + 1 + (d :: ds).length = k + ((d :: ds).length + 1) by omega]
      rw [hrest, if_neg (by rw [List.length_cons]; omega)]
      simp

theorem length_stretch (text : List Char) {a b : Nat} (h : b ≤ text.length) :
    (stretch text a b).length = b - a := by
  rw [stretch, List.length_drop, List.length_take, Nat.min_eq_left h]

theorem flatMap_zipIdx_stretch (f : Char × Nat → List Char) (text : List Char) {i j k : Nat} (hij : i ≤ j)
    (hjk : j ≤ k) (hk : k ≤ text.length) :
    ((stretch text i k).zipIdx i).flatMap f =
      ((stretch text i j).zipIdx i).flatMap f ++ ((stretch text j k).zipIdx j).flatMap f := by
  rw [← stretch_append text hij hjk, List.zipIdx_append, List.flatMap_append, length_stretch text (by omega),
    Nat.add_sub_cancel' hij]

/-- A character is shown if its position lies between those where the lines begin. -/
theorem shownAt_eq {text : List Char} (s : Span) (first last : Nat) (h : FeedsOnly text) (c : Char) {i : Nat}
    (hi : i < text.length) : shownAt text s first last (c, i) =
      if lineStart text first ≤ i ∧ i < lineStart text (last + 1) then
        (if i = s.start then ['>', '>'] else []) ++ [c] ++ (if i + 1 = s.stop then ['<', '<'] else [])
      else [] := by
  have hlines : (first ≤ feedLine text i ∧ feedLine text i ≤ last) ↔
      (lineStart text first ≤ i ∧ i < lineStart text (last + 1)) := by
    have hbegin := feedLine_lt_iff h (n := first) hi
    have hclose := feedLine_lt_iff h (n := last + 1) hi
    omega
  unfold shownAt
  simp only [hlines]

/-- The block is the stretch of the text from where its first line begins to where its last line ends, but for the
marks. -/
theorem markedBlock_eq {text : List Char} {s : Span} {first last : Nat} (h : FeedsOnly text)
    (hfirst : lineStart text first ≤ s.start) (hlt : s.start < s.stop)
    (hlast : s.stop ≤ lineStart text (last + 1)) :
    markedBlock text s first last = stretch text (lineStart text first) s.start ++ ['>', '>'] ++
      stretch text s.start s.stop ++ ['<', '<'] ++ stretch text s.stop (lineStart text (last + 1)) := by
  have hend := lineStart_le text (last + 1)
  have hshown := fun c i (hi : i < text.length) => shownAt_eq s first last h c hi
  generalize lineStart text first = a at hfirst hshown ⊢
  generalize lineStart text (last + 1) = b at hlast hend hshown ⊢
  have hsplit := fun {i j : Nat} (hij : i ≤ j) (hj : j ≤ text.length) =>
    flatMap_zipIdx_stretch (shownAt text s first last) text hij hj (Nat.le_refl _)
  have hwhole : text = stretch text 0 text.length := by rw [stretch, List.take_length, List.drop_zero]
  have hskipped : ((stretch text 0 a).zipIdx 0).flatMap (shownAt text s first last) = [] := by
    refine flatMap_zipIdx_nothing fun c i hk hi => ?_
    rw [length_stretch text (by omega)] at hi
    rw [hshown c i (by omega), if_neg (by omega)]
  have hbefore : ((stretch text a s.start).zipIdx a).flatMap (shownAt text s first last) =
      stretch text a s.start := by
    refine flatMap_zipIdx_plain fun c i hk hi => ?_
    rw [length_stretch text (by omega)] at hi
    rw [hshown c i (by omega), if_pos (by omega), if_neg (by omega), if_neg (by omega)]
    rfl
  have hitem : ((stretch text s.start s.stop).zipIdx s.start).flatMap (shownAt text s first last) =
      ['>', '>'] ++ stretch text s.start s.stop ++ ['<', '<'] := by
    have hlength := length_stretch text (a := s.start) (show s.stop ≤ text.length by omega)
    refine flatMap_zipIdx_marked (List.length_pos_iff.mp (by omega)) fun c i hk hi => ?_
    rw [hshown c i (by omega), if_pos (by omega), hlength, Nat.add_sub_cancel' (Nat.le_of_lt hlt)]
  have hafter : ((stretch text s.stop b).zipIdx s.stop).flatMap (shownAt text s first last) =
      stretch text s.stop b := by
    refine flatMap_zipIdx_plain fun c i hk hi => ?_
    rw [length_stretch text (by omega)] at hi
    rw [hshown c i (by omega), if_pos (by omega), if_neg (by omega), if_neg (by omega)]
    rfl
  have hrest : ((stretch text b text.length).zipIdx b).flatMap (shownAt text s first last) = [] := by
    refine flatMap_zipIdx_nothing fun c i hk hi => ?_
    rw [length_stretch text (Nat.le_refl _)] at hi
    rw [hshown c i (by omega), if_neg (by omega)]
  calc markedBlock text s first last
      = ((stretch text 0 text.length).zipIdx 0).flatMap (shownAt text s first last) := by
        rw [← hwhole, markedBlock]
    _ = _ := by
      rw [hsplit (Nat.zero_le a) (by omega), hsplit hfirst (by omega), hsplit (Nat.le_of_lt hlt) (by omega),
        hsplit hlast hend, hskipped, hbefore, hitem, hafter, hrest]
      simp

/-! ### Marked lines -/

theorem insertAt_cast (cs new : List Char) (i : Nat) : insertAt cs new i = cs.take i ++ new ++ cs.drop i := by
  have hclamp : clampIndex cs.length i = min i cs.length := by
    unfold clampIndex
    rw [if_neg (by omega), Int.toNat_natCast]
  unfold insertAt
  simp only [hclamp]
  rcases Nat.le_total i cs.length with hi | hi
  · rw [Nat.min_eq_left hi]
  · rw [Nat.min_eq_right hi, List.take_length, List.take_of_length_le hi, List.drop_length,
      List.drop_of_length_le hi]

/-- A mark in the first line is a mark in all lines together. -/
theorem flatten_modifyHead {x new : List Char} {xs : List (List Char)} {i : Nat} (h : i ≤ x.length) :
    ((x :: xs).modifyHead (insertAt · new i)).flatten = insertAt (x :: xs).flatten new i := by
  simp only [List.modifyHead_cons, List.flatten_cons, insertAt_cast]
  rw [List.take_append_of_le_length h, List.drop_append_of_le_length h]
  simp

section Marked

variable {text : List Char} {s : Span} {q : Place} {before after front : List (List Char)}
    {l last : List Char} {k : Nat}

theorem lineStart_of_length_le {n : Nat} (h : (lines text).length ≤ n) : lineStart text n = text.length := by
  rw [lineStart, List.take_of_length_le h, flatten_lines]

/-- Whether the span goes to the end of the text or not, what comes after its last line begins at the same
position. -/
theorem StopsAt.lineStart_line {n : Nat} (h : StopsAt text s.stop n q front last k) :
    lineStart text (q.line + 1) = lineStart text (front.length + 1) := by
  obtain ⟨rest, hls, ⟨hline, -⟩ | ⟨hline, rfl, -⟩⟩ := h.split
  · rw [hline]
  · have hlength : (lines text).length = front.length + 1 := by rw [hls, List.length_append, List.length_singleton]
    rw [lineStart_of_length_le (by omega), lineStart_of_length_le (by omega)]

theorem StopsAt.stop_le {n : Nat} (h : StopsAt text s.stop n q front last k) :
    s.stop ≤ lineStart text (q.line + 1) := by
  obtain ⟨rest, hls, -⟩ := h.split
  obtain ⟨c, hc, -⟩ := h.inked
  obtain ⟨hk, -⟩ := List.getElem?_eq_some_iff.mp hc
  have hstop := h.stop
  rw [h.lineStart_line, lineStart_next hls]
  omega

/-- The lines of the span, with the closing mark in the last of them. -/
theorem flatten_closed (h : StopsAt text s.stop before.length q front last k) :
    (front.drop before.length ++ [insertAt last ['<', '<'] (k + 1)]).flatten =
      stretch text (lineStart text before.length) s.stop ++ (['<', '<'] ++
        stretch text s.stop (lineStart text (q.line + 1))) := by
  obtain ⟨rest, hls, -⟩ := h.split
  have hstop := h.stop
  obtain ⟨c, hc, -⟩ := h.inked
  obtain ⟨hk, -⟩ := List.getElem?_eq_some_iff.mp hc
  have hle := h.stop_le
  have hlines : text.take (lineStart text (q.line + 1)) = front.flatten ++ last := by
    rw [h.lineStart_line, take_lineStart, take_line hls, List.flatten_append, List.flatten_singleton]
  have htake : text.take s.stop = front.flatten ++ last.take (k + 1) := by
    rw [← Nat.min_eq_left hle, ← List.take_take, hlines, ← hstop,
      List.take_length_add_append]
  have hbegin : lineStart text before.length = (front.take before.length).flatten.length := by
    rw [lineStart, hls, List.take_append_of_le_length h.le]
  have hfront : front.flatten = (front.take before.length).flatten ++ (front.drop before.length).flatten := by
    rw [← List.flatten_append, List.take_append_drop]
  have hfirst : stretch text (lineStart text before.length) s.stop = (front.drop before.length).flatten ++
      last.take (k + 1) := by
    rw [stretch, htake, hfront, hbegin, List.append_assoc, List.drop_left]
  have hsecond : stretch text s.stop (lineStart text (q.line + 1)) = last.drop (k + 1) := by
    rw [stretch, hlines, ← hstop, List.drop_length_add_append]
  rw [hfirst, hsecond, show ((k : Int) + 1) = ((k + 1 : Nat) : Int) from rfl, insertAt_cast]
  simp

/-- The lines of the span, with both marks. -/
theorem flatten_marked (h : StopsAt text s.stop before.length q front last k)
    (hls : lines text = before ++ l :: after) (hle : before.flatten.length ≤ s.start)
    (hcolumn : s.start - before.flatten.length < l.length) (hlt : s.start < s.stop) :
    ((front.drop before.length ++ [insertAt last ['<', '<'] (k + 1)]).modifyHead
        (insertAt · ['>', '>'] ((s.start - before.flatten.length : Nat) : Int))).flatten =
      stretch text (lineStart text before.length) s.start ++ ['>', '>'] ++ stretch text s.start s.stop ++
        ['<', '<'] ++ stretch text s.stop (lineStart text (q.line + 1)) := by
  obtain ⟨rest, hfront, -⟩ := h.split
  obtain ⟨c, hc, -⟩ := h.inked
  obtain ⟨hk, -⟩ := List.getElem?_eq_some_iff.mp hc
  have hstop := h.stop
  have hclosed := flatten_closed h
  have hbegin : lineStart text before.length = before.flatten.length := lineStart_of_split hls
  have hsame : front.drop before.length ++ last :: rest = l :: after := by
    rw [← List.drop_append_of_le_length h.le, ← hfront, hls, List.drop_left]
  obtain ⟨x, xs, hx, hlength⟩ : ∃ x xs, front.drop before.length ++ [insertAt last ['<', '<'] (k + 1)] = x :: xs ∧
      s.start - before.flatten.length ≤ x.length := by
    cases hdrop : front.drop before.length with
    | nil =>
      -- the span begins in its last line, before the closing mark
      rw [hdrop] at hsame
      obtain ⟨rfl, -⟩ := List.cons.inj hsame
      refine ⟨_, _, rfl, ?_⟩
      rw [show ((k : Int) + 1) = ((k + 1 : Nat) : Int) from rfl, insertAt_cast]
      simp only [List.length_append, List.length_take, List.length_drop]
      omega
    | cons f fs =>
      rw [hdrop] at hsame
      obtain ⟨rfl, -⟩ := List.cons.inj hsame
      exact ⟨f, _, rfl, Nat.le_of_lt hcolumn⟩
  have hle' : s.stop ≤ text.length := Nat.le_trans h.stop_le (lineStart_le text _)
  have hfirst : (stretch text (lineStart text before.length) s.start).length =
      s.start - before.flatten.length := by
    rw [length_stretch text (by omega), hbegin]
  rw [hx] at hclosed ⊢
  rw [flatten_modifyHead hlength, hclosed, insertAt_cast,
    ← stretch_append text (show lineStart text before.length ≤ s.start by omega) (Nat.le_of_lt hlt), ← hfirst]
  simp

end Marked

/-! ### Context -/

theorem getLast?_append_right {xs ys : List Char} (h : ys ≠ []) : (xs ++ ys).getLast? = ys.getLast? := by
  rw [List.getLast?_append, Option.or_of_isSome (List.getLast?_isSome.mpr h)]

/-- A line that another one follows ends in a line feed. -/
theorem map_endLineFeed {text : List Char} {pre xs post : List (List Char)} {l : List Char} (h : FeedsOnly text)
    (hls : lines text = pre ++ xs ++ l :: post) : xs.map endLineFeed = xs := by
  refine (List.map_congr_left fun x hx => ?_).trans (List.map_id xs)
  have hinner : x ∈ (lines text).dropLast := by
    rw [hls, List.dropLast_append_of_ne_nil (List.cons_ne_nil l post)]
    exact List.mem_append_left _ (List.mem_append_right _ hx)
  obtain ⟨c, hc, hbreak⟩ := lineBreak_of_lines text x hinner
  have hmem : c ∈ text := by
    rw [← flatten_lines text]
    exact List.mem_flatten.mpr ⟨x, List.dropLast_subset _ hinner, List.mem_of_getLast? hc⟩
  unfold endLineFeed
  rw [if_pos (by rw [hc, h c hmem hbreak])]
  rfl

theorem flatten_linesBefore {text : List Char} {before after : List (List Char)} {l : List Char}
    (h : FeedsOnly text) (hls : lines text = before ++ l :: after) (k : Nat) :
    (linesBefore (lines text) before.length k).flatten =
      stretch text (lineStart text (before.length - 1 - k)) (lineStart text before.length) := by
  have hslice : slice (lines text) (max ((before.length : Int) - 1 - k) 0) before.length =
      ((lines text).take before.length).drop (before.length - 1 - k) := by
    rw [show max ((before.length : Int) - 1 - k) 0 = ((before.length - 1 - k : Nat) : Int) by omega, slice_cast]
  have hsplit : lines text = before.take (before.length - 1 - k) ++
      ((lines text).take before.length).drop (before.length - 1 - k) ++ l :: after := by
    rw [hls, List.take_left, List.take_append_drop]
  unfold linesBefore
  rw [hslice, map_endLineFeed h hsplit, flatten_lines_between text (by omega)]

/-- The lines after a line. A line feed is added if there are any and the text ends without one. -/
theorem flatten_linesAfter {text : List Char} (h : FeedsOnly text) (n k : Nat) :
    (linesAfter (lines text) n k).flatten =
      stretch text (lineStart text (n + 1)) (lineStart text (n + 1 + k + 1)) ++
        if n + 1 < (lines text).length ∧
          (stretch text (lineStart text (n + 1)) (lineStart text (n + 1 + k + 1))).getLast? ≠ some '\n'
        then ['\n'] else [] := by
  have hslice : slice (lines text) ((n : Int) + 1) ((n : Int) + 2 + k) =
      ((lines text).take (n + 1 + k + 1)).drop (n + 1) := by
    rw [show (n : Int) + 1 = ((n + 1 : Nat) : Int) by omega,
      show (n : Int) + 2 + k = ((n + 1 + k + 1 : Nat) : Int) by omega, slice_cast]
  have hsplit : lines text =
      (lines text).take (n + 1) ++ ((lines text).take (n + 1 + k + 1)).drop (n + 1) ++
      (lines text).drop (n + 1 + k + 1) := by
    have htake : (lines text).take (n + 1) = ((lines text).take (n + 1 + k + 1)).take (n + 1) := by
      rw [List.take_take, Nat.min_eq_left (by omega)]
    rw [htake, List.take_append_drop, List.take_append_drop]
  unfold linesAfter
  rw [hslice, ← flatten_lines_between text (by omega)]
  have hlength : (((lines text).take (n + 1 + k + 1)).drop (n + 1)).length =
      min (n + 1 + k + 1) (lines text).length - (n + 1) := by
    rw [List.length_drop, List.length_take]
  generalize ((lines text).take (n + 1 + k + 1)).drop (n + 1) = shown at hsplit hlength ⊢
  obtain rfl | ⟨ys, y, rfl⟩ := List.eq_nil_or_concat shown
  · rw [if_neg (by rw [List.length_nil] at hlength; omega)]
    rfl
  · rw [List.concat_eq_append] at hsplit hlength ⊢
    rw [List.length_append, List.length_singleton] at hlength
    have hne : y ≠ [] := lines_ne_nil text y (by rw [hsplit]; simp)
    have hinner : ys.map endLineFeed = ys := map_endLineFeed h (by rw [hsplit]; simp; rfl)
    have hlast : (ys ++ [y]).flatten.getLast? = y.getLast? := by
      rw [List.flatten_append, List.flatten_singleton, getLast?_append_right hne]
    have hlt : n + 1 < (lines text).length := by omega
    rw [List.map_append, hinner, hlast]
    simp only [hlt, true_and, List.map_cons, List.map_nil, List.flatten_append, List.flatten_singleton,
      endLineFeed]
    by_cases hfeed : y.getLast? = some '\n'
    · simp [hfeed]
    · simp [hfeed]

/-! ### Excerpts -/

section Excerpts

variable {text : List Char} (h : FeedsOnly text)

include h

theorem feedLine_of_split {pos : Nat} {before after : List (List Char)} {l : List Char}
    (hls : lines text = before ++ l :: after) (hle : before.flatten.length ≤ pos)
    (hlt : pos < before.flatten.length + l.length) : feedLine text pos = before.length := by
  have hbegin : lineStart text before.length = before.flatten.length := lineStart_of_split hls
  have hnext := lineStart_next hls
  have hpos : pos < text.length := Nat.lt_of_lt_of_le (hnext ▸ hlt) (lineStart_le text _)
  have hlow := feedLine_lt_iff h (n := before.length) hpos
  have hhigh := feedLine_lt_iff h (n := before.length + 1) hpos
  omega

/-- The last character is on the last line. -/
theorem feedLine_last (hne : text ≠ []) : feedLine text (text.length - 1) + 1 = (lines text).length := by
  have hflat := flatten_lines text
  obtain hnil | ⟨front, last, hconcat⟩ := List.eq_nil_or_concat (lines text)
  · rw [hnil, List.flatten_nil] at hflat
    exact absurd hflat.symm hne
  · rw [List.concat_eq_append] at hconcat
    have hlast : 0 < last.length := List.length_pos_iff.mpr (lines_ne_nil text last (by rw [hconcat]; simp))
    have htotal : text.length = front.flatten.length + last.length := by
      rw [← hflat, hconcat, List.flatten_append, List.flatten_singleton, List.length_append]
    rw [feedLine_of_split h hconcat (by omega) (by omega), hconcat, List.length_append, List.length_singleton]

theorem feedLine_stop {stop n k : Nat} {q : Place} {front : List (List Char)} {last : List Char}
    (hstop : StopsAt text stop n q front last k) : feedLine text stop = q.line := by
  have hle := hstop.stop
  obtain ⟨rest, hls, ⟨hline, hlt⟩ | ⟨hline, rfl, rfl⟩⟩ := hstop.split
  · rw [hline, feedLine_of_split h hls (by omega) hlt]
  · -- the text does not end in a line feed, so that its end is one line past the last one
    obtain ⟨c, hc, hblank⟩ := hstop.inked
    obtain ⟨hk, -⟩ := List.getElem?_eq_some_iff.mp hc
    have hlast : text[text.length - 1]? = some c := by
      rw [← hc, ← getElem?_line hls hk, flatten_lines]
      congr 1
      omega
    have hne : c ≠ '\n' := by
      rintro rfl
      cases hblank
    have hcount : text.count '\n' = (text.take (text.length - 1)).count '\n' := by
      have htake : text.take (text.length - 1 + 1) = text.take (text.length - 1) ++ [c] := by
        rw [List.take_add_one, hlast]
        rfl
      rw [List.take_of_length_le (by omega)] at htake
      rw [htake, List.count_append, List.count_singleton, if_neg (by simpa using hne), ← htake, Nat.add_zero]
    have hend := feedLine_last h (List.ne_nil_of_length_pos (by omega))
    rw [feedLine_of_lt (by omega), hls, List.length_append, List.length_singleton] at hend
    rw [hline, feedLine, if_pos rfl, List.take_length, hcount, hend]

end Excerpts

/-- **An excerpt is faithful.** Let the lines of a text end in line feeds only, and let a span of it not end in a
blank. The excerpt with `k` lines of context is the block of lines from the one `k + 1` before the line of the
span's beginning, or from the first line, to the one `k + 1` after the line of its end, as far as there are lines,
with `>>` before the first character of the span and `<<` after its last. A line feed follows if lines after those
of the span are shown and the last of them has none. -/
theorem excerpt_faithful {text : List Char} {s : Span} (hfeeds : FeedsOnly text) (h : Solid text s) (k : Nat) :
    showSpan text s k = .ok
      (let block := markedBlock text s (feedLine text s.start - 1 - k) (feedLine text s.stop + 1 + k)
      block ++ if feedLine text s.stop < feedLine text (text.length - 1) ∧ block.getLast? ≠ some '\n' then ['\n']
      else []) := by
  have hlt := h.lt
  have hle := h.le
  obtain ⟨before, l, after, hls, hstart, hcolumn, hplace⟩ := placeOf_of_lt (show s.start < text.length by omega)
  obtain ⟨q, front, last, j, hstop⟩ := exists_stop_of_solid h hls hstart
  have hstartLine : feedLine text s.start = before.length := feedLine_of_split hfeeds hls hstart (by omega)
  have hstopLine : feedLine text s.stop = q.line := feedLine_stop hfeeds hstop
  have hlastLine := feedLine_last hfeeds (List.ne_nil_of_length_pos (show 0 < text.length by omega))
  have hbegin : lineStart text before.length = before.flatten.length := lineStart_of_split hls
  have hstopLe := hstop.stop_le
  have hmono := lineStart_mono text (show q.line + 1 ≤ q.line + 1 + k + 1 by omega)
  have hfirst := lineStart_mono text (show before.length - 1 - k ≤ before.length by omega)
  -- the pieces of the block, as the lines give them
  have hblock : markedBlock text s (before.length - 1 - k) (q.line + 1 + k) = _ :=
    markedBlock_eq hfeeds (by omega) hlt (by omega)
  rw [← stretch_append text hfirst (show lineStart text before.length ≤ s.start by omega),
    ← stretch_append text hstopLe hmono] at hblock
  have hfeed : (q.line < feedLine text (text.length - 1) ∧
      (markedBlock text s (before.length - 1 - k) (q.line + 1 + k)).getLast? ≠ some '\n') ↔
      (q.line + 1 < (lines text).length ∧
        (stretch text (lineStart text (q.line + 1)) (lineStart text (q.line + 1 + k + 1))).getLast? ≠
        some '\n') := by
    rw [← hlastLine, Nat.add_lt_add_iff_right]
    refine and_congr_right fun hshown => ?_
    have hne : stretch text (lineStart text (q.line + 1)) (lineStart text (q.line + 1 + k + 1)) ≠ [] := by
      have hpos := lineStart_lt text (show q.line + 1 < q.line + 1 + k + 1 by omega) (by omega)
      refine List.ne_nil_of_length_pos ?_
      rw [length_stretch text (lineStart_le text _)]
      omega
    rw [hblock, ← List.append_assoc, getLast?_append_right hne]
  rw [showSpan_of_marked k hplace hstop.place (hstop.marked _), hstartLine, hstopLine]
  dsimp only
  rw [flatten_linesBefore hfeeds hls, flatten_marked hstop hls hstart hcolumn hlt, flatten_linesAfter hfeeds]
  simp only [hfeed]
  rw [hblock]
  simp only [List.append_assoc]

/-- A span of two lines, with one line on each side, the last of them without a line feed. -/
theorem excerpt_faithful_two_lines :
    FeedsOnly "out\nan old\ncat sat\nby\nme".toList ∧ Solid "out\nan old\ncat sat\nby\nme".toList ⟨7, 14⟩ ∧
      showSpan "out\nan old\ncat sat\nby\nme".toList ⟨7, 14⟩ 0 = .ok "out\nan >>old\ncat<< sat\nby\n".toList ∧
      showSpan "out\nan old\ncat sat\nby\nme".toList ⟨7, 14⟩ 1 =
        .ok "out\nan >>old\ncat<< sat\nby\nme\n".toList := by
  have hfeeds : FeedsOnly "out\nan old\ncat sat\nby\nme".toList := by decide +kernel
  have hsolid : Solid "out\nan old\ncat sat\nby\nme".toList ⟨7, 14⟩ := ⟨by decide, by decide, 't', rfl, rfl⟩
  exact ⟨hfeeds, hsolid,
    (excerpt_faithful hfeeds hsolid 0).trans (congrArg Except.ok (by decide +kernel)),
    (excerpt_faithful hfeeds hsolid 1).trans (congrArg Except.ok (by decide +kernel))⟩

end Playhouse.Source
