import Playhouse.Proofs.Tokens

/-!
# Playhouse.Proofs.Readers — a reader gives what standard input gives

A reader is asked for single characters and holds at most one of them, where basic input holds the rest of a line.
Both draw from the text as a whole, so that they give the same numbers and characters. They part only at a sign
that no digit follows: basic input finds no number there and leaves the sign, while the reader has taken it and
cannot make a number of it. Main statement: `reader_gives_what_lines_give`.
-/

namespace Playhouse

open Number Text

/-! ### Signs without digits -/

/-- The text begins with a sign that no digit follows. -/
def BareSign (sign : Char) (text : List Char) : Prop :=
  (sign = '+' ∨ sign = '-') ∧ ∃ rest, text = sign :: rest ∧ ∀ c ∈ rest.head?, isDigitChar c = false

/-- Of the inputs asked for, the one after those of `before` is a number at a bare sign. Those before it have drawn
`ms` from the text. -/
def ComesToSign (media : List Medium) (text : List Char) (before : List Medium) (ms : List Int) (sign : Char) :
    Prop :=
  ∃ after rest, media = before ++ .number :: after ∧ DrawsAll before text ms rest ∧ BareSign sign rest

theorem mem_signs {sign : Char} (h : sign = '+' ∨ sign = '-') : [sign] ∈ signs := by
  rcases h with rfl | rfl <;> simp [signs]

theorem BareSign.draws {sign : Char} {text : List Char} (h : BareSign sign text) : Draws .number text 0 text := by
  obtain ⟨hsign, rest, rfl, hrest⟩ := h
  refine .none fun s hs c cs htext => ?_
  simp only [signs, List.mem_cons, List.not_mem_nil, or_false] at hs
  rcases hs with rfl | rfl | rfl
  · obtain ⟨rfl, -⟩ : sign = c ∧ rest = cs := by simpa using htext
    exact not_isDigitChar_sign (mem_signs hsign) List.mem_cons_self
  all_goals
    simp only [List.cons_append, List.nil_append, List.cons.injEq] at htext
    exact hrest c (by simp [htext.2])

theorem readNumeral_of_bareSign {sign : Char} (hsign : sign = '+' ∨ sign = '-') :
    readNumeral [sign] = .error (.unreadableNumeral (String.singleton sign)) := by
  rcases hsign with rfl | rfl <;> rfl

theorem splitSign_of_sign {sign : Char} (hsign : sign = '+' ∨ sign = '-') (cs : List Char) :
    splitSign ((sign :: cs).dropWhile isNumeralBlank) = (decide (sign = '-'), cs) := by
  rcases hsign with rfl | rfl <;> rfl

/-! ### Input from a reader -/

/-- The text is what the performance still gets from its reader: the character that is held, and the rest. -/
def Performance.Offers (p : Performance) (text : List Char) : Prop :=
  ∃ held, p.desk = .reader held ∧ PerformanceM.readerText held p = text

/-- The performance with another reader. -/
def Performance.offering (p : Performance) (held : Option Char) (reader : Option (List Char)) : Performance :=
  { p with desk := .reader held, streams := { p.streams with reader := reader } }

theorem Performance.offers_offering (p : Performance) (held : Option Char) (reader : Option (List Char)) :
    (p.offering held reader).Offers (held.toList ++ reader.getD []) := ⟨held, rfl, rfl⟩

/-- What is held and what is left of a text that was cut after its first character. -/
theorem toList_head?_append_drop (cs : List Char) : cs.head?.toList ++ cs.drop 1 = cs := by
  cases cs <;> simp

namespace PerformanceM

variable {p : Performance} {held : Option Char} {text : List Char}

theorem input_of_reader (medium : Medium) (h : p.desk = .reader held) : input medium p =
    (match medium with
    | .number => readerNumber held
    | .character => readerCharacter held) p := by
  unfold input
  refine (bind_of_ok (t := p) rfl).trans ?_
  rw [h]
  cases medium <;> rfl

/-- Where the text begins like a number, the reader takes the first character and all digits after it. It holds the
character that it came to. -/
theorem readerNumber_taking {c : Char} {digits rest : List Char} (h : readerText held p = c :: (digits ++ rest))
    (hc : c = '+' ∨ c = '-' ∨ isDigitChar c) (hdigits : ∀ d ∈ digits, isDigitChar d = true)
    (hrest : ∀ d ∈ rest.head?, isDigitChar d = false) :
    readerNumber held p =
      (ofBreakdown (readNumeral (c :: digits)) : PerformanceM Int)
        (p.offering rest.head? (some (rest.drop 1))) := by
  have htake := takeWhile_digits hdigits hrest
  have hdrop : (digits ++ rest).dropWhile isDigitChar = rest := by
    have hsplit := List.takeWhile_append_dropWhile (p := isDigitChar) (l := digits ++ rest)
    rw [htake] at hsplit
    exact List.append_cancel_left hsplit
  unfold readerNumber
  refine (bind_of_ok (t := p) rfl).trans ?_
  rw [h]
  simp only [hc, if_true, htake, hdrop]
  rfl

/-- Where the text does not begin like a number, the reader gives zero and leaves the text as it is. It may hold
the first character now. -/
theorem readerNumber_leaving (hdesk : p.desk = .reader held) (h : readerText held p = text)
    (hnone : ∀ c ∈ text.head?, ¬ (c = '+' ∨ c = '-' ∨ isDigitChar c)) :
    ∃ held' reader, readerNumber held p = .ok 0 (p.offering held' reader) ∧ held'.toList ++
      reader.getD [] = text := by
  cases text with
  | nil =>
    refine ⟨held, p.streams.reader, ?_, h⟩
    unfold readerNumber Performance.offering
    refine (bind_of_ok (t := p) rfl).trans ?_
    rw [h, ← hdesk]
    rfl
  | cons c cs =>
    refine ⟨some c, some cs, ?_, rfl⟩
    unfold readerNumber
    refine (bind_of_ok (t := p) rfl).trans ?_
    rw [h]
    simp only [hnone c rfl, if_false]
    rfl

/-- The reader gives the number at the beginning of its text, or zero, unless a bare sign stands there. -/
theorem draws_readerNumber (hdesk : p.desk = .reader held) (h : readerText held p = text)
    (hnumbers : ReadableNumbers text) (hsigns : ∀ sign, ¬ BareSign sign text) :
    ∃ n held' reader, readerNumber held p = .ok n (p.offering held' reader) ∧
      Draws .number text n (held'.toList ++ reader.getD []) := by
  by_cases hleave : ∀ c ∈ text.head?, ¬ (c = '+' ∨ c = '-' ∨ isDigitChar c)
  · obtain ⟨held', reader, hread, hleft⟩ := readerNumber_leaving hdesk h hleave
    refine ⟨0, held', reader, hread, ?_⟩
    rw [hleft]
    apply draws_nothing
    cases text with
    | nil => rfl
    | cons c cs => simp_all [leadingDigits, sign?_cons]
  · simp only [not_forall, not_not] at hleave
    obtain ⟨c, hhead, hc⟩ := hleave
    obtain ⟨cs, rfl⟩ := List.head?_eq_some_iff.mp hhead
    have hcs : cs.takeWhile isDigitChar ++ cs.dropWhile isDigitChar = cs := List.takeWhile_append_dropWhile
    have hdigits : ∀ d ∈ cs.takeWhile isDigitChar, isDigitChar d = true := List.all_eq_true.mp List.all_takeWhile
    have hrest : ∀ d ∈ (cs.dropWhile isDigitChar).head?, isDigitChar d = false := fun d hd => by
      simpa [Option.mem_def.mp hd] using List.head?_dropWhile_not isDigitChar cs
    generalize cs.takeWhile isDigitChar = digits at hcs hdigits
    generalize cs.dropWhile isDigitChar = rest at hcs hrest
    subst hcs
    -- Either the first character is a sign before the digits, or it is the first of them.
    obtain ⟨n, hn, hdraws⟩ : ∃ n, readNumeral (c :: digits) = .ok n ∧
      Draws .number (c :: (digits ++ rest)) n rest := by
      have hreadable : ∀ sign run : List Char, c :: digits = sign ++ run → (∀ d ∈ run, isDigitChar d = true) →
          (∀ d ∈ run, (digitValue? d).isSome = true) ∧ run.length ≤ digitLimit := by
        intro sign run hrun hall
        have hwithin : run <:+: c :: (digits ++ rest) := ⟨sign, rest, by rw [← hrun]; rfl⟩
        exact ⟨fun d hd => hnumbers.decimal d (hwithin.subset hd) (hall d hd), hnumbers.runs run hwithin hall⟩
      by_cases hsign : c = '+' ∨ c = '-'
      · have hne : digits ≠ [] := by
          rintro rfl
          exact hsigns c ⟨hsign, rest, rfl, hrest⟩
        obtain ⟨hdecimal, hlength⟩ := hreadable [c] digits rfl hdigits
        refine ⟨_, readNumeral_of_split (splitSign_of_sign hsign digits) hne hdecimal hlength, ?_⟩
        have hvalue := Draws.number (mem_signs hsign) hne hdigits hrest
        simpa [signedValue] using hvalue
      · have hall : ∀ d ∈ c :: digits, isDigitChar d = true := by
          rw [← or_assoc] at hc
          simpa using ⟨hc.resolve_left hsign, hdigits⟩
        obtain ⟨hdecimal, hlength⟩ := hreadable [] (c :: digits) rfl hall
        refine ⟨_, readNumeral_of_decimals (List.cons_ne_nil c digits) hall hdecimal hlength, ?_⟩
        have hvalue : Draws .number ([] ++ c :: digits ++ rest) (signedValue [] (c :: digits)) rest :=
          .number List.mem_cons_self (List.cons_ne_nil c digits) hall hrest
        exact hvalue
    refine ⟨n, rest.head?, some (rest.drop 1), ?_, ?_⟩
    · rw [readerNumber_taking h hc hdigits hrest, hn]
      rfl
    · rwa [Option.getD_some, toList_head?_append_drop]

theorem draws_readerCharacter (hdesk : p.desk = .reader held) (h : readerText held p = text) :
    ∃ n held' reader, readerCharacter held p = .ok n (p.offering held' reader) ∧
      Draws .character text n (held'.toList ++ reader.getD []) := by
  cases text with
  | nil =>
    refine ⟨-1, held, p.streams.reader, ?_, by rw [← readerText, h]; exact .ending⟩
    unfold readerCharacter Performance.offering
    refine (bind_of_ok (t := p) rfl).trans ?_
    rw [h, ← hdesk]
    rfl
  | cons c cs =>
    refine ⟨c.toNat, none, some cs, ?_, .character c cs⟩
    unfold readerCharacter
    refine (bind_of_ok (t := p) rfl).trans ?_
    rw [h]
    rfl

/-- One input from a reader is drawn from its text, or it is a number at a bare sign and breaks down. -/
theorem draws_input_of_offers (medium : Medium) (h : p.Offers text) (hnumbers : ReadableNumbers text) :
    (∃ sign q, medium = .number ∧ BareSign sign text ∧
      input medium p = .error (.breakdown (.unreadableNumeral (String.singleton sign))) q) ∨
    ((∀ sign, medium = .number → ¬ BareSign sign text) ∧
      ∃ n held reader, input medium p = .ok n (p.offering held reader) ∧
        Draws medium text n (held.toList ++ reader.getD [])) := by
  obtain ⟨held, hdesk, htext⟩ := h
  rw [input_of_reader medium hdesk]
  cases medium with
  | character => exact .inr ⟨nofun, draws_readerCharacter hdesk htext⟩
  | number =>
    by_cases hbare : ∃ sign, BareSign sign text
    · obtain ⟨sign, hsign⟩ := hbare
      obtain ⟨hmark, rest, rfl, hrest⟩ := id hsign
      refine .inl ⟨sign, p.offering rest.head? (some (rest.drop 1)), rfl, hsign, ?_⟩
      have hsplit : readerText held p = sign :: ([] ++ rest) := htext
      have hread := readerNumber_taking hsplit (by tauto) (by simp) hrest
      rw [readNumeral_of_bareSign hmark] at hread
      exact hread
    · have hnone : ∀ sign, ¬ BareSign sign text := not_exists.mp hbare
      exact .inr ⟨fun sign _ => hnone sign, draws_readerNumber hdesk htext hnumbers hnone⟩

/-- Inputs from a reader one after the other, by induction on the inputs: they are drawn from its text as far as no
number comes to a bare sign. -/
theorem draws_inputs_of_offers (media : List Medium) : ∀ {p : Performance} {text : List Char}, p.Offers text →
    ReadableNumbers text →
    (∃ before ms sign, ComesToSign media text before ms sign ∧ (∃ q, before.mapM input p = .ok ms q) ∧
      ∃ q, media.mapM input p = .error (.breakdown (.unreadableNumeral (String.singleton sign))) q) ∨
    ((∀ before ms sign, ¬ ComesToSign media text before ms sign) ∧
      ∃ ns q rest, media.mapM input p = .ok ns q ∧ DrawsAll media text ns rest ∧ q.Offers rest) := by
  induction media with
  | nil =>
    intro p text h _
    refine .inr ⟨?_, [], p, text, rfl, .nil text, h⟩
    rintro before ms sign ⟨after, rest, hmedia, -⟩
    simp at hmedia
  | cons medium media ih =>
    intro p text h hnumbers
    rcases draws_input_of_offers medium h hnumbers with ⟨sign, q, rfl, hsign, hinput⟩ |
      ⟨hnone, n, held, reader, hinput, hdraws⟩
    · refine .inl ⟨[], [], sign, ⟨media, text, rfl, .nil text, hsign⟩, ⟨p, rfl⟩, q, ?_⟩
      rw [List.mapM_cons, bind_of_error hinput]
    · have hcons : ∀ ms : List Medium, (medium :: ms).mapM input p = (do
          let ns ← ms.mapM input
          pure (n :: ns) : PerformanceM (List Int)) (p.offering held reader) := fun ms => by
        rw [List.mapM_cons, bind_of_ok hinput]
      rcases ih (p.offers_offering held reader) (hnumbers.suffix hdraws.suffix) with
        ⟨before, ms, sign, ⟨after, rest, rfl, hbefore, hsign⟩, ⟨q, hfirst⟩, q', hfails⟩ |
        ⟨hclear, ns, q, rest, hrest, hall, hq⟩
      · refine .inl ⟨medium :: before, n :: ms, sign, ⟨after, rest, rfl, .cons hdraws hbefore, hsign⟩,
          ⟨q, ?_⟩, q', ?_⟩
        · rw [hcons, bind_of_ok hfirst]
          rfl
        · rw [hcons, bind_of_error hfails]
      · refine .inr ⟨?_, n :: ns, q, rest, ?_, .cons hdraws hall, hq⟩
        · rintro before ms sign ⟨after, rest', hmedia, hbefore, hsign⟩
          cases hbefore with
          | nil =>
            obtain ⟨rfl, -⟩ := List.cons.inj hmedia
            exact hnone sign rfl hsign
          | cons hdraws' hbefore' =>
            obtain ⟨rfl, hmedia'⟩ := List.cons.inj hmedia
            obtain ⟨rfl, rfl⟩ := hdraws.unique hdraws'
            exact hclear _ _ sign ⟨after, rest', hmedia', hbefore', hsign⟩
        · rw [hcons, bind_of_ok hrest]
          rfl

end PerformanceM

/-- What is drawn where a number comes to a bare sign begins with what was drawn before it, and with zero for
it. -/
theorem ComesToSign.drawn {media before : List Medium} {text rest : List Char} {ms ns : List Int} {sign : Char}
    (h : ComesToSign media text before ms sign) (hall : DrawsAll media text ns rest) : ms ++ [0] <+: ns := by
  obtain ⟨after, left, rfl, hbefore, hsign⟩ := h
  induction hbefore generalizing ns with
  | nil text =>
    cases hall with
    | cons hdraws _ =>
      obtain ⟨rfl, -⟩ := hsign.draws.unique hdraws
      simp
  | cons hdraws _ ih =>
    cases hall with
    | cons hdraws' hall' =>
      obtain ⟨rfl, rfl⟩ := hdraws.unique hdraws'
      simpa using ih hall' hsign

/-- **A reader gives what standard input gives, up to a bare sign.** Let `text` have no other digits than decimal
digits, and no more of them in a row than a numeral may have. Of two performances one has basic input and `text` as
the whole of standard input, the other a reader of `text`. Whatever numbers and characters are asked for, one after
the other, basic input gives all of them. The reader gives the same, unless a number is asked for where a sign
stands that no digit follows; then it gives the same up to there, and where basic input gives zero, it breaks
down. -/
theorem reader_gives_what_lines_give {text : List Char} {p q : Performance} (hbasic : p.desk = .basic [])
    (hstdin : p.streams.stdin = text) (hdesk : q.desk = .reader none) (hreader : q.streams.reader = some text)
    (hdecimal : ∀ c ∈ text, isDigitChar c = true → (digitValue? c).isSome = true)
    (hruns : ∀ run, run <:+: text → (∀ c ∈ run, isDigitChar c = true) → run.length ≤ 4300) (media : List Medium) :
    ∃ ns p', media.mapM PerformanceM.input p = .ok ns p' ∧
      (((∀ before ms sign, ¬ ComesToSign media text before ms sign) ∧
          ∃ q', media.mapM PerformanceM.input q = .ok ns q') ∨
        ∃ before ms sign, ComesToSign media text before ms sign ∧ ms ++ [0] <+: ns ∧
          (∃ q', before.mapM PerformanceM.input q = .ok ms q') ∧
          ∃ q', media.mapM PerformanceM.input q =
            .error (.breakdown (.unreadableNumeral (String.singleton sign))) q') := by
  have hfaces : p.Faces [] text := ⟨hbasic, hstdin, fun _ hne => absurd rfl hne⟩
  have hoffers : q.Offers text := ⟨none, hdesk, by simp [PerformanceM.readerText, hreader]⟩
  have hnumbers : ReadableNumbers text := ⟨hdecimal, hruns⟩
  obtain ⟨ns, held, stdin, hlines, hall⟩ := PerformanceM.draws_inputs media hfaces hnumbers
  refine ⟨ns, p.facing held stdin, hlines, ?_⟩
  rcases PerformanceM.draws_inputs_of_offers media hoffers hnumbers with
    ⟨before, ms, sign, hcomes, hbefore, hfails⟩ | ⟨hclear, ns', q', rest, hgives, hall', -⟩
  · exact .inr ⟨before, ms, sign, hcomes, hcomes.drawn hall, hbefore, hfails⟩
  · obtain ⟨rfl, -⟩ := hall.unique hall'
    exact .inl ⟨hclear, q', hgives⟩

/-- A performance of nothing, with a reader of the given text. -/
def readerPage (text : List Char) : Performance :=
  ⟨⟨[], [], []⟩, Stage.ofCast [], 0, .reader none, .basic, ⟨[], some text, "", ""⟩, []⟩

/-- A text with a number, and a sign that no digit follows. -/
def dashedText : List Char := "-5-\n".toList

theorem reader_gives_what_lines_give_dashed :
    ∃ before ms sign, ComesToSign [.number, .number, .character] dashedText before ms sign ∧
      ms ++ [0] <+: [-5, 0, 45] ∧
      ∃ q, before.mapM PerformanceM.input (readerPage dashedText) = .ok ms q := by
  have hlength : dashedText.length ≤ 4300 := by decide
  have hall : (dashedText.all fun c => !isDigitChar c || (digitValue? c).isSome) = true := by decide
  have hdecimal : ∀ c ∈ dashedText, isDigitChar c = true → (digitValue? c).isSome = true := by
    intro c hc hdigit
    have hvalue := List.all_eq_true.mp hall c hc
    rwa [hdigit, Bool.not_true, Bool.false_or] at hvalue
  have hlines : outcomeOf ([.number, .number, .character].mapM PerformanceM.input) (blankPage dashedText) =
      .ok [-5, 0, 45] := by decide
  have hreader : outcomeOf ([.number, .number, .character].mapM PerformanceM.input) (readerPage dashedText) =
      .error (.breakdown (.unreadableNumeral "-")) := by decide
  obtain ⟨ns, p, hns, ⟨-, q, hq⟩ | ⟨before, ms, sign, hcomes, hdrawn, hbefore, -⟩⟩ :=
    reader_gives_what_lines_give (p := blankPage dashedText) (q := readerPage dashedText) rfl rfl rfl rfl hdecimal
      (fun run hrun _ => Nat.le_trans hrun.length_le hlength) [.number, .number, .character]
  · rw [outcomeOf_of_ok hq] at hreader
    cases hreader
  · rw [outcomeOf_of_ok hns] at hlines
    cases hlines
    exact ⟨before, ms, sign, hcomes, hdrawn, hbefore⟩

/-- At a text that is one sign and no more, the two ways of input do not agree. -/
theorem reader_stumbles_over_sign :
    outcomeOf (PerformanceM.input .number) (blankPage ['+']) = .ok 0 ∧
      outcomeOf (PerformanceM.input .number) (readerPage ['+']) =
        .error (.breakdown (.unreadableNumeral "+")) := by
  decide

end Playhouse
