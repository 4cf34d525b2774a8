import Mathlib.Data.List.Infix
import Mathlib.Data.Nat.Digits.Defs
import Playhouse.Proofs.Hazards

/-!
# Playhouse.Proofs.Tokens — basic input takes the text apart

Basic input works on lines: what is left of the present line is held, and the next line is read only when nothing
is. Numbers and characters are nevertheless drawn from the text as a whole, which is what is held followed by what
is still to be read. A line feed is no digit, so that no number is cut where a line ends. Main statement:
`input_draws_text`.
-/

namespace Playhouse

open Number Text

/-! ### Drawing from a text -/

/-- The signs that a number may begin with. -/
def signs : List (List Char) := [[], ['+'], ['-']]

/-- The number that decimal digits stand for. -/
def decimalValue (digits : List Char) : Nat := Nat.ofDigits 10 (digits.filterMap digitValue?).reverse

/-- The number that decimal digits after a sign stand for. -/
def signedValue (sign digits : List Char) : Int :=
  if sign = ['-'] then -(decimalValue digits : Int) else decimalValue digits

/-- Drawing a number or a character from the text gives `n` and leaves `rest`. A number has all the digits that
there are after its sign. Where there is no number, zero is given and nothing is taken. -/
inductive Draws : Medium → (text : List Char) → (n : Int) → (rest : List Char) → Prop
  | character (c : Char) (rest : List Char) : Draws .character (c :: rest) c.toNat rest
  | ending : Draws .character [] (-1) []
  | number {sign digits rest : List Char} : sign ∈ signs → digits ≠ [] → (∀ c ∈ digits, isDigitChar c = true) →
      (∀ c ∈ rest.head?, isDigitChar c = false) →
      Draws .number (sign ++ digits ++ rest) (signedValue sign digits) rest
  | none {text : List Char} :
      (∀ sign ∈ signs, ∀ c rest, text = sign ++ c :: rest → isDigitChar c = false) → Draws .number text 0 text

/-- Drawing one after the other from the text gives `ns` and leaves `rest`. -/
inductive DrawsAll : List Medium → (text : List Char) → (ns : List Int) → (rest : List Char) → Prop
  | nil (text : List Char) : DrawsAll [] text [] text
  | cons {medium : Medium} {media : List Medium} {text rest rest' : List Char} {n : Int} {ns : List Int} :
      Draws medium text n rest → DrawsAll media rest ns rest' → DrawsAll (medium :: media) text (n :: ns) rest'

theorem not_isDigitChar_sign {sign : List Char} {c : Char} (h : sign ∈ signs) (hc : c ∈ sign) :
    isDigitChar c = false := by
  have hall : signs.all fun sign => sign.all fun c => !isDigitChar c := by decide
  simpa using List.all_eq_true.mp (List.all_eq_true.mp hall sign h) c hc

/-- What stands before the first digit is the sign. -/
theorem takeWhile_sign {sign digits rest : List Char} (hsign : sign ∈ signs) (hne : digits ≠ [])
    (hdigits : ∀ c ∈ digits, isDigitChar c = true) :
    (sign ++ digits ++ rest).takeWhile (fun c => !isDigitChar c) = sign := by
  obtain ⟨d, ds, rfl⟩ := List.exists_cons_of_ne_nil hne
  rw [List.append_assoc, List.takeWhile_append_of_pos (fun c hc => by simp [not_isDigitChar_sign hsign hc]),
    List.cons_append, List.takeWhile_cons_of_neg (by simp [hdigits d]), List.append_nil]

theorem takeWhile_digits {digits rest : List Char} (hdigits : ∀ c ∈ digits, isDigitChar c = true)
    (hrest : ∀ c ∈ rest.head?, isDigitChar c = false) : (digits ++ rest).takeWhile isDigitChar = digits := by
  rw [List.takeWhile_append_of_pos hdigits]
  cases rest with
  | nil => rw [List.takeWhile_nil, List.append_nil]
  | cons c rest => rw [List.takeWhile_cons_of_neg (by simp [hrest c rfl]), List.append_nil]

/-- There is one way to draw from a text. -/
theorem Draws.unique {medium : Medium} {text rest rest' : List Char} {n n' : Int} (h : Draws medium text n rest)
    (h' : Draws medium text n' rest') : n' = n ∧ rest' = rest := by
  cases h with
  | character c rest =>
    cases h'
    exact ⟨rfl, rfl⟩
  | ending =>
    cases h'
    exact ⟨rfl, rfl⟩
  | @number sign digits rest hsign hne hdigits hrest =>
    generalize htext : sign ++ digits ++ rest = text at h'
    cases h' with
    | @number sign' digits' rest' hsign' hne' hdigits' hrest' =>
      have hsame : sign = sign' := by
        rw [← takeWhile_sign hsign hne hdigits, htext, takeWhile_sign hsign' hne' hdigits']
      subst hsame
      rw [List.append_assoc, List.append_assoc, List.append_cancel_left_eq] at htext
      have hsame : digits = digits' := by
        rw [← takeWhile_digits hdigits hrest, htext, takeWhile_digits hdigits' hrest']
      subst hsame
      exact ⟨rfl, (List.append_cancel_left htext).symm⟩
    | none hnone =>
      obtain ⟨d, ds, rfl⟩ := List.exists_cons_of_ne_nil hne
      have hd := hnone sign hsign d (ds ++ rest) (by rw [← htext, List.append_assoc]; rfl)
      rw [hdigits d List.mem_cons_self] at hd
      cases hd
  | none hnone =>
    cases h' with
    | @number sign digits _ hsign hne hdigits hrest =>
      obtain ⟨d, ds, rfl⟩ := List.exists_cons_of_ne_nil hne
      have hd := hnone sign hsign d (ds ++ rest') (by rw [List.append_assoc]; rfl)
      rw [hdigits d List.mem_cons_self] at hd
      cases hd
    | none _ => exact ⟨rfl, rfl⟩

theorem DrawsAll.unique {media : List Medium} {text rest rest' : List Char} {ns ns' : List Int}
    (h : DrawsAll media text ns rest) (h' : DrawsAll media text ns' rest') : ns' = ns ∧ rest' = rest := by
  induction h generalizing ns' rest' with
  | nil text =>
    cases h'
    exact ⟨rfl, rfl⟩
  | cons hdraws _ ih =>
    cases h' with
    | cons hdraws' hall' =>
      obtain ⟨rfl, rfl⟩ := hdraws.unique hdraws'
      obtain ⟨rfl, rfl⟩ := ih hall'
      exact ⟨rfl, rfl⟩

theorem Draws.suffix {medium : Medium} {text rest : List Char} {n : Int} (h : Draws medium text n rest) :
    rest <:+ text := by
  cases h with
  | character c rest => exact List.suffix_cons c rest
  | ending => exact List.suffix_refl _
  | number _ _ _ _ => exact List.suffix_append _ _
  | none _ => exact List.suffix_refl _

/-- Every number that may be drawn from the text can be read: its digits are decimal, and not too many. -/
structure ReadableNumbers (text : List Char) : Prop where
  decimal : ∀ c ∈ text, isDigitChar c = true → (digitValue? c).isSome = true
  runs : ∀ run, run <:+: text → (∀ c ∈ run, isDigitChar c = true) → run.length ≤ digitLimit

theorem ReadableNumbers.suffix {text rest : List Char} (h : ReadableNumbers text) (hrest : rest <:+ text) :
    ReadableNumbers rest :=
  ⟨fun c hc => h.decimal c (hrest.subset hc), fun run hrun => h.runs run (hrun.trans hrest.isInfix)⟩

/-! ### Numerals -/

theorem digitsValue_eq_ofDigits (ds : List Nat) :
    ∀ acc, digitsValue acc ds = Nat.ofDigits 10 (ds.reverse ++ [acc]) := by
  induction ds with
  | nil =>
    intro acc
    simp [digitsValue]
  | cons d ds ih =>
    intro acc
    rw [digitsValue, ih, List.reverse_cons, List.append_assoc, Nat.ofDigits_append, Nat.ofDigits_append]
    simp [Nat.ofDigits_cons]
    ring

theorem scanDigits_of_decimals {digits : List Char} (h : ∀ c ∈ digits, (digitValue? c).isSome = true) :
    scanDigits true digits = some (digits.filterMap digitValue?, []) := by
  induction digits with
  | nil => rfl
  | cons c cs ih =>
    obtain ⟨hc, hcs⟩ := List.forall_mem_cons.mp h
    obtain ⟨d, hd⟩ := Option.isSome_iff_exists.mp hc
    unfold scanDigits
    rw [hd, ih hcs, List.filterMap_cons_some hd]
    rfl

/-- Decimal digits that are not too many are read as the number they stand for, with the sign that was split
off. -/
theorem readNumeral_of_split {text digits : List Char} {negative : Bool}
    (hsplit : splitSign (text.dropWhile isNumeralBlank) = (negative, digits)) (hne : digits ≠ [])
    (h : ∀ c ∈ digits, (digitValue? c).isSome = true) (hlength : digits.length ≤ digitLimit) :
    readNumeral text = .ok (if negative then -(decimalValue digits : Int) else decimalValue digits) := by
  obtain ⟨c, cs, rfl⟩ := List.exists_cons_of_ne_nil hne
  have hscan : scanDigits false (c :: cs) = some ((c :: cs).filterMap digitValue?, []) := by
    obtain ⟨d, hd⟩ := Option.isSome_iff_exists.mp (h c List.mem_cons_self)
    unfold scanDigits
    rw [hd, scanDigits_of_decimals (List.forall_mem_cons.mp h).2, List.filterMap_cons_some hd]
    rfl
  have hshort : ¬ digitLimit < ((c :: cs).filterMap digitValue?).length :=
    Nat.not_lt.mpr (Nat.le_trans (List.length_filterMap_le _ _) hlength)
  unfold readNumeral decimalValue
  rw [hsplit]
  simp [hscan, hshort, digitsValue_eq_ofDigits, Nat.ofDigits_append]

theorem readNumeral_of_decimals {digits : List Char} (hne : digits ≠ [])
    (hdigits : ∀ c ∈ digits, isDigitChar c = true) (h : ∀ c ∈ digits, (digitValue? c).isSome = true)
    (hlength : digits.length ≤ digitLimit) :
    readNumeral digits = .ok (decimalValue digits) :=
  readNumeral_of_split (splitSign_of_digits hdigits) hne h hlength

/-! ### The number at the beginning of a text -/

theorem sign?_cons (c : Char) (cs : List Char) :
    PerformanceM.sign? (c :: cs) = if c = '+' ∨ c = '-' then some c else none := by
  by_cases hplus : c = '+'
  · subst hplus
    rfl
  · by_cases hminus : c = '-'
    · subst hminus
      rfl
    · simp [PerformanceM.sign?, hplus, hminus]

theorem sign?_toList_mem (text : List Char) : (PerformanceM.sign? text).toList ∈ signs := by
  cases text with
  | nil => decide
  | cons c cs =>
    rw [sign?_cons]
    split
    · next hc =>
      obtain rfl | rfl := hc <;> decide
    · decide

/-- A text is its sign, its leading digits and the rest. -/
theorem split_leadingDigits (text : List Char) : ∃ rest, (∀ c ∈ rest.head?, isDigitChar c = false) ∧
    text = (PerformanceM.sign? text).toList ++ leadingDigits text ++ rest := by
  have hsplit : ∀ cs : List Char, ∃ rest, (∀ c ∈ rest.head?, isDigitChar c = false) ∧
      cs = cs.takeWhile isDigitChar ++ rest := fun cs =>
    ⟨cs.dropWhile isDigitChar,
      fun c hc => by simpa [Option.mem_def.mp hc] using List.head?_dropWhile_not isDigitChar cs,
      List.takeWhile_append_dropWhile.symm⟩
  unfold leadingDigits PerformanceM.sign?
  split
  · next cs =>
    obtain ⟨rest, hrest, hcs⟩ := hsplit cs
    exact ⟨rest, hrest, congrArg ('+' :: ·) hcs⟩
  · next cs =>
    obtain ⟨rest, hrest, hcs⟩ := hsplit cs
    exact ⟨rest, hrest, congrArg ('-' :: ·) hcs⟩
  · exact hsplit text

/-- Without leading digits a text begins with no number. -/
theorem draws_nothing {text : List Char} (h : leadingDigits text = []) : Draws .number text 0 text := by
  refine .none fun sign hsign c rest htext => ?_
  subst htext
  by_contra hc
  rw [Bool.not_eq_false] at hc
  simp only [signs, List.mem_cons, List.not_mem_nil, or_false] at hsign
  obtain rfl | rfl | rfl := hsign
  · have hplus : c ≠ '+' := ne_of_isDigitChar hc (by decide)
    have hminus : c ≠ '-' := ne_of_isDigitChar hc (by decide)
    simp [leadingDigits, PerformanceM.sign?, hplus, hminus, hc] at h
  · simp [leadingDigits, PerformanceM.sign?, hc] at h
  · simp [leadingDigits, PerformanceM.sign?, hc] at h

theorem takeWhile_append_lineFeed {cs : List Char} (h : cs.getLast? = some '\n') (rest : List Char) :
    (cs ++ rest).takeWhile isDigitChar = cs.takeWhile isDigitChar := by
  obtain ⟨before, rfl⟩ := List.getLast?_eq_some_iff.mp h
  have hlineFeed : isDigitChar '\n' = false := by decide
  simp [List.takeWhile_append, hlineFeed]

/-- No number goes on after the end of a line. -/
theorem leadingDigits_append {line : List Char} (h : line.getLast? = some '\n') (rest : List Char) :
    PerformanceM.sign? (line ++ rest) = PerformanceM.sign? line ∧
      leadingDigits (line ++ rest) = leadingDigits line := by
  cases line with
  | nil => cases h
  | cons c cs =>
    have hsign : PerformanceM.sign? (c :: cs ++ rest) = PerformanceM.sign? (c :: cs) := by
      rw [List.cons_append, sign?_cons, sign?_cons]
    refine ⟨hsign, ?_⟩
    unfold leadingDigits
    rw [hsign, sign?_cons]
    split
    · next hc =>
      have hcs : cs.getLast? = some '\n' := by
        cases cs with
        | nil => obtain rfl | rfl := hc <;> exact absurd h (by decide)
        | cons d ds => exact h
      exact takeWhile_append_lineFeed hcs rest
    · exact takeWhile_append_lineFeed h rest

/-! ### Input from lines -/

/-- The text is what is held of the present line and what is still to be read. -/
structure Performance.Faces (p : Performance) (held text : List Char) : Prop where
  desk : p.desk = .basic held
  text : held ++ p.streams.stdin = text
  /-- Where the line ends before the text does, it has its line feed. -/
  lineFeed : p.streams.stdin ≠ [] → held ≠ [] → held.getLast? = some '\n'

/-- The performance with other input. -/
def Performance.facing (p : Performance) (held stdin : List Char) : Performance :=
  { p with desk := .basic held, streams := { p.streams with stdin := stdin } }

theorem Performance.Faces.facing_self {p : Performance} {held text : List Char} (h : p.Faces held text) :
    p.facing held p.streams.stdin = p := by
  unfold facing
  rw [← h.desk]

namespace PerformanceM

theorem splitLine_append (cs : List Char) : (splitLine cs).1 ++ (splitLine cs).2 = cs := by
  fun_induction splitLine cs with
  | case1 => rfl
  | case2 cs => rfl
  | case3 c cs _ ih => exact congrArg (c :: ·) ih

theorem lineFeed_of_splitLine {cs : List Char} (h : (splitLine cs).2 ≠ []) :
    (splitLine cs).1.getLast? = some '\n' := by
  fun_induction splitLine cs with
  | case1 => exact absurd rfl h
  | case2 cs => rfl
  | case3 c cs _ ih =>
    have hlast := ih h
    rw [List.getLast?_cons, hlast]
    rfl

variable {p : Performance} {held text : List Char}

/-- The present line is a beginning of the text, with its line feed if the text goes on after it. -/
theorem presentLine_of_faces (h : p.Faces held text) :
    ∃ line stdin, presentLine held p = .ok line (p.facing line stdin) ∧
    line ++ stdin = text ∧ (stdin ≠ [] → line.getLast? = some '\n') := by
  by_cases hheld : held = []
  · subst hheld
    refine ⟨(splitLine p.streams.stdin).1, (splitLine p.streams.stdin).2, rfl, ?_, lineFeed_of_splitLine⟩
    rw [splitLine_append, ← h.text]
    rfl
  · refine ⟨held, p.streams.stdin, ?_, h.text, fun hstdin => h.lineFeed hstdin hheld⟩
    rw [h.facing_self]
    unfold presentLine
    rw [if_neg (by simpa using hheld)]
    rfl

/-- What is left of a line faces the rest of the text. -/
theorem faces_drop {line stdin : List Char} (hend : stdin ≠ [] → line.getLast? = some '\n') (k : Nat) :
    (p.facing (line.drop k) stdin).Faces (line.drop k) (line.drop k ++ stdin) := by
  refine ⟨rfl, rfl, fun hstdin hdrop => ?_⟩
  rw [List.getLast?_drop, if_neg (by simpa using hdrop)]
  exact hend hstdin

theorem lineNumber_of_line {q : Performance} {line : List Char} (h : presentLine held p = .ok line q) :
    lineNumber held p = (do
      if (leadingDigits line).isEmpty then return 0
      hold (line.drop ((leadingDigits line).length + (if (sign? line).isSome then 1 else 0)))
      let n ← ofBreakdown (readNumeral (leadingDigits line))
      return if sign? line = some '-' then -n else n : PerformanceM Int) q := bind_of_ok h

/-- A number is drawn from the text. -/
theorem draws_lineNumber (h : p.Faces held text) (hnumbers : ReadableNumbers text) :
    ∃ n held' stdin, lineNumber held p = .ok n (p.facing held' stdin) ∧ Draws .number text n (held' ++ stdin) ∧
      (p.facing held' stdin).Faces held' (held' ++ stdin) := by
  obtain ⟨line, stdin, hline, rfl, hend⟩ := presentLine_of_faces h
  have hleading : sign? (line ++ stdin) = sign? line ∧ leadingDigits (line ++ stdin) = leadingDigits line := by
    by_cases hstdin : stdin = []
    · rw [hstdin, List.append_nil]
      exact ⟨rfl, rfl⟩
    · exact leadingDigits_append (hend hstdin) stdin
  rw [lineNumber_of_line hline]
  by_cases hnone : leadingDigits line = []
  · refine ⟨0, line, stdin, ?_, draws_nothing (hleading.2.trans hnone), faces_drop hend 0⟩
    rw [hnone]
    rfl
  · have hdigits : ∀ c ∈ leadingDigits line, isDigitChar c = true :=
      fun c hc => List.all_eq_true.mp List.all_takeWhile c hc
    obtain ⟨left, -, hline⟩ := split_leadingDigits line
    obtain ⟨rest, hrest, htext⟩ := split_leadingDigits (line ++ stdin)
    rw [hleading.1, hleading.2] at htext
    have hwithin : leadingDigits line <:+: line ++ stdin := ⟨_, _, htext.symm⟩
    have hread :=
      readNumeral_of_decimals hnone hdigits (fun c hc => hnumbers.decimal c (hwithin.subset hc) (hdigits c hc))
      (hnumbers.runs _ hwithin hdigits)
    have hlength : (leadingDigits line).length + (if (sign? line).isSome then 1 else 0) =
        ((sign? line).toList ++ leadingDigits line).length := by
      cases sign? line <;> simp [Nat.add_comm]
    have hdrop : line.drop ((sign? line).toList ++ leadingDigits line).length ++ stdin = rest := by
      have hbegins : (sign? line).toList ++ leadingDigits line <+: line := ⟨left, hline.symm⟩
      rw [← List.drop_append_of_le_length hbegins.length_le, htext, List.drop_left]
    refine ⟨signedValue (sign? line).toList (leadingDigits line),
      line.drop ((sign? line).toList ++ leadingDigits line).length, stdin, ?_, ?_, faces_drop hend _⟩
    · have hsigned : (if sign? line = some '-' then -(decimalValue (leadingDigits line) : Int)
          else decimalValue (leadingDigits line)) = signedValue (sign? line).toList (leadingDigits line) := by
        unfold signedValue
        cases sign? line <;> simp
      rw [if_neg (by simpa using hnone), hlength, hread, ← hsigned]
      rfl
    · rw [hdrop, htext]
      exact .number (sign?_toList_mem line) hnone hdigits hrest

/-- A character is drawn from the text. -/
theorem draws_lineCharacter (h : p.Faces held text) :
    ∃ n held' stdin, lineCharacter held p = .ok n (p.facing held' stdin) ∧
    Draws .character text n (held' ++ stdin) ∧ (p.facing held' stdin).Faces held' (held' ++ stdin) := by
  obtain ⟨line, stdin, hline, rfl, hend⟩ := presentLine_of_faces h
  cases line with
  | nil =>
    have hstdin : stdin = [] := by
      by_contra hne
      exact absurd (hend hne) (by simp)
    subst hstdin
    exact ⟨-1, [], [], bind_of_ok hline, .ending, faces_drop hend 0⟩
  | cons c cs => exact ⟨c.toNat, cs, stdin, bind_of_ok hline, .character c (cs ++ stdin), faces_drop hend 1⟩

/-- One input draws from the text. -/
theorem draws_input (medium : Medium) (h : p.Faces held text) (hnumbers : ReadableNumbers text) :
    ∃ n held' stdin, input medium p = .ok n (p.facing held' stdin) ∧ Draws medium text n (held' ++ stdin) ∧
      (p.facing held' stdin).Faces held' (held' ++ stdin) := by
  have hget : (get : PerformanceM Performance) p = .ok p p := rfl
  unfold input
  rw [bind_of_ok hget, h.desk]
  cases medium with
  | number => exact draws_lineNumber h hnumbers
  | character => exact draws_lineCharacter h

/-- Inputs one after the other draw from the text, by induction on the inputs: what is left of the text faces the
next. -/
theorem draws_inputs (media : List Medium) : ∀ {p : Performance} {held text : List Char}, p.Faces held text →
    ReadableNumbers text →
    ∃ ns held' stdin, media.mapM input p = .ok ns (p.facing held' stdin) ∧
      DrawsAll media text ns (held' ++ stdin) := by
  induction media with
  | nil =>
    intro p held text h _
    refine ⟨[], held, p.streams.stdin, ?_, h.text ▸ .nil text⟩
    rw [h.facing_self]
    rfl
  | cons medium media ih =>
    intro p held text h hnumbers
    obtain ⟨n, held₁, stdin₁, hinput, hdraws, hfaces⟩ := draws_input medium h hnumbers
    obtain ⟨ns, held', stdin, hinputs, hall⟩ := ih hfaces (hnumbers.suffix hdraws.suffix)
    refine ⟨n :: ns, held', stdin, ?_, .cons hdraws hall⟩
    rw [List.mapM_cons, bind_of_ok hinput, bind_of_ok hinputs]
    rfl

end PerformanceM

/-- **Basic input takes the text apart.** Let `text` be the whole of standard input, with no other digits than
decimal digits, and no more of them in a row than a numeral may have. Whatever numbers and characters are asked
for, one after the other, all of them are given, and they are those that are drawn from the text; what is held
followed by what is still to be read is what then is left of it. Nothing else changes. -/
theorem input_draws_text {text : List Char} {p : Performance} (hdesk : p.desk = .basic [])
    (hstdin : p.streams.stdin = text) (hdecimal : ∀ c ∈ text, isDigitChar c = true → (digitValue? c).isSome = true)
    (hruns : ∀ run, run <:+: text → (∀ c ∈ run, isDigitChar c = true) → run.length ≤ 4300) (media : List Medium) :
    ∃ (ns : List Int) (held stdin : List Char),
      media.mapM PerformanceM.input p =
        .ok ns { p with desk := .basic held, streams := { p.streams with stdin := stdin } } ∧
      DrawsAll media text ns (held ++ stdin) ∧
      ∀ ns' rest, DrawsAll media text ns' rest → ns' = ns ∧ rest = held ++ stdin := by
  have hfaces : p.Faces [] text := ⟨hdesk, hstdin, fun _ hne => absurd rfl hne⟩
  obtain ⟨ns, held, stdin, hinputs, hall⟩ := PerformanceM.draws_inputs media hfaces ⟨hdecimal, hruns⟩
  exact ⟨ns, held, stdin, hinputs, hall, fun ns' rest h => hall.unique h⟩

/-- A performance of nothing, with the given input. -/
def blankPage (stdin : List Char) : Performance :=
  ⟨⟨[], [], []⟩, Stage.ofCast [], 0, .basic [], .basic, ⟨stdin, none, "", ""⟩, []⟩

/-- A text with a sign that no digit follows, and with digits of two scripts. -/
def mixedText : List Char := "+12-\n-٣x".toList

def mixedMedia : List Medium := [.number, .number, .character, .character, .number, .number, .character]

theorem input_draws_text_mixed :
    ∃ held stdin, DrawsAll mixedMedia mixedText [12, 0, 45, 10, -3, 0, 120] (held ++ stdin) := by
  have hlength : mixedText.length ≤ 4300 := by decide +kernel
  have hall : (mixedText.all fun c => !isDigitChar c || (digitValue? c).isSome) = true := by decide +kernel
  have hdecimal : ∀ c ∈ mixedText, isDigitChar c = true → (digitValue? c).isSome = true := by
    intro c hc hdigit
    have hvalue := List.all_eq_true.mp hall c hc
    rw [hdigit] at hvalue
    exact hvalue
  have hns : outcomeOf (mixedMedia.mapM PerformanceM.input) (blankPage mixedText) =
      .ok [12, 0, 45, 10, -3, 0, 120] := by
    decide +kernel
  obtain ⟨ns, held, stdin, hinputs, hdraws, -⟩ := input_draws_text (p := blankPage mixedText) rfl rfl hdecimal
    (fun run hrun _ => Nat.le_trans hrun.length_le hlength) mixedMedia
  cases (outcomeOf_of_ok hinputs).symm.trans hns
  exact ⟨held, stdin, hdraws⟩

end Playhouse
