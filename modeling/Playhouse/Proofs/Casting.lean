import Playhouse.Proofs.Lockstep
import Playhouse.Proofs.Naming
import Playhouse.Proofs.Sentences

/-!
# Playhouse.Proofs.Casting — the console opened with any cast

The play that the console is opened with is a template, with the names of the cast written into it twice: as the
dramatis personae and as a list for the entrance, which has a comma before each name and *and* before the last.
Both are read back as the names they were made of. So the performance opens with this cast, and after its one
operation all of it is on stage. Main statement: `console_opens_with_cast`.
-/

namespace Playhouse

open Grammar Lexicon Phrase Text

/-! ### Replacing and splitting -/

namespace Text

section Replacing

variable {a : Char} {old new : List Char}

/-- Nothing is replaced where the first character of the pattern does not occur. -/
theorem replaceAll_append (more : List Char) : ∀ {cs : List Char}, a ∉ cs →
    replaceAll (a :: old) new (cs ++ more) = cs ++ replaceAll (a :: old) new more := by
  intro cs h
  induction cs with
  | nil => rfl
  | cons c cs ih =>
    rw [List.mem_cons, not_or] at h
    obtain ⟨hne, hcs⟩ := h
    show replaceFrom (a :: old) new 0 (c :: (cs ++ more)) = c :: (cs ++ replaceAll (a :: old) new more)
    rw [replaceFrom, List.isPrefixOf_cons_cons, beq_false_of_ne hne, Bool.false_and, if_neg (by decide), ← ih hcs]
    rfl

theorem replaceFrom_drop (new : List Char) (skipped more : List Char) :
    replaceFrom old new skipped.length (skipped ++ more) = replaceFrom old new 0 more := by
  induction skipped with
  | nil => rfl
  | cons c cs ih => exact ih

theorem replaceAll_here (more : List Char) :
    replaceAll (a :: old) new (a :: old ++ more) = new ++ replaceAll (a :: old) new more := by
  have hhere : (a :: old).isPrefixOf (a :: (old ++ more)) = true := by simp
  show replaceFrom (a :: old) new 0 (a :: (old ++ more)) = _
  rw [replaceFrom, if_pos hhere]
  exact congrArg (new ++ ·) (replaceFrom_drop new old more)

end Replacing

section Splitting

variable {a : Char} {sep : List Char}

theorem splitAtLast?_eq_none {cs : List Char} (h : a ∉ cs) : splitAtLast? (a :: sep) cs = none := by
  induction cs with
  | nil => rfl
  | cons c cs ih =>
    rw [List.mem_cons, not_or] at h
    obtain ⟨hne, hcs⟩ := h
    simp [splitAtLast?, ih hcs, hne]

/-- What comes after the separator has none of its first character. -/
theorem splitAtLast?_append {after : List Char} (hsep : a ∉ sep) (hafter : a ∉ after) (before : List Char) :
    splitAtLast? (a :: sep) (before ++ (a :: sep ++ after)) = some (before, after) := by
  induction before with
  | nil =>
    have hnone : splitAtLast? (a :: sep) (sep ++ after) = none := splitAtLast?_eq_none (by simp [hsep, hafter])
    simp [splitAtLast?, hnone]
  | cons c cs ih => simp only [List.cons_append] at ih ⊢; simp [splitAtLast?, ih]

theorem joinWith_concat (sep last : List Char) {texts : List (List Char)} (hne : texts ≠ []) :
    joinWith sep (texts ++ [last]) = joinWith sep texts ++ (sep ++ last) := by
  induction texts with
  | nil => exact absurd rfl hne
  | cons s texts ih =>
    cases texts with
    | nil => simp [joinWith]
    | cons t texts =>
      have ih := ih (List.cons_ne_nil t texts)
      simp only [List.cons_append] at ih ⊢
      simp [joinWith, ih]

theorem mem_joinWith {c : Char} {texts : List (List Char)} (h : c ∈ joinWith sep texts) :
    c ∈ sep ∨ ∃ text ∈ texts, c ∈ text := by
  induction texts with
  | nil => cases h
  | cons s texts ih =>
    cases texts with
    | nil => exact .inr ⟨s, List.mem_cons_self, h⟩
    | cons t texts =>
      rw [joinWith, List.mem_append, List.mem_append] at h
      rcases h with (h | h) | h
      · exact .inr ⟨s, List.mem_cons_self, h⟩
      · exact .inl h
      · rcases ih h with h | ⟨text, htext, h⟩
        · exact .inl h
        · exact .inr ⟨text, List.mem_cons_of_mem s htext, h⟩

end Splitting

end Text

/-! ### Names -/

section Names

variable {name : List String} {more : List Char}

/-- What is looked up once, for all names: there are only letters in them, they are in their canonical form, and
none begins like what comes after the dramatis personae or like an entrance. -/
theorem names_checked : (characters.all fun name => (name.all fun w => w.toList.all Char.isAlpha) &&
    Name.normalizeChars (joined name []) == joined name [] &&
    refusesWords name ["Act"] && refusesWords name ["[Enter"]) = true := by decide +kernel

theorem name_facts (h : name ∈ characters) : (∀ w ∈ name, ∀ c ∈ w.toList, c.isAlpha = true) ∧
    Name.normalizeChars (joined name []) = joined name [] ∧
    refusesWords name ["Act"] = true ∧ refusesWords name ["[Enter"] = true := by
  have hall := List.all_eq_true.mp names_checked name h
  simp only [Bool.and_eq_true, List.all_eq_true, beq_iff_eq] at hall
  exact ⟨hall.1.1.1, hall.1.1.2, hall.1.2, hall.2⟩

theorem letter_of_name (h : name ∈ characters) {w : String} (hw : w ∈ name) {c : Char} (hc : c ∈ w.toList) :
    c.toNat < 128 ∧ isAlphanumeric c = true := by
  have hascii := (ascii_of_proper ((proper_of_entries (r := .character) h).2 w hw) hc).1
  have hletter := of_ascii (f := fun c => !c.isAlpha || isAlphanumeric c) (by decide +kernel) hascii
  rw [(name_facts h).1 w hw c hc] at hletter
  exact ⟨hascii, hletter⟩

/-- Names of the language are in their canonical form. -/
theorem normalizeWords_name (h : name ∈ characters) : Name.normalizeWords name = " ".intercalate name := by
  have htyped : (" ".intercalate name).toList = joined name [] := by
    rw [← typedName_append, List.append_nil]
    rfl
  unfold Name.normalizeWords Name.normalize
  rw [htyped, (name_facts h).2.1, ← htyped, String.ofList_toList]

theorem mem_joined {ws : List String} {c : Char} (h : c ∈ joined ws more) :
    c = ' ' ∨ (∃ w ∈ ws, c ∈ w.toList) ∨ c ∈ more := by
  induction ws with
  | nil => exact .inr (.inr h)
  | cons w ws ih =>
    cases ws with
    | nil =>
      obtain h | h := List.mem_append.mp h
      · exact .inr (.inl ⟨w, List.mem_cons_self, h⟩)
      · exact .inr (.inr h)
    | cons v ws =>
      rw [joined, List.mem_append, List.mem_cons] at h
      rcases h with h | h | h
      · exact .inr (.inl ⟨w, List.mem_cons_self, h⟩)
      · exact .inl h
      · rcases ih h with h | ⟨u, hu, h⟩ | h
        · exact .inl h
        · exact .inr (.inl ⟨u, List.mem_cons_of_mem w hu, h⟩)
        · exact .inr (.inr h)

/-- There are only letters and blanks in a name. -/
theorem not_mem_typedName (h : name ∈ characters) {c : Char} (hc : isAlphanumeric c = false) (hblank : c ≠ ' ') :
    c ∉ typedName name := by
  intro hmem
  rw [← List.append_nil (typedName name), typedName_append] at hmem
  rcases mem_joined hmem with rfl | ⟨w, hw, hcw⟩ | hnil
  · exact hblank rfl
  · rw [(letter_of_name h hw hcw).2] at hc
    cases hc
  · cases hnil

/-- A name can end here. -/
def Ended (more : List Char) : Prop := ∀ c ∈ more.head?, c.toNat < 128 ∧ isAlphanumeric c = false

theorem closesEach_of_ended (h : name ∈ characters) (hm : Ended more) : ClosesEach name more := by
  intro w hw c hc
  obtain ⟨hascii, hsign⟩ := hm c hc
  refine ⟨hsign, fun a ha => ?_⟩
  obtain ⟨hascii', hletter⟩ := letter_of_name h hw ha
  rw [Bool.eq_false_iff, Ne, sameLetter_ascii hascii' hascii]
  intro hlower
  rw [← isAlphanum_toLower hascii', hlower, isAlphanum_toLower hascii, hsign] at hletter
  cases hletter

theorem reads_name (h : name ∈ characters) (hm : Ended more) :
    Rule.character.Reads 1 (joined name more) (more.dropWhile isBlank) (· = entryTree name) :=
  reads_entries_joined h fun _ hb _ => closesEach_of_ended hb hm

theorem refuses_names {N : Nat} {text : List Char} (h : ∀ name ∈ characters, (words name).Refuses (N - 1) text) :
    (call .character).Refuses N text := by
  refine leadsTo_call rfl (leadsTo_oneOf fun p hp => ?_)
  obtain ⟨name, hname, rfl⟩ := List.mem_map.mp hp
  exact h name hname

theorem refuses_names_nil {N : Nat} : (call .character).Refuses N [] := by
  refine refuses_names fun name hname => ?_
  obtain ⟨hne, hproper⟩ := proper_of_entries (r := .character) hname
  match name, hne with
  | [w], _ => exact refuses_token_nil (hproper w List.mem_cons_self)
  | w :: v :: ws, _ => exact refuses_seq (refuses_token_nil (hproper w List.mem_cons_self))

/-- No name is read where an act or an entrance begins. -/
theorem refuses_names_at {N : Nat} {w : String} (hw : w = "Act" ∨ w = "[Enter") (tail : List Char) :
    (call .character).Refuses N (spelled [w] tail) := by
  have hproper : AreProper [w] := by
    intro v hv
    obtain rfl := List.mem_singleton.mp hv
    obtain rfl | rfl := hw <;> decide
  refine refuses_names fun name hname => refuses_words ?_ (proper_of_entries (r := .character) hname).2 hproper
  obtain rfl | rfl := hw
  · exact (name_facts hname).2.2.1
  · exact (name_facts hname).2.2.2

end Names

/-! ### The text of the play -/

section PlayText

variable {names : List (List String)}

/-- The title, and the blanks around it. -/
def titleLines : List Char := "\nA REPL-tastic Adventure.\n\n".toList

/-- The dramatis personae, and what comes after them. -/
def declared : List (List String) → List Char → List Char
  | [], tail => tail
  | name :: names, tail => joined name (", a player.\n".toList ++ declared names tail)

/-- What comes between the dramatis personae and the list of those who enter. -/
def headings : List Char :=
  "\n                    Act I: All the World.\n                    Scene I: A Stage.\n\n[Enter ".toList

/-- What comes after the dramatis personae. -/
def stageLines (names : List (List String)) : List Char :=
  headings ++ (Console.entranceList (names.map typedName) ++ "]\n".toList)

theorem joinWith_declared (hne : names ≠ []) (tail : List Char) :
    joinWith ['\n'] ((names.map typedName).map (· ++ ", a player.".toList)) ++ '\n' :: tail =
      declared names tail := by
  induction names with
  | nil => exact absurd rfl hne
  | cons name names ih =>
    cases names with
    | nil =>
      rw [declared, ← typedName_append]
      simp [joinWith, declared]
    | cons name' names =>
      have ih := ih (List.cons_ne_nil name' names)
      rw [declared, ← typedName_append, ← ih]
      simp [joinWith]

theorem not_mem_personae (hnames : ∀ name ∈ names, name ∈ characters) :
    '<' ∉ joinWith ['\n'] ((names.map typedName).map (· ++ ", a player.".toList)) := by
  intro hmem
  rcases mem_joinWith hmem with hmem | ⟨text, htext, hmem⟩
  · revert hmem
    decide
  · simp only [List.map_map, List.mem_map, Function.comp_apply] at htext
    obtain ⟨name, hname, rfl⟩ := htext
    rcases List.mem_append.mp hmem with hmem | hmem
    · exact not_mem_typedName (hnames name hname) (by decide) (by decide) hmem
    · revert hmem
      decide

/-- The template has its two gaps filled, and nothing in what is filled in is taken for a gap. -/
theorem playFor_eq (hne : names ≠ []) (hnames : ∀ name ∈ names, name ∈ characters) :
    Console.playFor (names.map typedName) = titleLines ++ declared names (stageLines names) := by
  have htemplate : Console.template.toList = titleLines ++ ('<' :: "dramatis personae>".toList ++
      ('\n' :: headings ++ ('<' :: "entrance list>".toList ++ "]\n".toList))) := by decide +kernel
  have htitle : '<' ∉ titleLines := by decide
  have hheadings : '<' ∉ '\n' :: headings := by decide +kernel
  have hgap : ∀ new, replaceAll ('<' :: "dramatis personae>".toList) new
      ('<' :: "entrance list>".toList ++ "]\n".toList) =
      '<' :: "entrance list>".toList ++ "]\n".toList := fun _ => rfl
  have hend : ∀ new, replaceAll ('<' :: "entrance list>".toList) new "]\n".toList = "]\n".toList := fun _ => rfl
  unfold Console.playFor
  dsimp only
  rw [show "<dramatis personae>".toList = '<' :: "dramatis personae>".toList from rfl, htemplate,
    show "<entrance list>".toList = '<' :: "entrance list>".toList from rfl, replaceAll_append _ htitle,
      replaceAll_here,
    replaceAll_append _ hheadings, hgap, replaceAll_append _ htitle, replaceAll_append _ (not_mem_personae hnames),
    replaceAll_append _ hheadings, replaceAll_here, hend, ← joinWith_declared hne]
  rfl

/-- Names with a comma before each, and what comes after them. -/
def commas : List (List String) → List Char → List Char
  | [], tail => tail
  | name :: names, tail => ", ".toList ++ joined name (commas names tail)

theorem joinWith_commas (first : List String) (tail : List Char) :
    joinWith [',', ' '] ((first :: names).map typedName) ++ tail = joined first (commas names tail) := by
  induction names generalizing first with
  | nil => exact typedName_append first tail
  | cons name names ih =>
    rw [commas, ← ih name, ← typedName_append]
    simp [joinWith]

/-- The last comma gives way to *and*. -/
theorem entranceList_concat (first : List String) {last : List String} (h : last ∈ characters) :
    Console.entranceList ((first :: (names ++ [last])).map typedName) =
      joinWith [',', ' '] ((first :: names).map typedName) ++ (" and ".toList ++ typedName last) := by
  have hcomma : ',' ∉ typedName last := not_mem_typedName h (by decide) (by decide)
  have hjoin : joinWith [',', ' '] ((first :: (names ++ [last])).map typedName) =
      joinWith [',', ' '] ((first :: names).map typedName) ++ ([',', ' '] ++ typedName last) := by
    rw [← joinWith_concat _ _ (by simp)]
    simp
  unfold Console.entranceList
  dsimp only
  rw [hjoin, splitAtLast?_append (by decide) hcomma]
  exact List.append_assoc ..

/-- The list for the entrance is one name, or names with commas and *and* between them. -/
theorem entranceList_cases (hne : names ≠ []) (hnames : ∀ name ∈ names, name ∈ characters) (tail : List Char) :
    (∃ name ∈ characters, names = [name] ∧ Console.entranceList (names.map typedName) ++ tail = joined name tail) ∨
      ∃ first ∈ characters, ∃ others, (∀ name ∈ others, name ∈ characters) ∧ ∃ last ∈ characters,
        names = first :: (others ++ [last]) ∧ Console.entranceList (names.map typedName) ++ tail =
          joined first (commas others (" and ".toList ++ joined last tail)) := by
  obtain ⟨first, names, rfl⟩ := List.exists_cons_of_ne_nil hne
  have hfirst := hnames first List.mem_cons_self
  rcases List.eq_nil_or_concat names with rfl | ⟨others, last, rfl⟩
  · have hnone : splitAtLast? [',', ' '] (typedName first) = none :=
      splitAtLast?_eq_none (not_mem_typedName hfirst (by decide) (by decide))
    refine .inl ⟨first, hfirst, rfl, ?_⟩
    rw [← typedName_append]
    simp [Console.entranceList, joinWith, hnone]
  · rw [List.concat_eq_append] at hnames ⊢
    have hlast : last ∈ characters := hnames last (by simp)
    refine .inr ⟨first, hfirst, others, fun name hname => hnames name (by simp [hname]), last, hlast, rfl, ?_⟩
    rw [entranceList_concat first hlast, ← joinWith_commas, ← typedName_append]
    simp only [List.append_assoc]

end PlayText

/-! ### Reading the names back -/

namespace Grammar

section Reading

variable {N : Nat} {name first last : List String} {names : List (List String)} {tail rest : List Char}

/-- What is ahead is neither a comma nor another name. -/
structure EndsList (rest : List Char) : Prop where
  comma : ∀ N, (word ",").Refuses N rest
  and : ∀ N, (word "and").Refuses N rest

theorem reads_gathered_name (h : name ∈ characters) (hm : Ended tail) :
    (gather (call .character)).Reads 1 (joined name tail) (tail.dropWhile isBlank)
      (· = ⟨[entryTree name], [], [entryTree name]⟩) := by
  refine (reads_gather (reads_name h hm)).imp ?_
  rintro y ⟨_, ⟨_, rfl, rfl⟩, rfl⟩
  rfl

theorem ended_commas (hm : Ended tail) : ∀ names, Ended (commas names tail)
  | [] => hm
  | _ :: _ => by
    rintro c ⟨⟩
    decide

theorem flush_name (h : name ∈ characters) (more : List Char) : Flush (joined name more) := by
  obtain ⟨hne, hproper⟩ := proper_of_entries (r := .character) h
  exact flush_joined hne hproper more

theorem length_le_joined (ws : List String) (more : List Char) : more.length ≤ (joined ws more).length := by
  induction ws with
  | nil => exact Nat.le_refl _
  | cons w ws ih =>
    cases ws <;> simp only [joined, List.length_append, List.length_cons] <;> omega

theorem length_dropWhile_le (text : List Char) : (text.dropWhile isBlank).length ≤ text.length :=
  (List.dropWhile_sublist _).length_le

theorem reads_commas (hnames : ∀ name ∈ names, name ∈ characters) (hm : Ended tail)
    (hend : (word ",").Refuses 1 (tail.dropWhile isBlank)) :
    (many (seq (word ",") (gather (call .character)))).Reads 1 ((commas names tail).dropWhile isBlank)
      (tail.dropWhile isBlank) fun y => y.gathered = names.map entryTree := by
  have hitems : (seq (word ",") (gather (call .character))).ReadsItems 1
      (fun names => (commas names tail).dropWhile isBlank)
      (fun names ys => ys.flatMap Yield.gathered = names.map entryTree) names := by
    intro name rem hrem
    have hname := hnames name (hrem.mem List.mem_cons_self)
    have hcomma := reads_sign (N := 1) (w := ",") (by decide) (' ' :: joined name (commas rem tail))
    rw [dropWhile_blank (flush_name hname _)] at hcomma
    have hshorter := length_le_joined name (commas rem tail)
    have hdropped := length_dropWhile_le (commas rem tail)
    refine ⟨?_, (reads_seq hcomma (reads_gathered_name hname (ended_commas hm rem))).imp ?_⟩
    · show _ < (',' :: ' ' :: joined name (commas rem tail)).length
      simp only [List.length_cons]
      omega
    · rintro y ⟨_, _, rfl, rfl, rfl⟩ ys hys
      rw [List.flatMap_cons, hys]
      rfl
  refine (reads_many_items hitems (refuses_seq hend) rfl).imp ?_
  rintro y ⟨ys, hys, rfl⟩
  exact hys

theorem ruleTree_of_gathered {r : Rule} {y : Yield} (hr : r.fields = []) (hne : y.gathered ≠ []) (span : Span) :
    y.ruleTree r span = .list y.gathered := by
  unfold Yield.ruleTree
  rw [hr]
  exact if_neg (by simpa using hne)

theorem reads_characterList_one (h : name ∈ characters) (hm : Ended tail)
    (hend : EndsList (tail.dropWhile isBlank)) :
    Rule.characterList.Reads 2 (joined name tail) (tail.dropWhile isBlank) (· = .list [entryTree name]) := by
  have hname := reads_gathered_name h hm
  have hnobody : ∀ name ∈ ([] : List (List String)), name ∈ characters :=
    fun _ hname => absurd hname List.not_mem_nil
  have hnone : (many (seq (word ",") (gather (call .character)))).Reads 1 (tail.dropWhile isBlank)
      (tail.dropWhile isBlank) fun y => y.gathered = [] := reads_commas hnobody hm (hend.comma 1)
  have hlonger : (sequence [gather (call .character), many (seq (word ",") (gather (call .character))), word "and",
      gather (call .character)]).Refuses 1 (joined name tail) :=
    refuses_seq_right hname (refuses_seq_right hnone (refuses_seq (hend.and 1)))
  refine (reads_call (r := .characterList) rfl (reads_secondOption hlonger hname)).imp ?_
  rintro y ⟨_, span, rfl, rfl⟩
  exact ⟨_, rfl, rfl⟩

theorem reads_characterList_many (hfirst : first ∈ characters) (hnames : ∀ name ∈ names, name ∈ characters)
    (hlast : last ∈ characters) (hm : Ended tail) :
    Rule.characterList.Reads 2 (joined first (commas names (" and ".toList ++ joined last tail)))
      (tail.dropWhile isBlank) (· = .list ((first :: (names ++ [last])).map entryTree)) := by
  have hand : Ended (" and ".toList ++ joined last tail) := by
    rintro c ⟨⟩
    decide
  have hflush := flush_name hlast tail
  have hcomma : (word ",").Refuses 1 ((" and ".toList ++ joined last tail).dropWhile isBlank) :=
    refuses_initial (a := ',') (b := 'a') (by decide)
  have hword : (word "and").Reads 1 ((" and ".toList ++ joined last tail).dropWhile isBlank) (joined last tail)
      (· = .one (.word "and")) := reads_word (w := "and") (by decide) hflush
  have hread :=
    reads_seq (reads_gathered_name hfirst (ended_commas hand names)) (reads_seq (reads_commas hnames hand hcomma)
    (reads_seq hword (reads_gathered_name hlast hm)))
  refine (reads_call (r := .characterList) rfl (reads_firstOption hread)).imp ?_
  rintro y ⟨_, span, ⟨_, z, rfl, ⟨u, _, hu, ⟨_, _, rfl, rfl, rfl⟩, rfl⟩, rfl⟩, rfl⟩
  refine ⟨_, ?_, rfl⟩
  rw [ruleTree_of_gathered rfl (by simp [Yield.append])]
  simp [Yield.append, Yield.one, hu]

/-- The list of those who enter is read as the names it was made of. -/
theorem reads_entranceList (hne : names ≠ []) (hnames : ∀ name ∈ names, name ∈ characters) (hm : Ended tail)
    (hend : EndsList (tail.dropWhile isBlank)) :
    Rule.characterList.Reads 2 (Console.entranceList (names.map typedName) ++ tail) (tail.dropWhile isBlank)
      (· = .list (names.map entryTree)) := by
  rcases entranceList_cases hne hnames tail with ⟨name, hname, rfl, htext⟩ |
    ⟨first, hfirst, others, hothers, last, hlast, rfl, htext⟩
  · rw [htext]
    exact reads_characterList_one hname hm hend
  · rw [htext]
    exact reads_characterList_many hfirst hothers hlast hm

theorem flush_entranceList (hne : names ≠ []) (hnames : ∀ name ∈ names, name ∈ characters) (tail : List Char) :
    Flush (Console.entranceList (names.map typedName) ++ tail) := by
  rcases entranceList_cases hne hnames tail with ⟨name, hname, -, htext⟩ | ⟨first, hfirst, _, -, _, -, -, htext⟩
  · rw [htext]
    exact flush_name hname tail
  · rw [htext]
    exact flush_name hfirst _

theorem namesOfTree?_entries (hnames : ∀ name ∈ names, name ∈ characters) :
    namesOfTree? (.list (names.map entryTree)) = some names := by
  show (names.map entryTree).mapM Tree.words? = some names
  induction names with
  | nil => rfl
  | cons name names ih =>
    have hname := words?_entryTree (proper_of_entries (r := .character) (hnames name List.mem_cons_self)).1
    rw [List.map_cons, List.mapM_cons, hname, ih fun n hn => hnames n (List.mem_cons_of_mem name hn)]
    rfl

/-! ### Reading the play back -/

/-- The text of the entrance. -/
def entranceLine (names : List (List String)) : List Char :=
  "[Enter ".toList ++ (Console.entranceList (names.map typedName) ++ "]\n".toList)

theorem reads_bracket (names : List (List String)) : (word "[").Reads N (entranceLine names)
    (spelled ["Enter"] (Console.entranceList (names.map typedName) ++ "]\n".toList)) (· = .one (.word "[")) := by
  have hopen := reads_sign (N := N) (w := "[") (by decide) (spelled ["Enter"]
    (Console.entranceList (names.map typedName) ++ "]\n".toList))
  rwa [show Flush _ from flush_spelled (by decide) [] _] at hopen

theorem reads_entrance (hne : names ≠ []) (hnames : ∀ name ∈ names, name ∈ characters) :
    Rule.entrance.Reads 3 (entranceLine names) [] fun t =>
      ∃ span, Event.ofTree? t = some (.entrance span names) := by
  have hflush := flush_entranceList hne hnames "]\n".toList
  have henter := reads_word (N := 2) (w := "Enter") (by decide) hflush
  have hended : Ended "]\n".toList := by
    rintro c ⟨⟩
    decide
  have hlist : EndsList ("]\n".toList.dropWhile isBlank) :=
    ⟨fun _ => refuses_initial (a := ',') (b := ']') (by decide),
      fun _ => refuses_initial (a := 'a') (b := ']') (by decide)⟩
  have hclose := reads_sign (N := 2) (w := "]") (by decide) ['\n']
  have hread := reads_seq (reads_bracket names) (reads_seq henter (reads_seq
    (reads_label (f := .characters) (reads_entranceList hne hnames hended hlist)) hclose))
  refine (reads_call (r := .entrance) rfl hread).imp ?_
  rintro y ⟨_, span, ⟨_, _, rfl, ⟨_, _, rfl, ⟨_, _, ⟨_, ⟨_, rfl, rfl⟩, rfl⟩, rfl, rfl⟩, rfl⟩, rfl⟩, rfl⟩
  refine ⟨_, ⟨span, ?_⟩, rfl⟩
  show (do return Event.entrance span (← namesOfTree? (.list (names.map entryTree)))) = _
  rw [namesOfTree?_entries hnames]
  rfl

theorem reads_event (hne : names ≠ []) (hnames : ∀ name ∈ names, name ∈ characters) :
    Rule.event.Reads 4 (entranceLine names) [] fun t => ∃ span, Event.ofTree? t = some (.entrance span names) := by
  refine reads_of_choice rfl rfl [.line, .breakpoint] [.exit, .exeunt] rfl ?_ (reads_entrance hne hnames)
  intro r hr
  rcases List.mem_cons.mp hr with rfl | hr
  · exact leadsTo_call rfl (refuses_seq (leadsTo_label (refuses_names_at (.inr rfl) _)))
  · obtain rfl := List.mem_singleton.mp hr
    refine leadsTo_call rfl (leadsTo_label (refuses_seq_right (reads_bracket names) (refuses_seq ?_)))
    exact refuses_initial (a := 'A') (b := 'E') (by decide)

theorem refuses_event_nil : (call .event).Refuses N [] := by
  have hbracket : ∀ {N}, (word "[").Refuses N [] := refuses_token_nil (by decide)
  refine leadsTo_of_choice rfl fun r hr => ?_
  simp only [List.mem_cons, List.not_mem_nil, or_false] at hr
  rcases hr with rfl | rfl | rfl | rfl | rfl
  · exact leadsTo_call rfl (refuses_seq (leadsTo_label refuses_names_nil))
  · exact leadsTo_call rfl (leadsTo_label (refuses_seq hbracket))
  · exact leadsTo_call rfl (refuses_seq hbracket)
  · exact leadsTo_call rfl (refuses_seq hbracket)
  · exact leadsTo_call rfl (refuses_seq hbracket)

theorem isNumeral_one : IsNumeral ['I'] := by
  have hnone : ∀ l limit, Repeats l limit [] :=
    fun l limit => ⟨Nat.zero_le limit, fun _ hc => absurd hc List.not_mem_nil⟩
  have hone : Repeats 'I' 3 ['I'] := ⟨by decide, fun c hc => by rw [List.mem_singleton.mp hc]; decide⟩
  exact ⟨[], [], [], ['I'], hnone 'M' 4, .sum (hnone 'D' 1) (hnone 'C' 3), .sum (hnone 'L' 1) (hnone 'X' 3),
    .sum (hnone 'V' 1) hone, rfl⟩

theorem lacks_colon {l : Char} (hl : l ∈ numeralLetters) (rest : List Char) : Lacks l (':' :: rest) := by
  have hcolon : (numeralLetters.all fun l => !isNumeralLetter l ':') = true := by decide
  rintro _ ⟨⟩
  simpa using List.all_eq_true.mp hcolon l hl

/-- A part that is the first of its kind and has one part in it. -/
theorem reads_part (heading : String) (f : Field) {r : Rule} (title more : List Char) {P : Tree → Prop}
    (hheading : isProper heading.toList = true) (htitle : Flush title) (hfree : ∀ c ∈ title, c ≠ '!' ∧ c ≠ '.')
    (hparts : r.Reads (N + 1) (more.dropWhile isBlank) [] P) (hmore : 0 < (more.dropWhile isBlank).length)
    (hend : (call r).Refuses (N + 1) []) :
    (part heading f r).Reads (N + 1)
      (spelled [heading] ("I:".toList ++ ' ' :: (title ++ (".".toList ++ more)))) [] fun y =>
      ∃ span t, P t ∧ y.fields = [(.number, .node .romanNumeral span [(.value, .word "I")]),
        (.name, .word (String.ofList title)), (f, .list [t])] := by
  have hflush : Flush ("I:".toList ++ ' ' :: (title ++ (".".toList ++ more))) := flush_of_proper (by decide) _
  have hname : Flush (title ++ (".".toList ++ more)) := htitle.append (flush_of_proper (by decide) more)
  have hnumeral := reads_romanNumeral hflush
  rw [show numeralLength ("I:".toList ++ ' ' :: (title ++ (".".toList ++ more))) = 1 from
    numeralLength_append isNumeral_one fun l hl => lacks_colon hl _] at hnumeral
  have hcolon := reads_sign (N := N + 1) (w := ":") (by decide) (' ' :: (title ++ (".".toList ++ more)))
  rw [dropWhile_blank hname] at hcolon
  have hstop : "." ∈ stops := by decide
  have htext := (reads_textBeforePunctuation htitle hfree hstop more).mono (Nat.le_add_left 1 N)
  have hread := reads_seq (reads_word hheading hflush) (reads_seq reads_blanks (reads_seq
    (reads_label (f := .number) (hnumeral.mono (Nat.le_add_left 1 N))) (reads_seq hcolon (reads_seq
      (reads_label (f := .name) htext) (reads_seq (reads_stop_before hstop more)
        (reads_label (f := f) (reads_many_once hparts hmore hend)))))))
  refine Phrase.Reads.imp hread ?_
  rintro y ⟨_, _, rfl, ⟨_, _, ⟨_, rfl⟩, ⟨_, _, ⟨_, ⟨_, ⟨span, rfl⟩, rfl⟩, rfl⟩, ⟨_, _, rfl,
    ⟨_, _, ⟨_, ⟨_, rfl, rfl⟩, rfl⟩, ⟨_, _, rfl, ⟨_, ⟨_, ⟨t, ht, rfl⟩, rfl⟩, rfl⟩, rfl⟩, rfl⟩, rfl⟩, rfl⟩, rfl⟩,
    rfl⟩
  exact ⟨span, t, ht, rfl⟩

theorem flush_title {title : List Char} (h : isProper (title.take 1) = true) : Flush title := by
  rw [← List.take_append_drop 1 title]
  exact flush_of_proper h _

theorem free_of_stops {title : List Char} (h : (title.all fun c => c != '!' && c != '.') = true) :
    ∀ c ∈ title, c ≠ '!' ∧ c ≠ '.' := by
  simpa using h

/-- The tree is that of a scene in which nothing happens but the entrance. -/
def SetsScene (names : List (List String)) (t : Tree) : Prop :=
  ∃ s span, Scene.ofTree? t = some s ∧ s.events = [.entrance span names]

theorem reads_scene (hne : names ≠ []) (hnames : ∀ name ∈ names, name ∈ characters) :
    Rule.scene.Reads 5 (spelled ["Scene"] ("I:".toList ++ ' ' :: ("A Stage".toList ++ (".".toList ++
      ("\n\n".toList ++ entranceLine names))))) [] (SetsScene names) := by
  have hread := reads_part (N := 3) "Scene" .events "A Stage".toList ("\n\n".toList ++ entranceLine names)
    (by decide) (flush_title (by decide)) (free_of_stops (by decide)) (reads_event hne hnames) (Nat.succ_pos _)
    refuses_event_nil
  refine (reads_call (r := .scene) rfl hread).imp ?_
  rintro y ⟨u, span, ⟨place, t, ⟨place', ht⟩, hu⟩, rfl⟩
  refine ⟨_, ⟨⟨⟨place, "I"⟩, "A Stage", [.entrance place' names]⟩, place', ?_, rfl⟩, rfl⟩
  rw [ruleTree_of_fields rfl, hu]
  show (do
    let events ← [t].mapM Event.ofTree?
    return Scene.mk ⟨place, "I"⟩ (String.ofList "A Stage".toList) events) = _
  rw [List.mapM_cons, ht]
  rfl

/-- The tree is that of an act of one such scene. -/
def SetsAct (names : List (List String)) (t : Tree) : Prop :=
  ∃ a s span, Act.ofTree? t = some a ∧ a.scenes = [s] ∧ s.events = [.entrance span names]

theorem reads_act (hne : names ≠ []) (hnames : ∀ name ∈ names, name ∈ characters) :
    Rule.act.Reads 6 ((stageLines names).dropWhile isBlank) [] (SetsAct names) := by
  have hend : (call .scene).Refuses 5 [] := leadsTo_call rfl (refuses_seq (refuses_token_nil (by decide)))
  have hread := reads_part (N := 4) "Act" .scenes "All the World".toList
    ("\n                    ".toList ++ spelled ["Scene"]
      ("I:".toList ++ ' ' :: ("A Stage".toList ++ (".".toList ++ ("\n\n".toList ++ entranceLine names)))))
    (by decide) (flush_title (by decide)) (free_of_stops (by decide)) (reads_scene hne hnames) (Nat.succ_pos _)
    hend
  refine (reads_call (r := .act) rfl hread).imp ?_
  rintro y ⟨u, span, ⟨place, t, ⟨s, place', hs, hevents⟩, hu⟩, rfl⟩
  refine ⟨_, ⟨⟨⟨place, "I"⟩, "All the World", [s]⟩, s, place', ?_, rfl, hevents⟩, rfl⟩
  rw [ruleTree_of_fields rfl, hu]
  show (do
    let scenes ← [t].mapM Scene.ofTree?
    return Act.mk ⟨place, "I"⟩ (String.ofList "All the World".toList) scenes) = _
  rw [List.mapM_cons, hs]
  rfl

theorem reads_persona (h : name ∈ characters) (more : List Char) :
    Rule.dramatisPersona.Reads 2 (joined name (", a player.\n".toList ++ more)) (more.dropWhile isBlank) fun t =>
      ∃ span, Persona.ofTree? t = some ⟨span, name⟩ := by
  have hended : Ended (", a player.\n".toList ++ more) := by
    rintro c ⟨⟩
    decide
  have hname := reads_label (f := .character) (reads_name h hended)
  have hcomma := reads_sign (N := 1) (w := ",") (by decide) (" a player.\n".toList ++ more)
  have hstop : "." ∈ stops := by decide
  have htext : Rule.textBeforePunctuation.Reads 1 ("a player".toList ++ (".".toList ++ '\n' :: more)) _ _ :=
    reads_textBeforePunctuation (flush_title (by decide)) (free_of_stops (by decide)) hstop ('\n' :: more)
  have hread := reads_seq hname (reads_seq hcomma (reads_seq htext (reads_stop_before hstop ('\n' :: more))))
  refine (reads_call (r := .dramatisPersona) rfl hread).imp ?_
  rintro y ⟨_, span, ⟨_, _, ⟨_, ⟨_, rfl, rfl⟩, rfl⟩, ⟨_, _, rfl, ⟨_, _, ⟨_, rfl, rfl⟩, rfl, rfl⟩, rfl⟩, rfl⟩, rfl⟩
  refine ⟨_, ⟨span, ?_⟩, rfl⟩
  show (do return Persona.mk span (← (entryTree name).words?)) = _
  rw [words?_entryTree (proper_of_entries (r := .character) h).1]
  rfl

/-- The personae in the trees have the names, in order. -/
def DeclareNames (names : List (List String)) (ts : List Tree) : Prop :=
  ∃ ps, ts.mapM Persona.ofTree? = some ps ∧ ps.map Persona.name = names

theorem reads_personae (hne : names ≠ []) (hnames : ∀ name ∈ names, name ∈ characters)
    (hend : (call .dramatisPersona).Refuses 2 (tail.dropWhile isBlank)) :
    Rule.dramatisPersonae.Reads 3 ((declared names tail).dropWhile isBlank) (tail.dropWhile isBlank) fun t =>
      ∃ ts, t = .list ts ∧ DeclareNames names ts := by
  have hitems : (seq (pattern .blanks) (gather (call .dramatisPersona))).ReadsItems 2
      (fun names => (declared names tail).dropWhile isBlank)
      (fun names ys => DeclareNames names (ys.flatMap Yield.gathered)) names := by
    intro name rem hrem
    have hname := hnames name (hrem.mem List.mem_cons_self)
    have hflush := flush_name hname (", a player.\n".toList ++ declared rem tail)
    have hshorter := length_le_joined name (", a player.\n".toList ++ declared rem tail)
    have hdropped := length_dropWhile_le (declared rem tail)
    dsimp only [declared]
    rw [hflush]
    refine ⟨?_, (reads_seq reads_blanks (reads_gather (reads_persona hname (declared rem tail)))).imp ?_⟩
    · simp only [List.length_append] at hshorter
      have hpos : 0 < ", a player.\n".toList.length := by decide
      omega
    · rintro y ⟨_, _, ⟨_, rfl⟩, ⟨_, ⟨t, ⟨span, ht⟩, rfl⟩, rfl⟩, rfl⟩ ys ⟨ps, hps, hrest⟩
      refine ⟨⟨span, name⟩ :: ps, ?_, by rw [List.map_cons, hrest]⟩
      show (t :: ys.flatMap Yield.gathered).mapM Persona.ofTree? = _
      rw [List.mapM_cons, ht, hps]
      rfl
  have hmany := reads_many_items hitems (refuses_seq_right reads_blanks (leadsTo_gather hend)) ⟨[], rfl, rfl⟩
  refine (reads_call (r := .dramatisPersonae) rfl hmany).imp ?_
  rintro y ⟨_, span, ⟨ys, ⟨ps, hps, hdeclared⟩, rfl⟩, rfl⟩
  have hgathered : (Yield.repeated ys).gathered ≠ [] := by
    intro hnil
    rw [show ys.flatMap Yield.gathered = [] from hnil] at hps
    cases hps
    exact hne hdeclared.symm
  exact ⟨_, ⟨_, ruleTree_of_gathered rfl hgathered span, ps, hps, hdeclared⟩, rfl⟩

/-- The tree is that of a play with the names as its personae, and of one act of one scene, the entrance of them
all. -/
def SetsPlay (names : List (List String)) (t : Tree) : Prop :=
  ∃ play a s span, Play.ofTree? t = some play ∧ play.personae.map Persona.name = names ∧ play.acts = [a] ∧
    a.scenes = [s] ∧ s.events = [.entrance span names]

theorem reads_play (hne : names ≠ []) (hnames : ∀ name ∈ names, name ∈ characters) :
    Rule.play.Reads 7 ((Console.playFor (names.map typedName)).dropWhile isBlank) [] (SetsPlay names) := by
  have hstop : "." ∈ stops := by decide
  have htitle : Rule.textBeforePunctuation.Reads 1
      ("A REPL-tastic Adventure".toList ++ (".".toList ++ ("\n\n".toList ++ declared names (stageLines names))))
      _ _ :=
    reads_textBeforePunctuation (flush_title (by decide)) (free_of_stops (by decide)) hstop _
  have hact : (call .dramatisPersona).Refuses 2 ((stageLines names).dropWhile isBlank) :=
    leadsTo_call rfl (refuses_seq (leadsTo_label (refuses_names_at (.inl rfl) _)))
  have hpersonae := reads_personae hne hnames hact
  have hend : (call .act).Refuses 6 [] := leadsTo_call rfl (refuses_seq (refuses_token_nil (by decide)))
  have hmany := reads_many_once (reads_act hne hnames) (Nat.succ_pos _) hend
  have hread := reads_seq (reads_label (f := .title) (htitle.mono (by decide))) (reads_seq
    (reads_stop_before hstop ("\n\n".toList ++ declared names (stageLines names))) (reads_seq
      (reads_label (f := .dramatisPersonae) (hpersonae.mono (by decide)))
      (reads_seq (reads_label (f := .acts) hmany)
        reads_endOfText)))
  rw [playFor_eq hne hnames]
  refine (reads_call (r := .play) rfl hread).imp ?_
  rintro y
    ⟨_, span, ⟨_, _, ⟨_, ⟨_, rfl, rfl⟩, rfl⟩, ⟨_, _, rfl, ⟨_, _, ⟨_, ⟨_, ⟨ts, rfl, ps, hps, hdeclared⟩, rfl⟩, rfl⟩,
    ⟨_, _, ⟨_, ⟨_, ⟨t, ⟨a, s, place, ha, hscenes, hevents⟩, rfl⟩, rfl⟩, rfl⟩, rfl, rfl⟩, rfl⟩, rfl⟩, rfl⟩, rfl⟩
  refine ⟨_, ⟨⟨"A REPL-tastic Adventure", ps, [a]⟩, a, s, place, ?_, hdeclared, rfl, hscenes, hevents⟩, rfl⟩
  show (do
    let personae ← ts.mapM Persona.ofTree?
    let acts ← [t].mapM Act.ofTree?
    return Play.mk (String.ofList "A REPL-tastic Adventure".toList) personae acts) = _
  rw [hps, List.mapM_cons, ha]
  rfl

end Reading

end Grammar

/-! ### The performance -/

section Performing

variable {names : List (List String)} {ns : List String}

theorem enter_of_away {s : Stage} (h : ∀ n ∈ ns, s.checkAway n = .ok ()) :
    StageM.enter ns s = .ok () (ns.foldl Stage.arrive s) := by
  have hends : Ends (StageM.enter ns) s (fun _ t => t = ns.foldl Stage.arrive s) (fun _ _ => False) := by
    unfold StageM.enter
    refine ends_bind ((StageM.ends_checks (fun n s => s.checkAway n) ns).mono ?_ ?_)
    · rintro _ t ⟨rfl, -⟩
      exact StageM.ends_arrivals ns
    · rintro e t ⟨-, n, hn, he⟩
      rw [h n hn] at he
      cases he
  cases hs : StageM.enter ns s with
  | ok u t => rw [hends.ok hs]
  | error e t => exact (hends.error hs).elim

theorem present_of_arrivals {s : Stage} (h : (s.present ++ ns).Nodup) :
    (ns.foldl Stage.arrive s).present = s.present ++ ns := by
  induction ns generalizing s with
  | nil => simp
  | cons n ns ih =>
    have hn : n ∉ s.present := fun hmem => (List.nodup_append.mp h).2.2 n hmem n List.mem_cons_self rfl
    have harrive : (s.arrive n).present = s.present ++ [n] := by
      simp [Stage.arrive, Stage.updateOpposites_present, hn]
    rw [List.foldl_cons, ih (by rw [harrive]; simpa using h), harrive]
    simp

theorem stepForward_entrance {p : Performance} {span : Span}
    (hop : p.script.operation? p.position = some ⟨span, .enter ns⟩) (hstyle : p.style = .basic)
    (haway : ∀ n ∈ ns, p.stage.checkAway n = .ok ()) :
    ReportM.stepForward p =
      .ok () { p with stage := ns.foldl Stage.arrive p.stage, position := p.position + 1 } := by
  have hquiet : PerformanceM.narrate ("Enter " ++ ", ".intercalate ns) p = .ok () p := by
    show (if p.style.narrates then PerformanceM.printLine _ else pure ()) p = _
    rw [hstyle]
    rfl
  have hperform : PerformanceM.perform (PerformanceM.rememberAt p.position) ⟨span, .enter ns⟩ p =
      .ok () { p with stage := ns.foldl Stage.arrive p.stage } := by
    show PerformanceM.locating span (PerformanceM.narrate _ >>= fun _ => PerformanceM.onStage (StageM.enter ns))
      p = _
    unfold PerformanceM.locating
    rw [bind_of_ok hquiet]
    unfold PerformanceM.onStage
    rw [enter_of_away haway]
  have hstep : PerformanceM.step p =
      .ok () { p with stage := ns.foldl Stage.arrive p.stage, position := p.position + 1 } := by
    rw [PerformanceM.step_of_quiet hop rfl (by rw [hstyle]; decide), bind_of_ok hperform]
    show (if p.position = p.position then PerformanceM.advance else pure ()) _ = _
    rw [if_pos rfl]
    rfl
  show ReportM.reporting p.script.source none PerformanceM.step p = _
  unfold ReportM.reporting
  rw [hstep]

/-- Different names are written differently, since each is read as itself. -/
theorem intercalate_injOn {name name' : List String} (h : name ∈ characters) (h' : name' ∈ characters)
    (heq : " ".intercalate name = " ".intercalate name') : name = name' := by
  have htyped : joined name [] = joined name' [] := by
    rw [← typedName_append, ← typedName_append, typedName, typedName, heq]
  have hended : Ended [] := fun c hc => nomatch hc
  have hdepth : 1 ≤ callDepth (joined name []) := by
    unfold callDepth ranks
    omega
  obtain ⟨t, ht, rfl⟩ := parse_of_reads (reads_name h hended) (flush_name h []) hdepth
  have hread := reads_name h' hended
  rw [← htyped] at hread
  obtain ⟨t, ht', rfl⟩ := parse_of_reads hread (flush_name h []) hdepth
  have htree : entryTree name = entryTree name' := Except.ok.inj (ht.symm.trans ht')
  have hwords := congrArg Tree.words? htree
  rw [words?_entryTree (proper_of_entries (r := .character) h).1,
    words?_entryTree (proper_of_entries (r := .character) h').1] at hwords
  exact Option.some.inj hwords

theorem nodup_written (hnodup : names.Nodup) (hnames : ∀ name ∈ names, name ∈ characters) :
    (names.map fun name => " ".intercalate name).Nodup := by
  rw [List.nodup_iff_pairwise_ne, List.pairwise_map]
  refine hnodup.imp_of_mem fun {a b} ha hb hne heq => hne ?_
  exact intercalate_injOn (hnames a ha) (hnames b hb) heq

theorem castNames_of_names {play : Play} (h : play.personae.map Persona.name = names)
    (hnames : ∀ name ∈ names, name ∈ characters) :
    play.castNames = names.map fun name => " ".intercalate name := by
  subst h
  unfold Play.castNames
  rw [List.map_map]
  refine List.map_congr_left fun q hq => ?_
  exact normalizeWords_name (hnames q.name (List.mem_map_of_mem hq))

theorem readAs_entranceList (hne : names ≠ []) (hnames : ∀ name ∈ names, name ∈ characters) :
    readAs .characterList namesOfTree? (Console.entranceList (names.map typedName)) = .ok names := by
  have hended : Ended [] := fun c hc => nomatch hc
  have hlist : EndsList [] := ⟨fun _ => refuses_token_nil (by decide), fun _ => refuses_token_nil (by decide)⟩
  have hread := reads_entranceList hne hnames hended hlist
  have hflush := flush_entranceList hne hnames []
  rw [List.append_nil] at hread hflush
  obtain ⟨t, ht, rfl⟩ := parse_of_reads hread hflush (by
    unfold callDepth ranks
    omega)
  exact readAs_of_parse ht (namesOfTree?_entries hnames)

/-- What is opened: the cast, and one operation. -/
theorem opened_for_cast (hne : names ≠ []) (hnodup : names.Nodup) (hnames : ∀ name ∈ names, name ∈ characters)
    (streams : Streams) : ∃ script span,
      Performance.ofText (Console.playFor (names.map typedName)) "basic" "basic" streams =
        .ok ⟨script, Stage.ofCast (names.map fun name => " ".intercalate name), 0, .basic [], .basic,
          streams, []⟩ ∧
      script.operations = [⟨span, .enter (names.map fun name => " ".intercalate name)⟩] := by
  obtain ⟨t, ht, play, a, s, span, hplay, hpersonae, hacts, hscenes, hevents⟩ :=
    parse_of_reads_skipped (reads_play hne hnames) (by
    unfold callDepth ranks
    omega)
  have hcast := castNames_of_names hpersonae hnames
  have hstage : play.stage = .ok (Stage.ofCast (names.map fun name => " ".intercalate name)) := by
    rw [← hcast]
    exact stage_of_nodup (by rw [hcast]; exact nodup_written hnodup hnames)
  have hdiffer : NumeralsDiffer play.acts := by
    rw [hacts]
    simp [NumeralsDiffer, hscenes]
  have hscript : Script.ofPlay (Console.playFor (names.map typedName)) play =
      .ok (Script.ofActs (Console.playFor (names.map typedName)) play.acts) :=
      Script.ofPlay_eq_ok_iff.mpr ⟨hdiffer, rfl⟩
  have hcanonical : names.map Name.normalizeWords = names.map fun name => " ".intercalate name :=
    List.map_congr_left fun name hname => normalizeWords_name (hnames name hname)
  refine ⟨Script.ofActs (Console.playFor (names.map typedName)) play.acts, span, ?_, ?_⟩
  · unfold Performance.ofText
    rw [readAs_of_parse ht hplay]
    show (Performance.ofPlay _ play (.basic []) .basic streams).mapError _ = _
    unfold Performance.ofPlay
    rw [hscript, hstage]
    rfl
  · rw [← hcanonical, hacts]
    simp [Script.ofActs, Act.operations, Scene.operations, hscenes, hevents, Operation.ofEvent]

/-- **The console can be opened with any cast.** Take any names of the language, at least one and no two the same.
The list that the console makes of them for the entrance is read back as these names. The play that it makes of
them can be opened, with exactly them as its cast, in the same order, and with one operation. When this was
performed, exactly they are on stage, again in the same order, and the play is over. -/
theorem console_opens_with_cast (hne : names ≠ []) (hnodup : names.Nodup)
    (hnames : ∀ name ∈ names, name ∈ characters) (streams : Streams) :
    readAs .characterList namesOfTree? (Console.entranceList (names.map typedName)) = .ok names ∧
      ∃ p, Performance.ofText (Console.playFor (names.map typedName)) "basic" "basic" streams = .ok p ∧
        p.stage.names = names.map (fun name => " ".intercalate name) ∧ p.script.operations.length = 1 ∧
        ∃ q, ReportM.stepForward p = .ok () q ∧ q.stage.present = names.map (fun name => " ".intercalate name) ∧
          PerformanceM.isOver q = true := by
  obtain ⟨script, span, hopen, hops⟩ := opened_for_cast hne hnodup hnames streams
  have hwritten := nodup_written hnodup hnames
  generalize hwrite : names.map (fun name => " ".intercalate name) = ns at hopen hops hwritten ⊢
  have hcast : (Stage.ofCast ns).names = ns := Stage.names_of_fresh rfl
  have hop : script.operation? 0 = some ⟨span, .enter ns⟩ := by
    unfold Script.operation?
    rw [hops]
    rfl
  have haway : ∀ n ∈ ns, (Stage.ofCast ns).checkAway n = .ok () := by
    intro n hn
    unfold Stage.checkAway
    rw [if_neg (show n ∉ (Stage.ofCast ns).present from List.not_mem_nil), if_pos (by rwa [hcast])]
  have hpresent : (ns.foldl Stage.arrive (Stage.ofCast ns)).present = ns := present_of_arrivals hwritten
  refine ⟨readAs_entranceList hne hnames, _, hopen, hcast, by rw [hops]; rfl, _,
    stepForward_entrance hop rfl haway, hpresent, ?_⟩
  unfold PerformanceM.isOver
  rw [hops]
  rfl

/-- A cast with names that begin alike, a name of two words, and one that begins with *and*. -/
def ghostlyCast : List (List String) := [["Helen"], ["The", "Ghost"], ["Helena"], ["Andromache"]]

theorem console_opens_with_cast_ghostly :
    readAs .characterList namesOfTree? "Helen, The Ghost, Helena and Andromache".toList = .ok ghostlyCast ∧
      ∃ p q, Performance.ofText (Console.playFor (ghostlyCast.map typedName)) "basic" "basic" ⟨[], none, "", ""⟩ =
        .ok p ∧
        p.stage.names = ["Helen", "The Ghost", "Helena", "Andromache"] ∧ p.script.operations.length = 1 ∧
        ReportM.stepForward p = .ok () q ∧ q.stage.present = ["Helen", "The Ghost", "Helena", "Andromache"] ∧
        PerformanceM.isOver q = true := by
  have hnames : ∀ name ∈ ghostlyCast, name ∈ characters := by decide +kernel
  have htext : Console.entranceList (ghostlyCast.map typedName) =
      "Helen, The Ghost, Helena and Andromache".toList := by
    decide +kernel
  have hwritten : ghostlyCast.map (fun name => " ".intercalate name) =
      ["Helen", "The Ghost", "Helena", "Andromache"] := by
    decide +kernel
  obtain ⟨hlist, p, hopen, hcast, hlength, q, hstep, hpresent, hover⟩ :=
    console_opens_with_cast (by decide) (by decide) hnames ⟨[], none, "", ""⟩
  rw [htext] at hlist
  rw [hwritten] at hcast hpresent
  exact ⟨hlist, p, q, hopen, hcast, hlength, hstep, hpresent, hover⟩

end Performing

end Playhouse
