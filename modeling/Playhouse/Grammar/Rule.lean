/-!
# Playhouse.Grammar.Rule — the rules of the grammar and the fields of their trees

The names of rules and fields are part of what is printed: rules in the stack of a failure and in expectations,
fields in trees.
-/

namespace Playhouse.Grammar

/-- The rules of the grammar. -/
inductive Rule where
  | be
  | article
  | firstPerson
  | firstPersonReflexive
  | firstPersonPossessive
  | secondPerson
  | secondPersonReflexive
  | secondPersonPossessive
  | thirdPersonPossessive
  | possessive
  | positiveComparative
  | negativeComparative
  | negativeAdjective
  | neutralAdjective
  | positiveAdjective
  | negativeNoun
  | neutralNoun
  | positiveNoun
  | character
  | nothing
  | positiveOrNeutralAdjective
  | positiveOrNeutralNoun
  | neutralComparative
  | negativeNounPhrase
  | positiveNounPhrase
  | nounPhrase
  | firstPersonValue
  | secondPersonValue
  | characterName
  | value
  | binaryOperation
  | binaryExpression
  | unaryOperation
  | unaryExpression
  | expression
  | negativeIf
  | positiveIf
  | question
  | assignment
  | letUs
  | proceedTo
  | romanNumeral
  | goto
  | output
  | input
  | push
  | pop
  | sentence
  | lineContents
  | line
  | characterList
  | breakpoint
  | entrance
  | exit
  | exeunt
  | event
  | replInput
  | textBeforePunctuation
  | scene
  | act
  | dramatisPersona
  | dramatisPersonae
  | play
  deriving DecidableEq, Repr

/-- The name of a rule. -/
def Rule.name : Rule → String
  | be => "be"
  | article => "article"
  | firstPerson => "first_person"
  | firstPersonReflexive => "first_person_reflexive"
  | firstPersonPossessive => "first_person_possessive"
  | secondPerson => "second_person"
  | secondPersonReflexive => "second_person_reflexive"
  | secondPersonPossessive => "second_person_possessive"
  | thirdPersonPossessive => "third_person_possessive"
  | possessive => "possessive"
  | positiveComparative => "positive_comparative"
  | negativeComparative => "negative_comparative"
  | negativeAdjective => "negative_adjective"
  | neutralAdjective => "neutral_adjective"
  | positiveAdjective => "positive_adjective"
  | negativeNoun => "negative_noun"
  | neutralNoun => "neutral_noun"
  | positiveNoun => "positive_noun"
  | character => "character"
  | nothing => "nothing"
  | positiveOrNeutralAdjective => "positive_or_neutral_adjective"
  | positiveOrNeutralNoun => "positive_or_neutral_noun"
  | neutralComparative => "neutral_comparative"
  | negativeNounPhrase => "negative_noun_phrase"
  | positiveNounPhrase => "positive_noun_phrase"
  | nounPhrase => "noun_phrase"
  | firstPersonValue => "first_person_value"
  | secondPersonValue => "second_person_value"
  | characterName => "character_name"
  | value => "value"
  | binaryOperation => "binary_operation"
  | binaryExpression => "binary_expression"
  | unaryOperation => "unary_operation"
  | unaryExpression => "unary_expression"
  | expression => "expression"
  | negativeIf => "negative_if"
  | positiveIf => "positive_if"
  | question => "question"
  | assignment => "assignment"
  | letUs => "let_us"
  | proceedTo => "proceed_to"
  | romanNumeral => "roman_numeral"
  | goto => "goto"
  | output => "output"
  | input => "input"
  | push => "push"
  | pop => "pop"
  | sentence => "sentence"
  | lineContents => "line_contents"
  | line => "line"
  | characterList => "character_list"
  | breakpoint => "breakpoint"
  | entrance => "entrance"
  | exit => "exit"
  | exeunt => "exeunt"
  | event => "event"
  | replInput => "repl_input"
  | textBeforePunctuation => "text_before_punctuation"
  | scene => "scene"
  | act => "act"
  | dramatisPersona => "dramatis_persona"
  | dramatisPersonae => "dramatis_personae"
  | play => "play"

/-- All rules, in the alphabetical order of their names. -/
def Rule.all : List Rule :=
  [.act, .article, .assignment, .be, .binaryExpression, .binaryOperation, .breakpoint, .character,
   .characterList, .characterName, .dramatisPersona, .dramatisPersonae, .entrance, .event, .exeunt, .exit,
   .expression, .firstPerson, .firstPersonPossessive, .firstPersonReflexive, .firstPersonValue, .goto,
   .input, .letUs, .line, .lineContents, .negativeAdjective, .negativeComparative, .negativeIf,
   .negativeNoun, .negativeNounPhrase, .neutralAdjective, .neutralComparative, .neutralNoun, .nothing,
   .nounPhrase, .output, .play, .pop, .positiveAdjective, .positiveComparative, .positiveIf, .positiveNoun,
   .positiveNounPhrase, .positiveOrNeutralAdjective, .positiveOrNeutralNoun, .possessive, .proceedTo, .push,
   .question, .replInput, .romanNumeral, .scene, .secondPerson, .secondPersonPossessive,
   .secondPersonReflexive, .secondPersonValue, .sentence, .textBeforePunctuation, .thirdPersonPossessive,
   .unaryExpression, .unaryOperation, .value]

/-- The rule of a name. -/
def Rule.ofName? (name : String) : Option Rule := Rule.all.find? fun r => r.name == name

theorem Rule.mem_all (r : Rule) : r ∈ Rule.all := by cases r <;> decide

/-- The fields of the trees. -/
inductive Field where
  | action
  | acts
  | adjectives
  | character
  | characters
  | comparative
  | comparison
  | condition
  | contents
  | destination
  | displayCharacter
  | dramatisPersonae
  | pause
  | event
  | events
  | expressionCharacter
  | firstPersonWord
  | firstValue
  | conditionWords
  | inputChar
  | inputNumber
  | name
  | nothingWord
  | noun
  | number
  | operation
  | outputChar
  | outputNumber
  | recallString
  | scenes
  | secondPersonWord
  | secondValue
  | sentences
  | target
  | title
  | value
  deriving DecidableEq, Repr

/-- The name of a field, as it is printed. -/
def Field.key : Field → String
  | action => "action"
  | acts => "acts"
  | adjectives => "adjectives"
  | character => "character"
  | characters => "characters"
  | comparative => "comparative"
  | comparison => "comparison"
  | condition => "condition"
  | contents => "contents"
  | destination => "destination"
  | displayCharacter => "display_character"
  | dramatisPersonae => "dramatis_personae"
  | pause => "dummy"
  | event => "event"
  | events => "events"
  | expressionCharacter => "expression_character"
  | firstPersonWord => "first_person_word"
  | firstValue => "first_value"
  | conditionWords => "if_"
  | inputChar => "input_char"
  | inputNumber => "input_number"
  | name => "name"
  | nothingWord => "nothing_word"
  | noun => "noun"
  | number => "number"
  | operation => "operation"
  | outputChar => "output_char"
  | outputNumber => "output_number"
  | recallString => "recall_string"
  | scenes => "scenes"
  | secondPersonWord => "second_person_word"
  | secondValue => "second_value"
  | sentences => "sentences"
  | target => "target"
  | title => "title"
  | value => "value"

/-- The fields of the trees of a rule, in the order in which they are printed. A rule without fields gives what its
parts give. -/
def Rule.fields : Rule → List Field
  | positiveComparative => [.comparison]
  | negativeComparative => [.comparison]
  | nothing => [.nothingWord]
  | neutralComparative => [.comparison]
  | negativeNounPhrase => [.adjectives, .noun]
  | positiveNounPhrase => [.adjectives, .noun]
  | firstPersonValue => [.firstPersonWord]
  | secondPersonValue => [.secondPersonWord]
  | characterName => [.name]
  | binaryExpression => [.firstValue, .operation, .secondValue]
  | unaryExpression => [.operation, .value]
  | negativeIf => [.conditionWords]
  | positiveIf => [.conditionWords]
  | question => [.comparative, .firstValue, .secondValue]
  | assignment => [.value]
  | romanNumeral => [.value]
  | goto => [.destination, .target]
  | output => [.outputChar, .outputNumber]
  | input => [.inputChar, .inputNumber]
  | push => [.value]
  | pop => [.recallString]
  | sentence => [.condition, .operation]
  | line => [.character, .contents]
  | breakpoint => [.pause]
  | entrance => [.characters]
  | exit => [.character]
  | exeunt => [.action, .characters]
  | replInput => [.displayCharacter, .event, .expressionCharacter, .sentences, .value]
  | scene => [.events, .name, .number]
  | act => [.name, .number, .scenes]
  | dramatisPersona => [.character]
  | play => [.acts, .dramatisPersonae, .title]
  | _ => []

end Playhouse.Grammar
