import Playhouse.Grammar.Expectation
import Playhouse.Grammar.Phrase

/-!
# Playhouse.Grammar.Rules — the right-hand sides of the rules
-/

namespace Playhouse.Grammar

namespace Phrase

open Lexicon Expectation

/-- One of the entries of a word list. -/
def entryOf (entries : List (List String)) : Phrase := oneOf (entries.map words) (firstWords entries)

/-- One of several rules. -/
def ruleOf (rs : List Rule) : Phrase := oneOf (rs.map call) (rules rs)

/-- One of several rules, with a list of expectations of its own. -/
def ruleExpecting (rs : List Rule) (expected : List Expected) : Phrase := oneOf (rs.map call) expected

def be : Phrase := entryOf formsOfBe

def article : Phrase := entryOf articles

def firstPerson : Phrase := entryOf firstPersons

def firstPersonReflexive : Phrase := word "myself"

def firstPersonPossessive : Phrase := entryOf firstPersonPossessives

def secondPerson : Phrase := entryOf secondPersons

def secondPersonReflexive : Phrase := entryOf secondPersonReflexives

def secondPersonPossessive : Phrase := entryOf secondPersonPossessives

def thirdPersonPossessive : Phrase := entryOf thirdPersonPossessives

def possessive : Phrase :=
  ruleExpecting [.firstPersonPossessive, .secondPersonPossessive, .thirdPersonPossessive] possessives

/-- A comparison by one of the words, or by `more` and an adjective. -/
def comparative (ws : List String) (adjective : Rule) : Phrase :=
  seq (label .comparison
      (oneOf (ws.map word ++ [seq (word "more") (call adjective)]) (Expectation.words (ws ++ ["more"]))))
    (word "than")

def positiveComparative : Phrase :=
  comparative ["better", "bigger", "fresher", "friendlier", "nicer", "jollier"] .positiveAdjective

def negativeComparative : Phrase := comparative ["punier", "smaller", "worse"] .negativeAdjective

def negativeAdjective : Phrase := entryOf negativeAdjectives

def neutralAdjective : Phrase := entryOf neutralAdjectives

def positiveAdjective : Phrase := entryOf positiveAdjectives

def negativeNoun : Phrase := entryOf negativeNouns

def neutralNoun : Phrase := entryOf neutralNouns

def positiveNoun : Phrase := entryOf positiveNouns

def character : Phrase := entryOf characters

def nothing : Phrase :=
  label .nothingWord (oneOf [word "nothing", word "zero"] (Expectation.words ["nothing", "zero"]))

def positiveOrNeutralAdjective : Phrase := ruleExpecting [.positiveAdjective, .neutralAdjective] goodAdjectives

def positiveOrNeutralNoun : Phrase := ruleExpecting [.positiveNoun, .neutralNoun] goodNouns

def neutralComparative : Phrase :=
  sequence [word "as", label .comparison (ruleOf [.negativeAdjective, .positiveOrNeutralAdjective]), word "as"]

def negativeNounPhrase : Phrase :=
  sequence [opt (ruleOf [.article, .possessive]),
    label .adjectives (many (ruleOf [.negativeAdjective, .neutralAdjective])), label .noun (call .negativeNoun)]

def positiveNounPhrase : Phrase :=
  sequence [opt (ruleOf [.article, .possessive]),
    label .adjectives (many (call .positiveOrNeutralAdjective)), label .noun (call .positiveOrNeutralNoun)]

def nounPhrase : Phrase := ruleExpecting [.negativeNounPhrase, .positiveNounPhrase] nounPhrases

def firstPersonValue : Phrase :=
  label .firstPersonWord (ruleExpecting [.firstPerson, .firstPersonReflexive] speakers)

def secondPersonValue : Phrase :=
  label .secondPersonWord (ruleExpecting [.secondPerson, .secondPersonReflexive] listeners)

def characterName : Phrase := label .name (call .character)

def value : Phrase :=
  ruleExpecting [.expression, .firstPersonValue, .secondPersonValue, .nounPhrase, .characterName, .nothing] values

def binaryOperation : Phrase :=
  oneOf [words ["the", "difference", "between"], words ["the", "product", "of"],
    words ["the", "quotient", "between"], words ["the", "remainder", "of", "the", "quotient", "between"],
    words ["the", "sum", "of"]] [.word "the"]

def binaryExpression : Phrase :=
  sequence [label .operation (call .binaryOperation), label .firstValue (call .value), word "and",
    label .secondValue (call .value)]

def unaryOperation : Phrase :=
  oneOf [words ["the", "cube", "of"], words ["the", "factorial", "of"], words ["the", "square", "of"],
    words ["the", "square", "root", "of"], word "twice"] (Expectation.words ["the", "twice"])

def unaryExpression : Phrase := seq (label .operation (call .unaryOperation)) (label .value (call .value))

def expression : Phrase := ruleExpecting [.binaryExpression, .unaryExpression] operations

def negativeIf : Phrase := label .conditionWords (words ["If", "not", ","])

def positiveIf : Phrase := label .conditionWords (words ["If", "so", ","])

def question : Phrase :=
  sequence [call .be, label .firstValue (call .value),
    label .comparative (ruleOf [.positiveComparative, .neutralComparative, .negativeComparative]),
    label .secondValue (call .value), word "?"]

def assignment : Phrase :=
  sequence [call .secondPerson, opt (call .be),
    opt (seq (word "as") (opt (seq (ruleOf [.positiveOrNeutralAdjective, .negativeAdjective]) (word "as")))),
    label .value (call .value), stop]

def letUs : Phrase :=
  oneOf [words ["Let", "us"], words ["We", "shall"], words ["We", "must"]] (Expectation.words ["Let", "We"])

def proceedTo : Phrase :=
  oneOf [words ["proceed", "to"], words ["return", "to"]] (Expectation.words ["proceed", "return"])

def romanNumeral : Phrase := label .value (pattern .numeral)

def goto : Phrase :=
  sequence [call .letUs, call .proceedTo,
    label .target (oneOf [word "scene", word "act"] (Expectation.words ["scene", "act"])),
    label .destination (call .romanNumeral), stop]

def output : Phrase :=
  seq (oneOf [label .outputNumber (sequence [word "open", call .secondPersonPossessive, word "heart"]),
      label .outputChar (sequence [word "speak", call .secondPersonPossessive, word "mind"])]
    (Expectation.words ["open", "speak"])) stop

def input : Phrase :=
  seq (oneOf [label .inputNumber (sequence [word "listen", word "to", call .secondPersonPossessive, word "heart"]),
      label .inputChar (sequence [word "open", call .secondPersonPossessive, word "mind"])]
    (Expectation.words ["listen", "open"])) stop

def push : Phrase := sequence [word "Remember", label .value (call .value), stop]

def pop : Phrase := sequence [word "Recall", label .recallString (call .textBeforePunctuation), stop]

def sentence : Phrase :=
  seq (label .condition (opt (ruleOf [.negativeIf, .positiveIf])))
    (label .operation (ruleOf [.question, .assignment, .goto, .output, .input, .push, .pop]))

def lineContents : Phrase :=
  seq (gather (call .sentence)) (many (seq (pattern .blanks) (gather (call .sentence))))

def line : Phrase :=
  sequence [label .character (call .character), word ":", label .contents (call .lineContents)]

def characterList : Phrase :=
  oneOf [sequence [gather (call .character), many (seq (word ",") (gather (call .character))), word "and",
      gather (call .character)], gather (call .character)]
    (entry characters .character)

def breakpoint : Phrase := label .pause (words ["[", "A", "pause", "]"])

def entrance : Phrase :=
  sequence [word "[", word "Enter", label .characters (call .characterList), word "]"]

def exit : Phrase := sequence [word "[", word "Exit", label .character (call .character), word "]"]

def exeunt : Phrase :=
  sequence [word "[", label .action (word "Exeunt"), opt (label .characters (call .characterList)), word "]"]

def event : Phrase := ruleExpecting [.line, .breakpoint, .entrance, .exit, .exeunt] events

def replInput : Phrase :=
  oneOf [sequence [notAhead (seq (call .character) (word ":")), label .displayCharacter (call .character),
      endOfText],
    sequence [notAhead (sequence [call .character, word ":", pattern .throughStop]),
      opt (seq (label .expressionCharacter (call .character)) (word ":")), label .value (call .value), endOfText],
    seq (label .event (call .event)) endOfText,
    seq (label .sentences (many1 (call .sentence))) endOfText]
    consoleLines

def textBeforePunctuation : Phrase := pattern .untilStop

/-- A part of a play: its heading and what it consists of. -/
def part (heading : String) (f : Field) (r : Rule) : Phrase :=
  sequence [word heading, pattern .blanks, label .number (call .romanNumeral), word ":",
    label .name (call .textBeforePunctuation), stop, label f (many (call r))]

def scene : Phrase := part "Scene" .events .event

def act : Phrase := part "Act" .scenes .scene

def dramatisPersona : Phrase :=
  sequence [label .character (call .character), word ",", call .textBeforePunctuation, stop]

def dramatisPersonae : Phrase := many (seq (pattern .blanks) (gather (call .dramatisPersona)))

def play : Phrase :=
  sequence [label .title (call .textBeforePunctuation), stop, label .dramatisPersonae (call .dramatisPersonae),
    label .acts (many (call .act)), endOfText]

end Phrase

/-- The right-hand side of a rule. -/
def Rule.body : Rule → Phrase
  | be => Phrase.be
  | article => Phrase.article
  | firstPerson => Phrase.firstPerson
  | firstPersonReflexive => Phrase.firstPersonReflexive
  | firstPersonPossessive => Phrase.firstPersonPossessive
  | secondPerson => Phrase.secondPerson
  | secondPersonReflexive => Phrase.secondPersonReflexive
  | secondPersonPossessive => Phrase.secondPersonPossessive
  | thirdPersonPossessive => Phrase.thirdPersonPossessive
  | possessive => Phrase.possessive
  | positiveComparative => Phrase.positiveComparative
  | negativeComparative => Phrase.negativeComparative
  | negativeAdjective => Phrase.negativeAdjective
  | neutralAdjective => Phrase.neutralAdjective
  | positiveAdjective => Phrase.positiveAdjective
  | negativeNoun => Phrase.negativeNoun
  | neutralNoun => Phrase.neutralNoun
  | positiveNoun => Phrase.positiveNoun
  | character => Phrase.character
  | nothing => Phrase.nothing
  | positiveOrNeutralAdjective => Phrase.positiveOrNeutralAdjective
  | positiveOrNeutralNoun => Phrase.positiveOrNeutralNoun
  | neutralComparative => Phrase.neutralComparative
  | negativeNounPhrase => Phrase.negativeNounPhrase
  | positiveNounPhrase => Phrase.positiveNounPhrase
  | nounPhrase => Phrase.nounPhrase
  | firstPersonValue => Phrase.firstPersonValue
  | secondPersonValue => Phrase.secondPersonValue
  | characterName => Phrase.characterName
  | value => Phrase.value
  | binaryOperation => Phrase.binaryOperation
  | binaryExpression => Phrase.binaryExpression
  | unaryOperation => Phrase.unaryOperation
  | unaryExpression => Phrase.unaryExpression
  | expression => Phrase.expression
  | negativeIf => Phrase.negativeIf
  | positiveIf => Phrase.positiveIf
  | question => Phrase.question
  | assignment => Phrase.assignment
  | letUs => Phrase.letUs
  | proceedTo => Phrase.proceedTo
  | romanNumeral => Phrase.romanNumeral
  | goto => Phrase.goto
  | output => Phrase.output
  | input => Phrase.input
  | push => Phrase.push
  | pop => Phrase.pop
  | sentence => Phrase.sentence
  | lineContents => Phrase.lineContents
  | line => Phrase.line
  | characterList => Phrase.characterList
  | breakpoint => Phrase.breakpoint
  | entrance => Phrase.entrance
  | exit => Phrase.exit
  | exeunt => Phrase.exeunt
  | event => Phrase.event
  | replInput => Phrase.replInput
  | textBeforePunctuation => Phrase.textBeforePunctuation
  | scene => Phrase.scene
  | act => Phrase.act
  | dramatisPersona => Phrase.dramatisPersona
  | dramatisPersonae => Phrase.dramatisPersonae
  | play => Phrase.play

end Playhouse.Grammar
