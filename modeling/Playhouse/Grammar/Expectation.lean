import Playhouse.Grammar.Failure
import Playhouse.Grammar.Lexicon

/-!
# Playhouse.Grammar.Expectation — what the choices of the grammar expect

A list names the first words of the options and the rules they begin, each once.
-/

namespace Playhouse.Grammar.Expectation

open Lexicon

/-- Remove repetitions: each expectation stays where it comes first. -/
def distinct (es : List Expected) : List Expected := es.eraseDups

/-- The first words of entries. -/
def firstWords (entries : List (List String)) : List Expected :=
  distinct (entries.filterMap fun ws => ws.head?.map .word)

/-- Single words. -/
def words (ws : List String) : List Expected := ws.map .word

/-- Rules. -/
def rules (rs : List Rule) : List Expected := rs.map .rule

/-- The first words of entries, and the rule of these entries. -/
def entry (entries : List (List String)) (r : Rule) : List Expected := firstWords entries ++ [.rule r]

/-- Possessives of all persons. -/
def possessives : List Expected :=
  entry firstPersonPossessives .firstPersonPossessive ++ entry secondPersonPossessives .secondPersonPossessive
    ++ entry thirdPersonPossessives .thirdPersonPossessive

/-- Articles and possessives. -/
def determiners : List Expected := entry articles .article ++ possessives ++ [.rule .possessive]

/-- Good and neutral adjectives. -/
def goodAdjectives : List Expected :=
  entry positiveAdjectives .positiveAdjective ++ entry neutralAdjectives .neutralAdjective

/-- Good and neutral nouns. -/
def goodNouns : List Expected := entry positiveNouns .positiveNoun ++ entry neutralNouns .neutralNoun

/-- Noun phrases of both kinds. -/
def nounPhrases : List Expected :=
  distinct (entry negativeNouns .negativeNoun ++ entry negativeAdjectives .negativeAdjective
    ++ entry neutralAdjectives .neutralAdjective ++ determiners ++ [.rule .negativeNounPhrase]
    ++ goodNouns ++ [.rule .positiveOrNeutralNoun] ++ goodAdjectives ++ [.rule .positiveOrNeutralAdjective]
    ++ [.rule .positiveNounPhrase])

/-- The speaker. -/
def speakers : List Expected :=
  entry firstPersons .firstPerson ++ entry firstPersonReflexives .firstPersonReflexive

/-- The one spoken to. -/
def listeners : List Expected :=
  entry secondPersons .secondPerson ++ entry secondPersonReflexives .secondPersonReflexive

/-- Operations on values. -/
def operations : List Expected :=
  [.word "the", .rule .binaryOperation, .rule .binaryExpression, .word "twice", .rule .unaryOperation,
   .rule .unaryExpression]

/-- Values other than operations. -/
def simpleValues : List Expected :=
  speakers ++ [.rule .firstPersonValue] ++ listeners ++ [.rule .secondPersonValue] ++ nounPhrases
    ++ [.rule .nounPhrase] ++ entry characters .character ++ [.rule .characterName] ++ words ["nothing", "zero"]

/-- Values. -/
def values : List Expected := distinct (operations ++ [.rule .expression] ++ simpleValues)

/-- Events. -/
def events : List Expected :=
  entry characters .character ++ [.rule .line, .word "["] ++ rules [.breakpoint, .entrance, .exit, .exeunt]

/-- Sentences. -/
def sentences : List Expected :=
  firstWords formsOfBe ++ rules [.question, .assignment] ++ words ["Let", "We"] ++ rules [.letUs, .goto]
    ++ words ["open", "speak"] ++ [.rule .output, .word "listen", .rule .input, .word "Remember", .rule .push,
    .word "Recall", .rule .pop, .word "If", .rule .negativeIf, .rule .positiveIf, .rule .sentence]

/-- A line of the console. -/
def consoleLines : List Expected :=
  distinct (entry characters .character ++ [.rule .expression] ++ simpleValues ++ operations ++ [.rule .value]
    ++ events ++ [.rule .event] ++ sentences)

end Playhouse.Grammar.Expectation
