import Playhouse.CommandLine.GrammarTool
import Playhouse.Main
import Playhouse.Proofs.Ends
import Playhouse.Proofs.StageSound
import Playhouse.Proofs.Directions
import Playhouse.Proofs.Layout
import Playhouse.Proofs.Acting
import Playhouse.Proofs.Reachable
import Playhouse.Proofs.Jumps
import Playhouse.Proofs.Failures
import Playhouse.Proofs.Evaluation
import Playhouse.Proofs.Constants
import Playhouse.Proofs.ReadEquations
import Playhouse.Proofs.Yields
import Playhouse.Proofs.Forms
import Playhouse.Proofs.Preparation
import Playhouse.Proofs.Hazards
import Playhouse.Proofs.Breakdowns
import Playhouse.Proofs.Wording
import Playhouse.Proofs.Vocabulary
import Playhouse.Proofs.Phrasing
import Playhouse.Proofs.Numerals
import Playhouse.Proofs.Sentences
import Playhouse.Proofs.Abreast
import Playhouse.Proofs.Stepping
import Playhouse.Proofs.Lockstep
import Playhouse.Proofs.Excerpts
import Playhouse.Proofs.Spans
import Playhouse.Proofs.Unmarked
import Playhouse.Proofs.Transcript
import Playhouse.Proofs.Styles
import Playhouse.Proofs.Directly
import Playhouse.Proofs.Naming
import Playhouse.Proofs.Legible
import Playhouse.Proofs.Turns
import Playhouse.Proofs.Debugging
import Playhouse.Proofs.Tokens
import Playhouse.Proofs.Rounds
import Playhouse.Proofs.Speakers
import Playhouse.Proofs.Places
import Playhouse.Proofs.Mishaps
import Playhouse.Proofs.Answering
import Playhouse.Proofs.Readers
import Playhouse.Proofs.Casing
import Playhouse.Proofs.SmallLetters
import Playhouse.Proofs.Recased
import Playhouse.Proofs.NumeralCase
import Playhouse.Proofs.Casting
import Playhouse.Proofs.Departures
import Playhouse.Proofs.Exactness
import Playhouse.Proofs.Effects
import Playhouse.Proofs.CanonicalNames
import Playhouse.Proofs.Highlights
import Playhouse.Proofs.Progress
import Playhouse.Proofs.Pointing
