import Playhouse.CommandLine

/-!
# Playhouse.Main — the command line

The arguments that name files are read, standard input is read to its end, and what the program printed is written.
-/

namespace Playhouse.CommandLine

/-- Read a file, if it can be read. -/
def readFile? (name : String) : IO (Option (String × List Char)) := do
  try
    return some (name, (← IO.FS.readFile name).toList)
  catch _ => return none

/-- How many rounds a play is performed for. -/
def rounds : Nat := Nat.pow 10 15

/-- Write what was printed, and the status to end with. -/
def present (o : Outcome) : IO UInt32 := do
  IO.print o.out
  IO.eprint o.err
  match o.ending with
  | .returned | .exit none => return 0
  | .exit (some status) => return status.toUInt32
  | .failed r =>
    match r.text with
    | .ok text => IO.eprintln text
    | .error b => IO.eprintln b.message
    return 1

end Playhouse.CommandLine

def main (args : List String) : IO UInt32 := do
  let files ← args.filterMapM Playhouse.CommandLine.readFile?
  let stdin ← (← IO.getStdin).readToEnd
  Playhouse.CommandLine.present
    (Playhouse.CommandLine.outcome Playhouse.CommandLine.rounds ⟨fun name => files.lookup name, stdin.toList⟩ args)
