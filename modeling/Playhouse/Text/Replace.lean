/-!
# Playhouse.Text.Replace — replacing and splitting at a pattern

Occurrences are found from left to right and do not overlap.
-/

namespace Playhouse.Text

/-- Replace the occurrences of `old` after the first `skip` characters, which are dropped. -/
def replaceFrom (old new : List Char) : Nat → List Char → List Char
  | _, [] => []
  | skip + 1, _ :: cs => replaceFrom old new skip cs
  | 0, c :: cs =>
    if old.isPrefixOf (c :: cs) then new ++ replaceFrom old new (old.length - 1) cs
    else c :: replaceFrom old new 0 cs

/-- Replace every occurrence of the nonempty pattern `old` by `new`. -/
def replaceAll (old new cs : List Char) : List Char := replaceFrom old new 0 cs

/-- The text before and after the last occurrence of `sep`, if there is one. -/
def splitAtLast? (sep : List Char) : List Char → Option (List Char × List Char)
  | [] => none
  | c :: cs =>
    match splitAtLast? sep cs with
    | some (before, after) => some (c :: before, after)
    | none => if sep.isPrefixOf (c :: cs) then some ([], (c :: cs).drop sep.length) else none

/-- The pieces of a text between the occurrences of the character `sep`. -/
def splitOnChar (sep : Char) : List Char → List (List Char)
  | [] => [[]]
  | c :: cs =>
    match splitOnChar sep cs with
    | [] => [[c]]
    | piece :: pieces => if c = sep then [] :: piece :: pieces else (c :: piece) :: pieces

/-- The texts in order, with `sep` between any two. -/
def joinWith (sep : List Char) : List (List Char) → List Char
  | [] => []
  | [s] => s
  | s :: t :: ss => s ++ sep ++ joinWith sep (t :: ss)

end Playhouse.Text
