import Playhouse.Text.Printable

/-!
# Playhouse.Text.Quoted — texts between quotes, with escapes

A text is shown between single quotes, or between double quotes when it holds a single quote and no double one.
What is not printable is shown by an escape. Texts are lists of code points here, because a code that is no
character (a surrogate) can be shown too.
-/

namespace Playhouse.Text

/-- The lower case hexadecimal digits of `n`, filled with zeros to `width` places. -/
def hexDigits (width n : Nat) : List Char :=
  let ds := Nat.toDigits 16 n
  List.replicate (width - ds.length) '0' ++ ds

/-- One code point inside quotes of the kind `quote`. -/
def escapeCode (quote n : Nat) : List Char :=
  if n = quote ∨ n = 92 then ['\\', Char.ofNat n]
  else if n = 10 then ['\\', 'n']
  else if n = 13 then ['\\', 'r']
  else if n = 9 then ['\\', 't']
  else if isPrintable n then [Char.ofNat n]
  else if n < 0x100 then '\\' :: 'x' :: hexDigits 2 n
  else if n < 0x10000 then '\\' :: 'u' :: hexDigits 4 n
  else '\\' :: 'U' :: hexDigits 8 n

/-- The quote (a code point) that a text is shown between. -/
def quoteFor (codes : List Nat) : Nat :=
  if codes.contains 39 && !codes.contains 34 then 34 else 39

/-- A list of code points between quotes. -/
def quotedCodes (codes : List Nat) : List Char :=
  let q := quoteFor codes
  Char.ofNat q :: codes.flatMap (escapeCode q) ++ [Char.ofNat q]

/-- A text between quotes. -/
def quoted (s : String) : String := String.ofList (quotedCodes (s.toList.map Char.toNat))

end Playhouse.Text
