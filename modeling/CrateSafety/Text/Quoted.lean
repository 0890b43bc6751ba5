import CrateSafety.Text.Class

/-!
# Quoted texts

A text between single quotes, or between double quotes when it holds a single quote and no double one.
The quote, the backslash and characters without a printed form are written as escapes.
-/

namespace CrateSafety.Text

/-- The single quote. -/
def singleQuote : Char := Char.ofNat 39

/-- The double quote. -/
def doubleQuote : Char := Char.ofNat 34

/-- A number in lower-case hexadecimal, padded with zeros to a width. -/
def hexadecimal (width n : Nat) : List Char :=
  let ds := Nat.toDigits 16 n
  List.replicate (width - ds.length) '0' ++ ds

/-- The escape of a code point by its number. -/
def numberEscape (n : Nat) : List Char :=
  if n < 0x100 then '\\' :: 'x' :: hexadecimal 2 n
  else if n < 0x10000 then '\\' :: 'u' :: hexadecimal 4 n
  else '\\' :: 'U' :: hexadecimal 8 n

/-- A character of a quoted text; `hidden` tells which characters are escaped by their number. -/
def quotedChar (hidden : Char → Bool) (quote c : Char) : List Char :=
  if c == quote || c == '\\' then ['\\', c]
  else if c == '\n' then ['\\', 'n']
  else if c == '\r' then ['\\', 'r']
  else if c == '\t' then ['\\', 't']
  else if hidden c then numberEscape c.toNat
  else [c]

/-- The quote that a text is written with. -/
def quoteFor (cs : List Char) : Char :=
  if cs.contains singleQuote && !cs.contains doubleQuote then doubleQuote else singleQuote

/-- A text in quotes, with the given class of escaped characters. -/
def quotedWith (hidden : Char → Bool) (cs : List Char) : List Char :=
  let quote := quoteFor cs
  quote :: cs.flatMap (quotedChar hidden quote) ++ [quote]

/-- A text in quotes. -/
def quoted (cs : List Char) : List Char :=
  quotedWith isHidden cs

/-- A text in quotes with ASCII characters only. -/
def quotedAscii (cs : List Char) : List Char :=
  quotedWith (fun c => isHidden c || 128 ≤ c.toNat) cs

end CrateSafety.Text
