import Pigeon.Text.Printable

/-!
# Quoted text

A text is quoted by single quotes, or by double quotes if it holds a single quote and no double
one. The quote and the backslash are escaped, line feed, carriage return and tab have short
escapes, and every other unprintable character is written by its code point in lower-case
hexadecimal digits.
-/

namespace Pigeon.Text

/-- The quote that surrounds the text. -/
def quoteFor (cs : List Char) : Char :=
  if cs.contains '\'' && !cs.contains '"' then '"' else '\''

/-- `n` in hexadecimal, with leading zeros up to `width` digits. -/
def hexDigits (width n : Nat) : List Char :=
  let digits := Nat.toDigits 16 n
  List.replicate (width - digits.length) '0' ++ digits

/-- The escape of an unprintable character by its code point. -/
def codePointEscape (n : Nat) : List Char :=
  if n < 0x100 then '\\' :: 'x' :: hexDigits 2 n
  else if n < 0x10000 then '\\' :: 'u' :: hexDigits 4 n
  else '\\' :: 'U' :: hexDigits 8 n

/-- One character as it is written between two of the given quotes. -/
def escapeChar (quote c : Char) : List Char :=
  if c = quote || c = '\\' then ['\\', c]
  else if c = '\n' then ['\\', 'n']
  else if c = '\r' then ['\\', 'r']
  else if c = '\t' then ['\\', 't']
  else if isPrintable c then [c]
  else codePointEscape c.toNat

/-- The characters between quotes. -/
def quoteChars (cs : List Char) : List Char :=
  let quote := quoteFor cs
  quote :: cs.flatMap (escapeChar quote) ++ [quote]

/-- The text between quotes. -/
def quoted (s : String) : String :=
  String.ofList (quoteChars s.toList)

end Pigeon.Text
