import Pigeon.Text.Digit
import Pigeon.Text.Quoted

/-!
# Reading numerals

An integer numeral is an optional sign and decimal digits of any script, where single underscores
may stand between two digits. A real numeral has digits before or after a point, or both, and an
optional exponent; `inf`, `infinity` and `nan` are real numerals too, in any case.
-/

namespace Pigeon

/-- Why a text is no numeral. -/
inductive NumeralError where
  | notAnInt (text : String)
  | notAFloat (text : String)
  /-- The text has more digits than an integer numeral may have. -/
  | tooManyDigits (count : Nat)
  deriving DecidableEq, Repr

namespace Numeral

/-- The largest number of digits of an integer numeral. -/
def maxDigits : Nat := 4300

/-- The largest number of characters of a text that is shown as no integer numeral, quotes
included. -/
def maxShown : Nat := 200

/-- The quoted text, cut off at the limit. -/
def shown (text : String) : String :=
  String.ofList ((Text.quoteChars text.toList).take maxShown)

end Numeral

/-- The text of the error. -/
def NumeralError.message : NumeralError → String
  | .notAnInt text => s!"invalid literal for int() with base 10: {Numeral.shown text}"
  | .notAFloat text => s!"could not convert string to float: {Text.quoted text}"
  | .tooManyDigits count =>
    s!"Exceeds the limit ({Numeral.maxDigits} digits) for integer string conversion: " ++
      s!"value has {count} digits; use sys.set_int_max_str_digits() to increase the limit"

namespace Numeral

/-- The values of the digits at the beginning, where one underscore may stand between two digits,
and what follows them. The first digit has been read if `more` holds. -/
def readDigits (more : Bool) : List Char → List Nat × List Char
  | [] => ([], [])
  | '_' :: c :: cs =>
    match more, Text.digitValue? c with
    | true, some d => let (ds, rest) := readDigits true cs; (d :: ds, rest)
    | _, _ => ([], '_' :: c :: cs)
  | c :: cs =>
    match Text.digitValue? c with
    | some d => let (ds, rest) := readDigits true cs; (d :: ds, rest)
    | none => ([], c :: cs)

/-- The number that the digits stand for. -/
def ofDigits (ds : List Nat) : Nat :=
  ds.foldl (fun n d => 10 * n + d) 0

/-- An optional sign, true for minus, and what follows it. -/
def readSign : List Char → Bool × List Char
  | '-' :: cs => (true, cs)
  | '+' :: cs => (false, cs)
  | cs => (false, cs)

/-- Reads an integer numeral. -/
def readInt (text : String) : Except NumeralError Int :=
  let (negative, cs) := readSign text.toList
  let (ds, rest) := readDigits false cs
  if maxDigits < ds.length then .error (.tooManyDigits ds.length)
  else if ds.isEmpty || !rest.isEmpty then .error (.notAnInt text)
  else .ok (if negative then -(ofDigits ds : Int) else ofDigits ds)

/-- Infinity. -/
def infinity : Float := 1.0 / 0.0

/-- The double nearest to `n * 10 ^ e`, which is zero or infinite far outside the range of
doubles. -/
def toFloat (n : Nat) (e : Int) : Float :=
  let size : Int := (Nat.toDigits 10 n).length + e
  if n = 0 || size < -400 then 0.0
  else if 400 < size then infinity
  else if 0 ≤ e then Float.ofScientific n false e.toNat
  else Float.ofScientific n true (-e).toNat

/-- The words for infinity and for an undefined number. -/
def readWord? (cs : List Char) : Option Float :=
  match String.ofList (cs.map Char.toLower) with
  | "inf" | "infinity" => some infinity
  | "nan" => some (0.0 / 0.0)
  | _ => none

/-- An optional exponent; a mark without digits is left unread. -/
def readExponent (cs : List Char) : Int × List Char :=
  match cs with
  | c :: more =>
    if c = 'e' || c = 'E' then
      let (negative, digits) := readSign more
      match readDigits false digits with
      | ([], _) => (0, cs)
      | (ds, rest) => (if negative then -(ofDigits ds : Int) else ofDigits ds, rest)
    else (0, cs)
  | [] => (0, cs)

/-- The digits after a point, if there is one. -/
def readFraction : List Char → List Nat × List Char
  | '.' :: cs => readDigits false cs
  | cs => ([], cs)

/-- The unsigned real numeral that makes up all of the text. -/
def readUnsigned? (cs : List Char) : Option Float :=
  let (whole, rest) := readDigits false cs
  let (fraction, rest) := readFraction rest
  if whole.isEmpty && fraction.isEmpty then readWord? cs
  else
    match readExponent rest with
    | (e, []) => some (toFloat (ofDigits (whole ++ fraction)) (e - fraction.length))
    | (_, _ :: _) => none

/-- Reads a real numeral. -/
def readFloat (text : String) : Except NumeralError Float :=
  let (negative, cs) := readSign text.toList
  match readUnsigned? cs with
  | some x => .ok (if negative then -x else x)
  | none => .error (.notAFloat text)

end Numeral

end Pigeon
