import Microcode.Error
import Microcode.Text.Digit

/-!
Reading integers. `ofDigits` reads digits of one base with blanks around them, one sign and the
mark of the base in front; `read` accepts what a layout or stream file may write for a number: a
`0b`, `0x` or decimal numeral with underscores anywhere and a minus sign in front.
-/
namespace Microcode.Numeral

/-- The blanks that may stand around digits; the separators U+001C to U+001F may not. -/
def isMargin (c : Char) : Bool :=
  Text.isBlank c && !(0x1C ≤ c.toNat && c.toNat ≤ 0x1F)

/-- A character with every digit written in ASCII, every other blank as a space, and every other
character outside ASCII as a question mark, which no numeral holds. -/
def plainChar (c : Char) : Char :=
  if c.toNat < 127 then c
  else if Text.isBlank c then ' '
  else
    match Text.decimalDigit? c with
    | some d => Nat.digitChar d
    | none => '?'

def digitValue? (c : Char) : Option Nat :=
  let n := c.toNat
  if 48 ≤ n && n ≤ 57 then some (n - 48)
  else if 97 ≤ n && n ≤ 122 then some (n - 87)
  else if 65 ≤ n && n ≤ 90 then some (n - 55)
  else none

def isDigitOf (base : Nat) (c : Char) : Bool :=
  match digitValue? c with
  | some d => d < base
  | none => false

/-- The number that digits stand for, most significant first. -/
def digitsValue (base : Nat) (digits : List Char) : Nat :=
  digits.foldl (fun n c => n * base + (digitValue? c).getD 0) 0

/-- One sign at most; `true` for a minus. -/
def takeSign : List Char → Bool × List Char
  | '-' :: rest => (true, rest)
  | '+' :: rest => (false, rest)
  | s => (false, s)

def dropBaseMark (base : Nat) : List Char → List Char
  | '0' :: mark :: rest =>
    if (base == 2 && (mark == 'b' || mark == 'B')) || (base == 16 && (mark == 'x' || mark == 'X'))
    then rest
    else '0' :: mark :: rest
  | s => s

def negateIf (minus : Bool) (n : Int) : Int := if minus then -n else n

/-- Reads an integer in the given base. More than `maxDigits` decimal digits are refused before
anything after the digits is looked at. -/
def ofDigits (base : Nat) (s : List Char) : Except Error Int :=
  let (minus, body) := takeSign ((s.map plainChar).dropWhile isMargin)
  let body := dropBaseMark base body
  let digits := body.takeWhile (isDigitOf base)
  let rest := body.dropWhile (isDigitOf base)
  if base == 10 && maxDigits < digits.length then .error (.tooManyDigits digits.length)
  else if digits.isEmpty || !(rest.dropWhile isMargin).isEmpty then
    .error (.invalidLiteral base (String.ofList s))
  else .ok (negateIf minus (digitsValue base digits))

/-- Reads a numeral without a sign of its own: the digits after `0b` in base two, everything in
base sixteen after `0x`, everything in base ten otherwise. -/
def unsigned (s : List Char) : Except Error Int :=
  match s with
  | [] => .error Cause.emptyNumber.report
  | '0' :: mark :: rest =>
    if mark == 'b' || mark == 'B' then
      if rest.isEmpty then .error Cause.noBinaryDigits.report else ofDigits 2 rest
    else if mark == 'x' || mark == 'X' then
      if rest.isEmpty then .error Cause.noHexDigits.report else ofDigits 16 s
    else ofDigits 10 s
  | _ => ofDigits 10 s

/-- A numeral without blanks around it and without its underscores. -/
def compact (s : List Char) : List Char := (Text.trim s).filter (· != '_')

def readChars (s : List Char) : Except Error Int :=
  match compact s with
  | '-' :: rest => (unsigned rest).map (fun n => -n)
  | rest => unsigned rest

def read (s : String) : Except Error Int := readChars s.toList

/-- Whether every underscore stands between two decimal digits; `before` tells whether the
character in front is one. -/
def grouped (before : Bool) : List Char → Bool
  | [] => true
  | '_' :: c :: rest => before && (Text.decimalDigit? c).isSome && grouped true rest
  | '_' :: [] => false
  | c :: rest => grouped (Text.decimalDigit? c).isSome rest

def readGrouped? (s : String) : Option Int :=
  if grouped false s.toList then (ofDigits 10 (s.toList.filter (· != '_'))).toOption else none

end Microcode.Numeral
