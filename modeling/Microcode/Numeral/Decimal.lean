/-!
Integers as text. Decimal text is limited to 4300 digits, and whoever prints a number has to ask
`fits` first; hexadecimal text has no limit.
-/
namespace Microcode.Numeral

/-- The most digits a decimal text may have, read or written. -/
def maxDigits : Nat := 4300

def fits (n : Int) : Bool := n.natAbs < Nat.pow 10 maxDigits

def signed (n : Int) (digits : List Char) : List Char :=
  if n < 0 then '-' :: digits else digits

def decimalChars (n : Int) : List Char := signed n (Nat.toDigits 10 n.natAbs)

def decimal (n : Int) : String := String.ofList (decimalChars n)

/-- Hexadecimal in capitals, without a base mark. -/
def hex (n : Int) : String :=
  String.ofList (signed n ((Nat.toDigits 16 n.natAbs).map Char.toUpper))

/-- Hexadecimal in small letters, with zeros after the sign up to the given length. -/
def paddedHex (length : Nat) (n : Int) : String :=
  let digits := Nat.toDigits 16 n.natAbs
  let room := if n < 0 then length - 1 else length
  String.ofList (signed n (List.replicate (room - digits.length) '0' ++ digits))

end Microcode.Numeral
