import Microcode.Text.Printable

/-!
Text shown in quotes. Single quotes are used unless the text holds a single quote and no double
one; a backslash, the quote in use and every character without a visible form become escapes.
-/
namespace Microcode.Text

/-- A number in the given base, in lower-case digits, with zeros in front up to a length. -/
def paddedDigits (base length n : Nat) : List Char :=
  let digits := Nat.toDigits base n
  List.replicate (length - digits.length) '0' ++ digits

def quoteMark (s : List Char) : Char :=
  if s.contains '\'' && !s.contains '"' then '"' else '\''

/-- The escape of a character by its number, with two, four or eight digits. -/
def numberedEscape (code : Nat) : List Char :=
  if code < 0x100 then '\\' :: 'x' :: paddedDigits 16 2 code
  else if code < 0x10000 then '\\' :: 'u' :: paddedDigits 16 4 code
  else '\\' :: 'U' :: paddedDigits 16 8 code

def escapeChar (mark c : Char) : List Char :=
  if c == '\\' || c == mark then ['\\', c]
  else if c == '\n' then ['\\', 'n']
  else if c == '\r' then ['\\', 'r']
  else if c == '\t' then ['\\', 't']
  else if isPrintable c then [c]
  else numberedEscape c.toNat

def quoteChars (s : List Char) : List Char :=
  let mark := quoteMark s
  mark :: s.flatMap (escapeChar mark) ++ [mark]

def quote (s : String) : String := String.ofList (quoteChars s.toList)

end Microcode.Text
