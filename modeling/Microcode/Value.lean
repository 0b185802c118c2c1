import Microcode.Numeral.Decimal
import Microcode.Text.Basic
import Microcode.Text.Blank
import Microcode.Text.Quoted

/-!
Numbers as they are given, and what a producer can hand in for one. A number is an integer or a
truth value; a truth value counts as one or zero and keeps its own text. Anything else that is
handed in for a field is refused, and the refusal shows it.
-/
namespace Microcode

inductive Value where
  | int (n : Int)
  | flag (b : Bool)
  deriving DecidableEq, Repr

namespace Value

instance : Coe Int Value := ⟨int⟩

instance : Coe Nat Value := ⟨fun n => int n⟩

def toInt : Value → Int
  | int n => n
  | flag true => 1
  | flag false => 0

/-- Two values are the same when they count as the same number. -/
def same (a b : Value) : Bool := a.toInt == b.toInt

def text : Value → String
  | int n => Numeral.decimal n
  | flag true => "True"
  | flag false => "False"

def hex (v : Value) : String := Numeral.hex v.toInt

def numbers : Value → List Int
  | int n => [n]
  | flag _ => []

end Value

/-- Data of any shape, as a producer may hand it in. A decimal fraction is given by its sign, its
digits and the number of places after the point; zero has a sign, too. -/
inductive Datum where
  | absent
  | value (v : Value)
  | fraction (negative : Bool) (digits places : Nat)
  | infinite (negative : Bool)
  | notANumber
  | text (s : String)
  | list (items : List Datum)
  | record (entries : List (String × Datum))
  deriving Inhabited

namespace Datum

/-- Digits, most significant first, with a point after the first `point` of them. The point is
written out from four places before the digits to sixteen after their start; beyond that an
exponent is used. -/
def pointed (digits : List Char) (point : Int) : List Char :=
  if -4 < point ∧ point ≤ 16 then
    if point ≤ 0 then ['0', '.'] ++ List.replicate (-point).toNat '0' ++ digits
    else
      let whole := digits.take point.toNat
      let rest := digits.drop point.toNat
      whole ++ List.replicate (point.toNat - digits.length) '0' ++ ['.'] ++
        (if rest.isEmpty then ['0'] else rest)
  else
    let exponent := point - 1
    let lead := digits.take 1
    let rest := digits.drop 1
    lead ++ (if rest.isEmpty then [] else '.' :: rest) ++
      ['e', if exponent < 0 then '-' else '+'] ++ Text.paddedDigits 10 2 exponent.natAbs

def fractionText (digits places : Nat) : String :=
  if digits = 0 then "0.0"
  else
    let all := Nat.toDigits 10 digits
    let shown := (all.reverse.dropWhile (· == '0')).reverse
    String.ofList (pointed shown ((all.length : Int) - places))

def minusIf (negative : Bool) (text : String) : String := if negative then "-" ++ text else text

mutual

def shown : Datum → String
  | absent => "None"
  | value v => v.text
  | fraction negative digits places => minusIf negative (fractionText digits places)
  | infinite negative => minusIf negative "inf"
  | notANumber => "nan"
  | text s => Text.quote s
  | list items => "[" ++ Text.joinWith ", " (shownItems items) ++ "]"
  | record entries => "\x7b" ++ Text.joinWith ", " (shownEntries entries) ++ "\x7d"

def shownItems : List Datum → List String
  | [] => []
  | d :: rest => d.shown :: shownItems rest

def shownEntries : List (String × Datum) → List String
  | [] => []
  | (key, d) :: rest => (Text.quote key ++ ": " ++ d.shown) :: shownEntries rest

end

/-- The text of a datum on its own: a text stands without quotes. -/
def plainText : Datum → String
  | text s => s
  | other => other.shown

mutual

def numbers : Datum → List Int
  | value v => v.numbers
  | list items => itemNumbers items
  | record entries => entryNumbers entries
  | _ => []

def itemNumbers : List Datum → List Int
  | [] => []
  | d :: rest => d.numbers ++ itemNumbers rest

def entryNumbers : List (String × Datum) → List Int
  | [] => []
  | (_, d) :: rest => d.numbers ++ entryNumbers rest

end

end Datum

end Microcode
