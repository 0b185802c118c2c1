import Microcode.Builder
import Microcode.Numeral.Reader

/-!
Stream files. Every line of text with a word on it feeds one microcode line: a word with an equals
sign assigns an immediate value to the stem before it, every other word is a name of the
instruction stream.
-/
namespace Microcode

def cutAtEquals (word : String) : Option (String × String) :=
  let chars := word.toList
  if chars.contains '=' then
    some (String.ofList (chars.takeWhile (· != '=')),
      String.ofList ((chars.dropWhile (· != '=')).drop 1))
  else none

namespace Builder

/-- The immediate value of a word; one that cannot be read is reported with the word. -/
def immediate (b : Builder) (lineNumber : Nat) (word stem text : String) : Except Error Int :=
  (Numeral.read text).mapError fun e =>
    if e.isBadNumeral then
      Fault.report ⟨.invalidImmediate word stem, some (b.lines.length : Nat), some lineNumber⟩
    else e

def readWord (b : Builder) (lineNumber : Nat) (word : String) : Outcome Unit :=
  match cutAtEquals word with
  | some (stem, text) =>
    match b.immediate lineNumber word stem text with
    | .error e => b.done (.error e)
    | .ok n => b.assignValue stem (.value (.int n))
  | none => b.entry false word

def readWords (b : Builder) (lineNumber : Nat) : List String → Outcome Unit
  | [] => b.done (.ok ())
  | word :: rest =>
    (b.readWord lineNumber word).andThen fun _ after => after.readWords lineNumber rest

def readLine (b : Builder) (lineNumber : Nat) (raw : String) : Outcome Unit :=
  let line := Text.stripComment raw
  if line = "" then b.done (.ok ())
  else
    ({ b with sourceLine := some lineNumber }.readWords lineNumber (Text.wordsOf line)).andThen
      fun _ after => after.endLine

def readFrom (b : Builder) (lineNumber : Nat) : List String → Outcome Unit
  | [] => b.done (.ok ())
  | raw :: rest =>
    (b.readLine lineNumber raw).andThen fun _ after => after.readFrom (lineNumber + 1) rest

def readStream (b : Builder) (lines : List String) (verbose : Bool) : Outcome Nat :=
  (b.readFrom 1 lines).andThen fun _ after =>
    let count := after.lines.length
    ⟨.ok count, { after with sourceLine := none },
      if verbose then [.notice (.streamRead count after.labels.length)] else []⟩

end Builder

end Microcode
