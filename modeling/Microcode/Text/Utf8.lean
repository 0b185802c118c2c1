import Microcode.Text.Blank

/-!
Decoding files. Bytes are read in blocks; a character cut by the end of a block is carried into the
next one, and a fault gives its position in the block being read, what was carried into it
included. Lines end with a line feed, a carriage return or both.
-/
namespace Microcode.Text

inductive Utf8Reason where
  | startByte
  | continuationByte
  | endOfData
  deriving DecidableEq, Repr

def Utf8Reason.text : Utf8Reason → String
  | startByte => "invalid start byte"
  | continuationByte => "invalid continuation byte"
  | endOfData => "unexpected end of data"

structure Utf8Fault where
  position : Nat
  bytes : List UInt8
  reason : Utf8Reason
  deriving DecidableEq, Repr

def Utf8Fault.message (f : Utf8Fault) : String :=
  match f.bytes with
  | [b] =>
    let shown := String.ofList (paddedByte b)
    s!"'utf-8' codec can't decode byte 0x{shown} in position {f.position}: {f.reason.text}"
  | bytes =>
    let last := f.position + bytes.length - 1
    s!"'utf-8' codec can't decode bytes in position {f.position}-{last}: {f.reason.text}"
where
  paddedByte (b : UInt8) : List Char :=
    let digits := Nat.toDigits 16 b.toNat
    List.replicate (2 - digits.length) '0' ++ digits

def isTail (b : UInt8) : Bool := 0x80 ≤ b && b ≤ 0xBF

/-- Whether a byte may follow the first byte of a character of three bytes: neither a longer form
than needed nor half of a surrogate pair begins so. -/
def isSecondOfThree (a b : UInt8) : Bool :=
  isTail b && !(a == 0xE0 && b < 0xA0) && !(a == 0xED && 0xA0 ≤ b)

/-- Whether a byte may follow the first byte of a character of four bytes: neither a longer form
than needed nor a number above the last character begins so. -/
def isSecondOfFour (a b : UInt8) : Bool :=
  isTail b && !(a == 0xF0 && b < 0x90) && !(a == 0xF4 && 0x90 ≤ b)

/-- Whether two bytes begin half of a surrogate pair, which is no character. -/
def isHalfPair (a b : UInt8) : Bool := a == 0xED && 0xA0 ≤ b && b ≤ 0xBF

def tailBits (b : UInt8) : Nat := b.toNat % 64

/-- Decodes bytes from a position on: the characters, and the bytes of a character that is cut at
the end. The first two bytes of half of a surrogate pair count as cut there, too. -/
def decodeFrom (position : Nat) : List UInt8 → Except Utf8Fault (List Char × List UInt8)
  | [] => .ok ([], [])
  | a :: rest =>
    if a < 0x80 then
      (decodeFrom (position + 1) rest).map fun (s, cut) => (Char.ofNat a.toNat :: s, cut)
    else if a < 0xC2 || 0xF5 ≤ a then .error ⟨position, [a], .startByte⟩
    else
      match rest with
      | [] => .ok ([], [a])
      | b :: rest =>
        if a < 0xE0 then
          if isTail b then
            (decodeFrom (position + 2) rest).map fun (s, cut) =>
              (Char.ofNat (a.toNat % 32 * 64 + tailBits b) :: s, cut)
          else .error ⟨position, [a], .continuationByte⟩
        else if a < 0xF0 then
          if isSecondOfThree a b then
            match rest with
            | [] => .ok ([], [a, b])
            | c :: rest =>
              if isTail c then
                (decodeFrom (position + 3) rest).map fun (s, cut) =>
                  (Char.ofNat ((a.toNat % 16 * 64 + tailBits b) * 64 + tailBits c) :: s, cut)
              else .error ⟨position, [a, b], .continuationByte⟩
          else if isHalfPair a b && rest.isEmpty then .ok ([], [a, b])
          else .error ⟨position, [a], .continuationByte⟩
        else if isSecondOfFour a b then
          match rest with
          | [] => .ok ([], [a, b])
          | c :: rest =>
            if isTail c then
              match rest with
              | [] => .ok ([], [a, b, c])
              | d :: rest =>
                if isTail d then
                  (decodeFrom (position + 4) rest).map fun (s, cut) =>
                    (Char.ofNat (((a.toNat % 8 * 64 + tailBits b) * 64 + tailBits c) * 64 +
                      tailBits d) :: s, cut)
                else .error ⟨position, [a, b, c], .continuationByte⟩
            else .error ⟨position, [a, b], .continuationByte⟩
        else .error ⟨position, [a], .continuationByte⟩

def blockSize : Nat := 8192

def blocks (bytes : List UInt8) : List (List UInt8) :=
  if bytes.isEmpty then [] else bytes.take blockSize :: blocks (bytes.drop blockSize)
termination_by bytes.length
decreasing_by
  have : 0 < bytes.length := by
    cases bytes with
    | nil => simp at *
    | cons _ _ => simp
  simp only [List.length_drop, blockSize]
  omega

/-- The fault of bytes that are still cut at the end of a file. -/
def cutFault (carried : List UInt8) : Utf8Fault :=
  match carried with
  | [a, b] =>
    if isHalfPair a b then ⟨0, [a], .continuationByte⟩ else ⟨0, [a, b], .endOfData⟩
  | _ => ⟨0, carried, .endOfData⟩

def decodeBlocks (carried : List UInt8) : List (List UInt8) → Except Utf8Fault (List Char)
  | [] => if carried.isEmpty then .ok [] else .error (cutFault carried)
  | block :: rest => do
    let (s, cut) ← decodeFrom 0 (carried ++ block)
    let others ← decodeBlocks cut rest
    return s ++ others

def decode (bytes : List UInt8) : Except Utf8Fault (List Char) := decodeBlocks [] (blocks bytes)

def encode (s : String) : List UInt8 := s.toUTF8.data.toList

/-- A text with a line feed for every other end of a line. -/
def unifyLineEnds : List Char → List Char
  | [] => []
  | '\r' :: '\n' :: rest => '\n' :: unifyLineEnds rest
  | '\r' :: rest => '\n' :: unifyLineEnds rest
  | c :: rest => c :: unifyLineEnds rest

/-- The lines of a text; a line feed at its very end begins no further line. -/
def linesOf (s : List Char) : List String :=
  let all := pieces (· == '\n') (unifyLineEnds s)
  (if all.getLast? = some [] then all.dropLast else all).map String.ofList

end Microcode.Text
