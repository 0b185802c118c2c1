/-!
Blanks, words and comments of the two text formats. Everything works on lists of characters, so
that each rule is one recursion.
-/
namespace Microcode.Text

/-- Blanks are the white space of every script and the four separators U+001C to U+001F. A
zero-width space and a byte-order mark are no blanks. -/
def isBlank (c : Char) : Bool :=
  let n := c.toNat
  (9 ≤ n && n ≤ 13) || (0x1C ≤ n && n ≤ 0x20) || n == 0x85 || n == 0xA0 || n == 0x1680 ||
    (0x2000 ≤ n && n ≤ 0x200A) || n == 0x2028 || n == 0x2029 || n == 0x202F || n == 0x205F ||
    n == 0x3000

def trimLeft (s : List Char) : List Char := s.dropWhile isBlank

def trimRight (s : List Char) : List Char := (s.reverse.dropWhile isBlank).reverse

def trim (s : List Char) : List Char := trimRight (trimLeft s)

/-- The pieces between separators, empty ones included: there is always one more piece than there
are separators. -/
def pieces (isSeparator : Char → Bool) : List Char → List (List Char)
  | [] => [[]]
  | c :: rest =>
    if isSeparator c then [] :: pieces isSeparator rest
    else
      match pieces isSeparator rest with
      | [] => [[c]]
      | piece :: others => (c :: piece) :: others

theorem pieces_append {isSeparator : Char → Bool} {piece : List Char} {c : Char}
    (solid : ∀ d ∈ piece, isSeparator d = false) (separates : isSeparator c = true)
    (rest : List Char) :
    pieces isSeparator (piece ++ c :: rest) = piece :: pieces isSeparator rest := by
  induction piece with
  | nil => exact if_pos separates
  | cons d later ih =>
    obtain ⟨here, there⟩ := List.forall_mem_cons.mp solid
    rw [List.cons_append, pieces, ih there, here]
    rfl

/-- The maximal runs without a blank, in order. -/
def words (s : List Char) : List (List Char) :=
  (pieces isBlank s).filter (fun piece => !piece.isEmpty)

/-- The text before the first pair of slashes, all of it if there is none. -/
def beforeComment : List Char → List Char
  | [] => []
  | '/' :: '/' :: _ => []
  | c :: rest => c :: beforeComment rest

def stripCommentChars (s : List Char) : List Char := trimRight (beforeComment (trim s))

def stripComment (s : String) : String := String.ofList (stripCommentChars s.toList)

def wordsOf (s : String) : List String := (words s.toList).map String.ofList

end Microcode.Text
