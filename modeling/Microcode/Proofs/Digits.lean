import Microcode.Proofs.StreamGrammar
import Mathlib.Data.List.TakeWhile
import Mathlib.Data.Nat.Digits.Defs
import Mathlib.Tactic.Ring

/-!
Digits on their own. A reader of digits takes the decimal digits of every script for the ASCII ones,
drops blanks around what it is given, and takes a sign and the mark of its base in front of the
digits. What it accepts is described here by the parts of the text (`Loose`), without the order in
which the reader takes them off.
-/
namespace Microcode.Numeral

/-- The number that a character stands for as a digit: the decimal digits of every script, and the
letters from A to F. -/
inductive DigitOf (c : Char) : Nat → Prop where
  | decimal {d : Nat} (digit : Text.decimalDigit? c = some d) : DigitOf c d
  | letter {i : Nat} (latin : c.toNat = 'a'.toNat + i ∨ c.toNat = 'A'.toNat + i) (few : i < 6) :
      DigitOf c (10 + i)

/-- Digits of a base, most significant first, and the number they stand for. -/
def Digits (base : Nat) (s : List Char) (n : Nat) : Prop :=
  s ≠ [] ∧ ∃ ds, List.Forall₂ (fun c d => DigitOf c d ∧ d < base) s ds ∧
    Nat.ofDigits base ds.reverse = n

/-! Characters. -/

theorem decimalDigit_lt {c : Char} {d : Nat} (digit : Text.decimalDigit? c = some d) : d < 10 := by
  obtain ⟨z, found, rfl⟩ := Option.map_eq_some_iff.mp digit
  have within := List.find?_some found
  simp only [Bool.and_eq_true, decide_eq_true_eq] at within
  omega

/-- In ASCII the decimal digits are the usual ten. -/
theorem decimalDigit_ascii {c : Char} (ascii : c.toNat < 127) :
    Text.decimalDigit? c = if 48 ≤ c.toNat ∧ c.toNat ≤ 57 then some (c.toNat - 48) else none := by
  have table : ∀ n < 127, (Text.zeros.find? fun z => z ≤ n && n < z + 10).map (n - ·) =
      if 48 ≤ n ∧ n ≤ 57 then some (n - 48) else none := by decide +kernel
  exact table c.toNat ascii

theorem isBlank_of_digit {c : Char} {d : Nat} (digit : Text.decimalDigit? c = some d) :
    Text.isBlank c = false := by
  have table : ∀ z ∈ Text.zeros, ∀ k < 10, Text.isBlank (Char.ofNat (z + k)) = false := by
    decide +kernel
  obtain ⟨z, found, rfl⟩ := Option.map_eq_some_iff.mp digit
  have within := List.find?_some found
  simp only [Bool.and_eq_true, decide_eq_true_eq] at within
  have clear := table z (List.mem_of_find?_eq_some found) (c.toNat - z) (by omega)
  rwa [Nat.add_sub_cancel' within.1, Char.ofNat_toNat] at clear

inductive ReadAs (c : Char) : Char → Prop where
  | ascii (low : c.toNat < 127) : ReadAs c c
  | blank (high : 127 ≤ c.toNat) (blank : Text.isBlank c = true) : ReadAs c ' '
  | digit {d : Nat} (high : 127 ≤ c.toNat) (digit : Text.decimalDigit? c = some d) :
      ReadAs c (Nat.digitChar d)
  | other (high : 127 ≤ c.toNat) (solid : Text.isBlank c = false)
      (none : Text.decimalDigit? c = none) : ReadAs c '?'

theorem plainChar_readAs (c : Char) : ReadAs c (plainChar c) := by
  unfold plainChar
  by_cases low : c.toNat < 127
  · rw [if_pos low]
    exact .ascii low
  · have high := Nat.le_of_not_lt low
    rw [if_neg low]
    cases blank : Text.isBlank c with
    | true => exact .blank high blank
    | false =>
      cases digit : Text.decimalDigit? c with
      | none => exact .other high blank digit
      | some d => exact .digit high digit

theorem plainChar_ascii {c : Char} (low : c.toNat < 127) : plainChar c = c := if_pos low

theorem digitChar_read {d : Nat} (few : d < 10) :
    digitValue? (Nat.digitChar d) = some d ∧ isMargin (Nat.digitChar d) = false := by
  have table : ∀ d < 10,
      digitValue? (Nat.digitChar d) = some d ∧ isMargin (Nat.digitChar d) = false := by decide
  exact table d few

theorem isMargin_high {c : Char} (high : 127 ≤ c.toNat) : isMargin c = Text.isBlank c := by
  have above : ¬ c.toNat ≤ 0x1F := by omega
  simp [isMargin, above]

theorem isMargin_plainChar (c : Char) : isMargin (plainChar c) = isMargin c := by
  have read := plainChar_readAs c
  generalize plainChar c = p at read
  cases read with
  | ascii low => rfl
  | blank high blank =>
    rw [isMargin_high high, blank]
    rfl
  | digit high digit =>
    rw [isMargin_high high, isBlank_of_digit digit, (digitChar_read (decimalDigit_lt digit)).2]
  | other high solid none =>
    rw [isMargin_high high, solid]
    rfl

theorem digitValue_decimal {c : Char} {d : Nat} (digit : Text.decimalDigit? c = some d) :
    digitValue? (plainChar c) = some d := by
  have read := plainChar_readAs c
  generalize plainChar c = p at read
  cases read with
  | ascii low =>
    rw [decimalDigit_ascii low] at digit
    split at digit
    · rename_i within
      cases digit
      simp [digitValue?, within]
    · cases digit
  | blank high blank => cases blank.symm.trans (isBlank_of_digit digit)
  | digit high digit' =>
    cases digit.symm.trans digit'
    exact (digitChar_read (decimalDigit_lt digit)).1
  | other high solid none => cases none.symm.trans digit

theorem digitValue_letter {c : Char} {i : Nat}
    (latin : c.toNat = 'a'.toNat + i ∨ c.toNat = 'A'.toNat + i) (few : i < 6) :
    digitValue? (plainChar c) = some (10 + i) := by
  have small : 'a'.toNat = 97 := rfl
  have capital : 'A'.toNat = 65 := rfl
  rw [plainChar_ascii (by omega)]
  simp only [digitValue?, Bool.and_eq_true, decide_eq_true_eq]
  rw [if_neg (by omega)]
  split
  · exact congrArg some (by omega)
  · rw [if_pos (by omega)]
    exact congrArg some (by omega)

theorem digitOf_iff {c : Char} {d : Nat} :
    DigitOf c d ↔ digitValue? (plainChar c) = some d ∧ d < 16 := by
  constructor
  · intro stands
    cases stands with
    | decimal digit => exact ⟨digitValue_decimal digit, by have := decimalDigit_lt digit; omega⟩
    | letter latin few => exact ⟨digitValue_letter latin few, by omega⟩
  · rintro ⟨value, few⟩
    have read := plainChar_readAs c
    generalize plainChar c = p at read value
    cases read with
    | ascii low =>
      have small : 'a'.toNat = 97 := rfl
      have capital : 'A'.toNat = 65 := rfl
      simp only [digitValue?, Bool.and_eq_true, decide_eq_true_eq] at value
      split at value
      · rename_i within
        apply DigitOf.decimal
        rw [decimalDigit_ascii low, if_pos within, value]
      · -- a letter stands for ten more than its place in the alphabet
        have place : d = 10 + (d - 10) ∧ d - 10 < 6 ∧
            (c.toNat = 'a'.toNat + (d - 10) ∨ c.toNat = 'A'.toNat + (d - 10)) := by
          split at value
          · cases value
            omega
          · split at value
            · cases value
              omega
            · cases value
        rw [place.1]
        exact .letter place.2.2 place.2.1
    | blank high blank => cases value
    | digit high digit =>
      cases (digitChar_read (decimalDigit_lt digit)).1.symm.trans value
      exact .decimal digit
    | other high solid none => cases value

/-! Digits. -/

theorem isDigitOf_iff {base : Nat} {c : Char} :
    isDigitOf base c = true ↔ ∃ d, digitValue? c = some d ∧ d < base := by
  unfold isDigitOf
  cases digitValue? c <;> simp

theorem digitsValue_along {base : Nat} {s : List Char} {ds : List Nat}
    (stand : List.Forall₂ (fun c d => DigitOf c d ∧ d < base) s ds) (n : Nat) :
    (s.map plainChar).foldl (fun n c => n * base + (digitValue? c).getD 0) n =
      n * base ^ ds.length + Nat.ofDigits base ds.reverse := by
  induction stand generalizing n with
  | nil => simp
  | cons here _ ih =>
    rw [List.map_cons, List.foldl_cons, ih, (digitOf_iff.mp here.1).1, List.reverse_cons,
      Nat.ofDigits_append, Nat.ofDigits_singleton, List.length_reverse, List.length_cons]
    simp only [Option.getD_some]
    ring

theorem digits_iff {base : Nat} (few : base ≤ 16) {s : List Char} {n : Nat} :
    Digits base s n ↔ s ≠ [] ∧ (∀ c ∈ s, isDigitOf base (plainChar c) = true) ∧
      digitsValue base (s.map plainChar) = n := by
  have read : ∀ c, isDigitOf base (plainChar c) = true ↔ ∃ d, DigitOf c d ∧ d < base := by
    intro c
    rw [isDigitOf_iff]
    constructor
    · rintro ⟨d, value, below⟩
      exact ⟨d, digitOf_iff.mpr ⟨value, by omega⟩, below⟩
    · rintro ⟨d, stands, below⟩
      exact ⟨d, (digitOf_iff.mp stands).1, below⟩
  have value : ∀ {ds : List Nat}, List.Forall₂ (fun c d => DigitOf c d ∧ d < base) s ds →
      digitsValue base (s.map plainChar) = Nat.ofDigits base ds.reverse := by
    intro ds stand
    rw [digitsValue, digitsValue_along stand, Nat.zero_mul, Nat.zero_add]
  constructor
  · rintro ⟨full, ds, stand, rfl⟩
    refine ⟨full, ?_, value stand⟩
    intro c member
    obtain ⟨d, _, here⟩ := along_mem stand.flip member
    exact (read c).mpr ⟨d, here⟩
  · rintro ⟨full, each, rfl⟩
    obtain ⟨ds, stand⟩ := exists_along fun c member => (read c).mp (each c member)
    exact ⟨full, ds, stand, (value stand).symm⟩

theorem digitValue_apart {c : Char} {d : Nat} (value : digitValue? c = some d) :
    isMargin c = false ∧ c ≠ '+' ∧ c ≠ '-' := by
  have within : 48 ≤ c.toNat ∧ c.toNat ≤ 122 := by
    simp only [digitValue?, Bool.and_eq_true, decide_eq_true_eq] at value
    split at value
    · omega
    · split at value
      · omega
      · split at value
        · omega
        · cases value
  refine ⟨?_, ?_, ?_⟩
  · have solid : Text.isBlank c = false := by
      simp only [Text.isBlank, Bool.or_eq_false_iff, Bool.and_eq_false_iff, decide_eq_false_iff_not,
        beq_eq_false_iff_ne]
      omega
    rw [isMargin, solid, Bool.false_and]
  · rintro rfl
    exact absurd within.1 (by decide)
  · rintro rfl
    exact absurd within.1 (by decide)

/-! Digits on their own. -/

def Margin (s : List Char) : Prop := ∀ c ∈ s, isMargin c = true

inductive Sign : List Char → Bool → Prop where
  | absent : Sign [] false
  | plus : Sign ['+'] false
  | minus : Sign ['-'] true

def IsMark (base : Nat) (c : Char) : Prop :=
  base = 2 ∧ (c = 'b' ∨ c = 'B') ∨ base = 16 ∧ (c = 'x' ∨ c = 'X')

inductive Mark (base : Nat) : List Char → Prop where
  | absent : Mark base []
  | present {zero letter : Char} (nought : Text.decimalDigit? zero = some 0)
      (marks : IsMark base letter) : Mark base [zero, letter]

/-- Digits as they are read on their own: blanks may stand around them, and a sign and the mark of
the base in front of them. -/
inductive Loose (base : Nat) (s : List Char) : Int → Prop where
  | mk {left sign mark digits right : List Char} {minus : Bool} {n : Nat}
      (split : s = left ++ (sign ++ (mark ++ (digits ++ right)))) (before : Margin left)
      (signed : Sign sign minus) (marked : Mark base mark) (stand : Digits base digits n)
      (after : Margin right) (short : base = 10 → digits.length ≤ maxDigits) :
      Loose base s (negateIf minus n)

theorem ofDigits_ok_iff {base : Nat} {s : List Char} {v : Int} :
    ofDigits base s = .ok v ↔
      ∃ minus body digits rest, takeSign ((s.map plainChar).dropWhile isMargin) = (minus, body) ∧
        dropBaseMark base body = digits ++ rest ∧ digits ≠ [] ∧
        (∀ c ∈ digits, isDigitOf base c = true) ∧ Margin rest ∧
        (base = 10 → digits.length ≤ maxDigits) ∧ v = negateIf minus (digitsValue base digits) := by
  unfold ofDigits
  obtain ⟨minus, body⟩ := takeSign ((s.map plainChar).dropWhile isMargin)
  dsimp only
  constructor
  · intro done
    split at done
    · cases done
    · rename_i short
      split at done
      · cases done
      · rename_i good
        simp only [Bool.or_eq_true, List.isEmpty_iff, Bool.not_eq_true', not_or,
          Bool.not_eq_false] at good
        refine ⟨minus, body, _, _, rfl, List.takeWhile_append_dropWhile.symm, good.1, ?_, ?_, ?_,
          (Except.ok.inj done).symm⟩
        · intro c member
          exact List.mem_takeWhile_imp member
        · exact List.dropWhile_eq_nil_iff.mp good.2
        · intro ten
          simpa [ten] using short
  · rintro ⟨minus', body', digits, rest, same, split, full, each, after, short, rfl⟩
    cases same
    have none : ∀ c ∈ rest, isDigitOf base c = false := by
      intro c member
      cases digit : isDigitOf base c with
      | false => rfl
      | true =>
        obtain ⟨d, value, _⟩ := isDigitOf_iff.mp digit
        cases (after c member).symm.trans (digitValue_apart value).1
    have taken : (digits ++ rest).takeWhile (isDigitOf base) = digits := by
      rw [List.takeWhile_append_of_pos each]
      cases rest with
      | nil => simp
      | cons c later => rw [List.takeWhile_cons_of_neg (by simp [none]), List.append_nil]
    have left : (digits ++ rest).dropWhile (isDigitOf base) = rest := by
      rw [List.dropWhile_append_of_pos each]
      cases rest with
      | nil => rfl
      | cons c later => rw [List.dropWhile_cons_of_neg (by simp [none])]
    rw [split, taken, left, List.dropWhile_eq_nil_iff.mpr after]
    have fits : (base == 10 && decide (maxDigits < digits.length)) = false := by
      by_cases ten : base = 10
      · simp [ten, short ten]
      · simp [ten]
    simp [fits, full]

theorem takeSign_split {s body : List Char} {minus : Bool} (taken : takeSign s = (minus, body)) :
    ∃ sign, Sign sign minus ∧ s = sign ++ body := by
  unfold takeSign at taken
  split at taken <;> cases taken
  · exact ⟨_, .minus, rfl⟩
  · exact ⟨_, .plus, rfl⟩
  · exact ⟨_, .absent, rfl⟩

theorem dropBaseMark_split (base : Nat) (s : List Char) :
    ∃ mark, (mark = [] ∨ ∃ letter, mark = ['0', letter] ∧ IsMark base letter) ∧
      s = mark ++ dropBaseMark base s := by
  unfold dropBaseMark
  split
  · rename_i letter rest
    split
    · rename_i marks
      refine ⟨['0', letter], .inr ⟨letter, rfl, ?_⟩, rfl⟩
      simpa [IsMark] using marks
    · exact ⟨[], .inl rfl, rfl⟩
  · exact ⟨[], .inl rfl, rfl⟩

theorem plainChar_solid {c k : Char} (solid : k ∈ ['+', '-', 'b', 'B', 'x', 'X']) :
    plainChar c = k ↔ c = k := by
  have ascii : k.toNat < 127 ∧ k ≠ ' ' ∧ k ≠ '?' ∧ ∀ d < 10, Nat.digitChar d ≠ k := by
    simp only [List.mem_cons, List.not_mem_nil, or_false] at solid
    rcases solid with rfl | rfl | rfl | rfl | rfl | rfl <;> decide
  constructor
  · intro same
    have read := plainChar_readAs c
    rw [same] at read
    generalize shown : k = p at read
    cases read with
    | ascii low => rfl
    | blank _ _ => exact absurd shown ascii.2.1
    | digit _ digit => exact absurd shown.symm (ascii.2.2.2 _ (decimalDigit_lt digit))
    | other _ _ _ => exact absurd shown ascii.2.2.1
  · rintro rfl
    exact plainChar_ascii ascii.1

theorem plainChar_zero {c : Char} : plainChar c = '0' ↔ Text.decimalDigit? c = some 0 := by
  constructor
  · intro same
    have stands : DigitOf c 0 := digitOf_iff.mpr ⟨by rw [same]; rfl, by decide⟩
    generalize zero : 0 = d at stands
    cases stands with
    | decimal digit => exact digit
    | letter _ _ => omega
  · intro digit
    have read := plainChar_readAs c
    generalize plainChar c = p at read
    cases read with
    | ascii low =>
      rw [decimalDigit_ascii low] at digit
      split at digit
      · have code : c.toNat = '0'.toNat := by
          have zero := Option.some.inj digit
          change c.toNat = 48
          omega
        exact Char.toNat_inj.mp code
      · cases digit
    | blank _ blank => cases blank.symm.trans (isBlank_of_digit digit)
    | digit _ digit' =>
      cases digit.symm.trans digit'
      rfl
    | other _ _ none => cases none.symm.trans digit

theorem Sign.of_plain {s sign : List Char} {minus : Bool} (signed : Sign sign minus)
    (same : s.map plainChar = sign) : Sign s minus := by
  cases signed with
  | absent =>
    cases List.map_eq_nil_iff.mp same
    exact .absent
  | plus =>
    obtain ⟨c, rfl, plus⟩ := List.map_eq_singleton_iff.mp same
    cases (plainChar_solid (by decide)).mp plus
    exact .plus
  | minus =>
    obtain ⟨c, rfl, minus⟩ := List.map_eq_singleton_iff.mp same
    cases (plainChar_solid (by decide)).mp minus
    exact .minus

theorem IsMark.solid {base : Nat} {letter : Char} (marks : IsMark base letter) :
    letter ∈ ['+', '-', 'b', 'B', 'x', 'X'] := by
  rcases marks with ⟨_, rfl | rfl⟩ | ⟨_, rfl | rfl⟩ <;> decide

theorem Mark.of_plain {base : Nat} {s : List Char} {letter : Char} (marks : IsMark base letter)
    (same : s.map plainChar = ['0', letter]) : Mark base s := by
  obtain ⟨zero, rest, rfl, nought, same⟩ := List.map_eq_cons_iff.mp same
  obtain ⟨c, rfl, lettered⟩ := List.map_eq_singleton_iff.mp same
  cases (plainChar_solid marks.solid).mp lettered
  exact .present (plainChar_zero.mp nought) marks

theorem Margin.plain {s : List Char} : Margin (s.map plainChar) ↔ Margin s := by
  simp [Margin, isMargin_plainChar]

theorem Loose.of_ofDigits {base : Nat} (few : base ≤ 16) {s : List Char} {v : Int}
    (done : ofDigits base s = .ok v) : Loose base s v := by
  obtain ⟨minus, body, digits, rest, taken, dropped, full, each, after, short, rfl⟩ :=
    ofDigits_ok_iff.mp done
  obtain ⟨sign, signed, unsigned⟩ := takeSign_split taken
  obtain ⟨mark, marked, unmarked⟩ := dropBaseMark_split base body
  have parts : s.map plainChar =
      (s.map plainChar).takeWhile isMargin ++ (sign ++ (mark ++ (digits ++ rest))) := by
    rw [← dropped, ← unmarked, ← unsigned, List.takeWhile_append_dropWhile]
  have before : Margin ((s.map plainChar).takeWhile isMargin) :=
    fun c member => List.mem_takeWhile_imp member
  generalize (s.map plainChar).takeWhile isMargin = left at parts before
  obtain ⟨left', rest₁, rfl, rfl, parts₁⟩ := List.map_eq_append_iff.mp parts
  obtain ⟨sign', rest₂, rfl, sign_eq, parts₂⟩ := List.map_eq_append_iff.mp parts₁
  obtain ⟨mark', rest₃, rfl, mark_eq, parts₃⟩ := List.map_eq_append_iff.mp parts₂
  obtain ⟨digits', right', rfl, rfl, rfl⟩ := List.map_eq_append_iff.mp parts₃
  have marked' : Mark base mark' := by
    rcases marked with rfl | ⟨letter, rfl, marks⟩
    · cases List.map_eq_nil_iff.mp mark_eq
      exact .absent
    · exact .of_plain marks mark_eq
  have stand : Digits base digits' (digitsValue base (digits'.map plainChar)) := by
    refine (digits_iff few).mpr ⟨by simpa using full, ?_, rfl⟩
    intro c member
    exact each _ (List.mem_map_of_mem member)
  exact .mk rfl (Margin.plain.mp before) (signed.of_plain sign_eq) marked' stand
    (Margin.plain.mp after) (by simpa using short)

theorem takeSign_plain {c : Char} (plus : c ≠ '+') (minus : c ≠ '-') (rest : List Char) :
    takeSign (c :: rest) = (false, c :: rest) := by
  unfold takeSign
  split
  · rename_i same
    exact absurd (List.cons.inj same).1 minus
  · rename_i same
    exact absurd (List.cons.inj same).1 plus
  · rfl

theorem dropBaseMark_plain {base : Nat} {s : List Char} (plain : ∀ c ∈ s, ¬ IsMark base c) :
    dropBaseMark base s = s := by
  unfold dropBaseMark
  split
  · rename_i letter rest
    rw [if_neg]
    intro marks
    exact plain letter (by simp) (by simpa [IsMark] using marks)
  · rfl

theorem IsMark.apart {base : Nat} {c : Char} (marks : IsMark base c) :
    isDigitOf base c = false ∧ isMargin c = false := by
  rcases marks with ⟨rfl, rfl | rfl⟩ | ⟨rfl, rfl | rfl⟩ <;> decide

theorem dropBaseMark_marked {base : Nat} {letter : Char} (marks : IsMark base letter)
    (rest : List Char) : dropBaseMark base ('0' :: letter :: rest) = rest := by
  rw [dropBaseMark, if_pos]
  simpa [IsMark] using marks

theorem Mark.head {base : Nat} {mark digits : List Char} (marked : Mark base mark)
    (full : digits ≠ []) (each : ∀ c ∈ digits, isDigitOf base (plainChar c) = true)
    (right : List Char) :
    ∃ c rest d, (mark ++ (digits ++ right)).map plainChar = c :: rest ∧ digitValue? c = some d := by
  cases marked with
  | absent =>
    obtain ⟨c, rest, rfl⟩ := List.exists_cons_of_ne_nil full
    obtain ⟨d, value, _⟩ := isDigitOf_iff.mp (each c (by simp))
    exact ⟨plainChar c, _, d, rfl, value⟩
  | present nought marks => exact ⟨_, _, 0, rfl, by rw [plainChar_zero.mpr nought]; rfl⟩

theorem Loose.read {base : Nat} (few : base ≤ 16) {s : List Char} {v : Int}
    (loose : Loose base s v) : ofDigits base s = .ok v := by
  cases loose with
  | @mk left sign mark digits right minus n split before signed marked stand after short =>
  obtain ⟨full, each, rfl⟩ := (digits_iff few).mp stand
  refine ofDigits_ok_iff.mpr ⟨minus, (mark ++ (digits ++ right)).map plainChar,
    digits.map plainChar, right.map plainChar, ?_, ?_, by simpa using full, ?_,
    Margin.plain.mpr after, by simpa using short, rfl⟩
  · rw [split, List.map_append, List.dropWhile_append_of_pos (Margin.plain.mpr before)]
    cases signed with
    | absent =>
      obtain ⟨c, rest, d, starts, value⟩ := marked.head full each right
      obtain ⟨solid, plus, minus⟩ := digitValue_apart value
      rw [List.nil_append, starts, List.dropWhile_cons_of_neg (by simp [solid]),
        takeSign_plain plus minus]
    | plus => rfl
    | minus => rfl
  · rw [← List.map_append]
    cases marked with
    | absent =>
      apply dropBaseMark_plain
      intro c member marks
      obtain ⟨c', there, rfl⟩ := List.mem_map.mp member
      rw [List.nil_append] at there
      rcases List.mem_append.mp there with digit | blank
      · cases marks.apart.1.symm.trans (each c' digit)
      · cases marks.apart.2.symm.trans ((isMargin_plainChar c').trans (after c' blank))
    | present nought marks =>
      rw [List.cons_append, List.cons_append, List.map_cons, List.map_cons,
        plainChar_zero.mpr nought, (plainChar_solid marks.solid).mpr rfl]
      exact dropBaseMark_marked marks _
  · intro c member
    obtain ⟨c', there, rfl⟩ := List.mem_map.mp member
    exact each c' there

end Microcode.Numeral
