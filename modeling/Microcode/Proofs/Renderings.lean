import Microcode.Proofs.NumberGrammar

/-!
Renderings of integers. Every integer can be written in base two, ten and sixteen with any number of
zeros in front, and whatever way it is written, it is read back; underscores may stand anywhere in
it and blanks around it. Only decimal digits are limited in number.
-/
namespace Microcode.Numeral

/-- An integer in writing: a numeral, behind a minus sign or on its own. -/
inductive Rendering : List Char → Int → Prop where
  | plain {s : List Char} {n : Nat} (numeral : Magnitude s n) : Rendering s n
  | minus {s : List Char} {n : Nat} (numeral : Magnitude s n) : Rendering ('-' :: s) (-n)

/-! Reading back. -/

theorem Magnitude.unsigned {s : List Char} {n : Nat} (numeral : Magnitude s n) : Unsigned s n := by
  cases numeral with
  | @mk base n mark digits marked stand short =>
    have none : Margin [] := by simp [Margin]
    have loose := Loose.of_digits .absent stand none short
    rw [List.append_nil] at loose
    cases marked with
    | decimal => exact .decimal loose
    | marked marks =>
      rcases marks with ⟨rfl, letter⟩ | ⟨rfl, letter⟩
      · exact .binary (.inl ⟨rfl, letter⟩) loose
      · have hex := Unsigned.hex (.inr ⟨rfl, letter⟩) stand none
        rwa [List.append_nil] at hex

theorem Rendering.accepted {s : List Char} {n : Int} (rendering : Rendering s n) :
    Accepted s n := by
  cases rendering with
  | plain numeral =>
    refine .plain numeral.unsigned ?_
    rintro rest rfl
    exact absurd rfl (numeral.solid '-' List.mem_cons_self).2.2
  | minus numeral => exact .minus numeral.unsigned

theorem Rendering.visible {s : List Char} {n : Int} (rendering : Rendering s n) :
    ∀ c ∈ s, Text.isBlank c = false := by
  cases rendering with
  | plain numeral => exact fun c member => (numeral.solid c member).1
  | minus numeral =>
    intro c member
    rcases List.mem_cons.mp member with rfl | inside
    · decide
    · exact (numeral.solid c inside).1

theorem dropWhile_visible {s : List Char} (visible : ∀ c ∈ s, Text.isBlank c = false) :
    s.dropWhile Text.isBlank = s := by
  cases s with
  | nil => rfl
  | cons c rest => exact List.dropWhile_cons_of_neg (by simp [visible c List.mem_cons_self])

theorem trim_around {left text right : List Char} (before : ∀ c ∈ left, Text.isBlank c = true)
    (after : ∀ c ∈ right, Text.isBlank c = true) (visible : ∀ c ∈ text, Text.isBlank c = false) :
    Text.trim (left ++ (text ++ right)) = text := by
  rw [Text.trim, Text.trimLeft, Text.trimRight, List.dropWhile_append_of_pos before]
  cases text with
  | nil =>
    rw [List.nil_append, List.dropWhile_eq_nil_iff.mpr after]
    rfl
  | cons c rest =>
    have here := visible c List.mem_cons_self
    rw [List.cons_append, List.dropWhile_cons_of_neg (by simp [here]), ← List.cons_append,
      List.reverse_append, List.dropWhile_append_of_pos (by simpa using after),
      dropWhile_visible (fun c member => visible c (List.mem_reverse.mp member)),
      List.reverse_reverse]

theorem compact_around {left text right : List Char} (before : ∀ c ∈ left, Text.isBlank c = true)
    (after : ∀ c ∈ right, Text.isBlank c = true)
    (visible : ∀ c ∈ text.filter (· != '_'), Text.isBlank c = false) :
    compact (left ++ (text ++ right)) = text.filter (· != '_') := by
  rw [compact, trim_around before after]
  intro c member
  by_cases underscore : c = '_'
  · rw [underscore]
    decide
  · exact visible c (List.mem_filter.mpr ⟨member, by simp [underscore]⟩)

/-! Writing. -/

theorem Digits.concat {base n d : Nat} {s : List Char} {c : Char} (stand : Digits base s n)
    (digit : DigitOf c d) (below : d < base) : Digits base (s ++ [c]) (d + base * n) := by
  obtain ⟨_, ds, along, rfl⟩ := stand
  refine ⟨by simp, ds ++ [d], List.rel_append along (.cons ⟨digit, below⟩ .nil), ?_⟩
  rw [List.reverse_concat, Nat.ofDigits_cons]

theorem Digits.after_zero {base n : Nat} {s : List Char} (stand : Digits base s n)
    (positive : 0 < base) : Digits base ('0' :: s) n := by
  obtain ⟨_, ds, along, rfl⟩ := stand
  refine ⟨by simp, 0 :: ds, .cons ⟨.decimal (by decide), positive⟩ along, ?_⟩
  rw [List.reverse_cons, Nat.ofDigits_append, Nat.ofDigits_singleton, Nat.mul_zero, Nat.add_zero]

theorem Digits.after_zeros {base n : Nat} {s : List Char} (stand : Digits base s n)
    (positive : 0 < base) (zeros : Nat) : Digits base (List.replicate zeros '0' ++ s) n := by
  induction zeros with
  | zero => exact stand
  | succ zeros ih =>
    rw [List.replicate_succ, List.cons_append]
    exact ih.after_zero positive

theorem digitChar_stands {d : Nat} (few : d < 16) : DigitOf (Nat.digitChar d) d := by
  have table : ∀ d < 16, digitValue? (plainChar (Nat.digitChar d)) = some d := by decide
  exact digitOf_iff.mpr ⟨table d few, few⟩

theorem toDigits_stand {base : Nat} (low : 1 < base) (high : base ≤ 16) (n : Nat) :
    Digits base (Nat.toDigits base n) n := by
  induction n using Nat.strongRecOn with
  | ind n ih =>
    rw [Nat.toDigits_eq_if low]
    split
    · rename_i below
      refine ⟨by simp, [n], .cons ⟨digitChar_stands (by omega), below⟩ .nil, ?_⟩
      rw [List.reverse_singleton, Nat.ofDigits_singleton]
    · rename_i above
      have smaller : n / base < n := Nat.div_lt_self (by omega) low
      have rest : n % base < base := Nat.mod_lt n (by omega)
      have whole := (ih (n / base) smaller).concat (digitChar_stands (by omega)) rest
      rwa [Nat.mod_add_div] at whole

theorem BaseMark.base_bounds {base : Nat} {mark : List Char} (marked : BaseMark base mark) :
    1 < base ∧ base ≤ 16 := by
  cases marked with
  | decimal => decide
  | marked marks => rcases marks with ⟨rfl, _⟩ | ⟨rfl, _⟩ <;> decide

theorem signed_rendering {base : Nat} {mark : List Char} (marked : BaseMark base mark) (zeros : Nat)
    (n : Int) (short : base = 10 → zeros + (Nat.toDigits base n.natAbs).length ≤ maxDigits) :
    Rendering (signed n (mark ++ (List.replicate zeros '0' ++ Nat.toDigits base n.natAbs))) n := by
  obtain ⟨low, high⟩ := marked.base_bounds
  have stand := (toDigits_stand low high n.natAbs).after_zeros (by omega) zeros
  have numeral := Magnitude.mk marked stand (by simpa using short)
  unfold signed
  split
  · rename_i negative
    have rendering := Rendering.minus numeral
    rwa [show (-(n.natAbs : Int)) = n by omega] at rendering
  · rename_i nonnegative
    have rendering := Rendering.plain numeral
    rwa [show (n.natAbs : Int) = n by omega] at rendering

/-- Integers are read back from every rendering, wherever underscores stand in it and whatever
blanks around it; and there are renderings of every integer, in each base and with any number of
zeros in front. -/
theorem renderings_read_back (n : Int) :
    (∀ left text right : List Char, (∀ c ∈ left, Text.isBlank c = true) →
      (∀ c ∈ right, Text.isBlank c = true) → Rendering (text.filter (· != '_')) n →
      read (String.ofList (left ++ (text ++ right))) = .ok n) ∧
    ∀ (base : Nat) (mark : List Char) (zeros : Nat), BaseMark base mark →
      (base = 10 → zeros + (Nat.toDigits base n.natAbs).length ≤ maxDigits) →
      Rendering (signed n (mark ++ (List.replicate zeros '0' ++ Nat.toDigits base n.natAbs)))
        n := by
  constructor
  · intro left text right before after rendering
    rw [read_ok_iff, String.toList_ofList, compact_around before after rendering.visible]
    exact rendering.accepted
  · intro base mark zeros marked short
    exact signed_rendering marked zeros n short

/-- An underscore within the mark, digits in both cases and a tab in front. -/
theorem renderings_read_back_mixed :
    Rendering ("-_0_X_0B_a_".toList.filter (· != '_')) (-186) ∧
    read "\t-_0_X_0B_a_ " = .ok (-186) ∧
    Rendering "-0b0010111010".toList (-186) := by
  have parts : "-_0_X_0B_a_".toList.filter (· != '_') = ['-', '0', 'X', '0', 'B', 'a'] := by decide
  have stand : Digits 16 ['0', 'B', 'a'] 186 :=
    (digits_iff (by decide)).mpr ⟨by simp, List.all_eq_true.mp (by decide), by decide⟩
  have rendering : Rendering ("-_0_X_0B_a_".toList.filter (· != '_')) (-186) := by
    rw [parts]
    exact .minus (.mk (.marked (isMark_sixteen.mpr (by decide))) stand (by decide))
  obtain ⟨reads, renders⟩ := renderings_read_back (-186)
  refine ⟨rendering, reads ['\t'] "-_0_X_0B_a_".toList [' '] (List.all_eq_true.mp (by decide))
    (List.all_eq_true.mp (by decide)) rendering, ?_⟩
  exact renders 2 ['0', 'b'] 2 (.marked (isMark_two.mpr (by decide))) (by decide)

end Microcode.Numeral
