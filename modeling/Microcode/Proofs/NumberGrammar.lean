import Microcode.Proofs.Digits

/-!
The numbers of layout and stream files. A number takes one minus sign and the mark of base two off
and hands the rest to a reader of digits, which looks for blanks, a sign and a mark by itself. What
is accepted (`Accepted`) is therefore more than a sign and a numeral (`Spelt`): exactly the texts
that are not `Tidy` come on top.
-/
namespace Microcode.Numeral

inductive BaseMark : Nat → List Char → Prop where
  | decimal : BaseMark 10 []
  | marked {base : Nat} {letter : Char} (marks : IsMark base letter) : BaseMark base ['0', letter]

inductive Magnitude : List Char → Nat → Prop where
  | mk {base n : Nat} {mark digits : List Char} (marked : BaseMark base mark)
      (stand : Digits base digits n) (short : base = 10 → digits.length ≤ maxDigits) :
      Magnitude (mark ++ digits) n

inductive Spelt : List Char → Int → Prop where
  | mk {sign s : List Char} {minus : Bool} {n : Nat} (signed : Sign sign minus)
      (numeral : Magnitude s n) : Spelt (sign ++ s) (negateIf minus n)

/-- What is accepted behind the minus sign of a number. -/
inductive Unsigned : List Char → Int → Prop where
  | binary {mark : Char} {rest : List Char} {v : Int} (marks : IsMark 2 mark)
      (loose : Loose 2 rest v) : Unsigned ('0' :: mark :: rest) v
  | hex {mark : Char} {digits right : List Char} {n : Nat} (marks : IsMark 16 mark)
      (stand : Digits 16 digits n) (after : Margin right) :
      Unsigned ('0' :: mark :: (digits ++ right)) n
  | decimal {s : List Char} {v : Int} (loose : Loose 10 s v) : Unsigned s v

/-- What is accepted for a number. -/
inductive Accepted : List Char → Int → Prop where
  | plain {s : List Char} {v : Int} (unsigned : Unsigned s v) (unmarked : ∀ rest, s ≠ '-' :: rest) :
      Accepted s v
  | minus {s : List Char} {v : Int} (unsigned : Unsigned s v) : Accepted ('-' :: s) (-v)

/-- No blank, no sign but in front, and no second mark of base two. -/
structure Tidy (s : List Char) : Prop where
  unbroken : ∀ c ∈ s, Text.isBlank c = false
  sign_first : ∀ c ∈ s.tail, c ≠ '+' ∧ c ≠ '-'
  one_mark : ∀ {sign rest : List Char} {minus : Bool} {mark : Char}, Sign sign minus →
    s = sign ++ '0' :: mark :: rest → IsMark 2 mark → ∀ c ∈ rest, ¬ IsMark 2 c

/-! What is accepted. -/

theorem isMark_two {c : Char} : IsMark 2 c ↔ (c == 'b' || c == 'B') = true := by
  simp [IsMark]

theorem isMark_sixteen {c : Char} : IsMark 16 c ↔ (c == 'x' || c == 'X') = true := by
  simp [IsMark]

theorem isMark_ten (c : Char) : ¬ IsMark 10 c := by
  simp [IsMark]

/-- No decimal digit is a mark, and no digit marks its own base. -/
theorem Digits.unmarked {base base' n : Nat} {s : List Char} (stand : Digits base s n)
    (apart : base = 10 ∨ base = base') {c : Char} (member : c ∈ s) : ¬ IsMark base' c := by
  intro marks
  have few : base ≤ 16 := by
    have marked : base' = 2 ∨ base' = 16 := marks.imp And.left And.left
    omega
  have digit := ((digits_iff few).mp stand).2.1 c member
  rw [(plainChar_solid marks.solid).mpr rfl] at digit
  rcases apart with rfl | rfl
  · rcases marks with ⟨_, rfl | rfl⟩ | ⟨_, rfl | rfl⟩ <;> revert digit <;> decide
  · cases marks.apart.1.symm.trans digit

theorem Loose.ne_nil {base : Nat} {s : List Char} {v : Int} (loose : Loose base s v) : s ≠ [] := by
  cases loose with
  | mk split before signed marked stand after short =>
    rw [split]
    simp [stand.1]

theorem Loose.of_digits {base : Nat} {mark digits right : List Char} {n : Nat}
    (marked : Mark base mark) (stand : Digits base digits n) (after : Margin right)
    (short : base = 10 → digits.length ≤ maxDigits) : Loose base (mark ++ (digits ++ right)) n := by
  have none : Margin [] := by simp [Margin]
  exact @Loose.mk base _ [] [] mark digits right false n rfl none .absent marked stand after short

/-- A text that begins with the mark of base sixteen has its digits and blanks behind it. -/
theorem Loose.of_hex {mark : Char} {rest : List Char} {v : Int} (marks : IsMark 16 mark)
    (loose : Loose 16 ('0' :: mark :: rest) v) : Unsigned ('0' :: mark :: rest) v := by
  cases loose with
  | @mk left sign mark' digits right minus n split before signed marked stand after short =>
    cases left with
    | cons c _ =>
      cases (List.cons.inj split).1
      exact absurd (before '0' List.mem_cons_self) (by decide)
    | nil =>
      cases signed with
      | plus => cases split
      | minus => cases split
      | absent =>
        cases marked with
        | absent =>
          have same : '0' :: mark :: rest = digits ++ right := split
          have there : mark ∈ digits ++ right := by simp [← same]
          rcases List.mem_append.mp there with digit | blank
          · exact absurd marks (stand.unmarked (.inr rfl) digit)
          · cases marks.apart.2.symm.trans (after mark blank)
        | @present zero letter nought marks' =>
          have same : '0' :: mark :: rest = zero :: letter :: (digits ++ right) := split
          rw [(List.cons.inj (List.cons.inj same).2).2]
          exact .hex marks stand after

theorem Loose.unmarked {base : Nat} {mark : Char} {rest : List Char} {v : Int}
    (loose : Loose 10 ('0' :: mark :: rest) v) : ¬ IsMark base mark := by
  intro marks
  cases loose with
  | @mk left sign mark' digits right minus n split before signed marked stand after short =>
    have unblank := marks.apart.2
    have there : mark ∈ left ++ (sign ++ (mark' ++ (digits ++ right))) := by simp [← split]
    simp only [List.mem_append] at there
    rcases there with blank | sign' | mark'' | digit | blank
    · cases unblank.symm.trans (before mark blank)
    · have solid : mark ≠ '+' ∧ mark ≠ '-' := by
        rcases marks with ⟨_, rfl | rfl⟩ | ⟨_, rfl | rfl⟩ <;> decide
      cases signed with
      | absent => cases sign'
      | plus => exact solid.1 (List.mem_singleton.mp sign')
      | minus => exact solid.2 (List.mem_singleton.mp sign')
    · cases marked with
      | absent => cases mark''
      | present _ marks' => exact isMark_ten _ marks'
    · exact stand.unmarked (.inl rfl) digit marks
    · cases unblank.symm.trans (after mark blank)

theorem unsigned_ok_iff {s : List Char} {v : Int} : unsigned s = .ok v ↔ Unsigned s v := by
  constructor
  · intro done
    unfold unsigned at done
    split at done
    · cases done
    · split at done
      · rename_i marks
        split at done
        · cases done
        · exact .binary (isMark_two.mpr marks) (.of_ofDigits (by decide) done)
      · split at done
        · rename_i marks
          split at done
          · cases done
          · exact Loose.of_hex (isMark_sixteen.mpr marks) (.of_ofDigits (by decide) done)
        · exact .decimal (.of_ofDigits (by decide) done)
    · exact .decimal (.of_ofDigits (by decide) done)
  · intro accepted
    cases accepted with
    | binary marks loose =>
      have full : ¬ _ = true := mt List.isEmpty_iff.mp loose.ne_nil
      rw [unsigned, if_pos (isMark_two.mp marks), if_neg full]
      exact loose.read (by decide)
    | @hex mark digits right n marks stand after =>
      have binary : ¬ (mark == 'b' || mark == 'B') = true := by
        rcases marks with ⟨two, _⟩ | ⟨_, rfl | rfl⟩
        · cases two
        · decide
        · decide
      have full : ¬ (digits ++ right).isEmpty = true := by simp [stand.1]
      rw [unsigned, if_neg binary, if_pos (isMark_sixteen.mp marks), if_neg full]
      have marked : Mark 16 ['0', mark] := .present (by decide) marks
      exact (Loose.of_digits marked stand after (by simp)).read (by decide)
    | decimal loose =>
      unfold unsigned
      split
      · exact absurd rfl loose.ne_nil
      · rw [if_neg (mt isMark_two.mpr loose.unmarked),
          if_neg (mt isMark_sixteen.mpr loose.unmarked)]
        exact loose.read (by decide)
      · exact loose.read (by decide)

theorem read_ok_iff {text : String} {v : Int} :
    read text = .ok v ↔ Accepted (compact text.toList) v := by
  unfold read readChars
  constructor
  · intro done
    split at done
    · rename_i rest split
      rw [split]
      cases number : unsigned rest with
      | error e =>
        rw [number] at done
        cases done
      | ok n =>
        rw [number] at done
        cases done
        exact .minus (unsigned_ok_iff.mp number)
    · rename_i plain
      exact .plain (unsigned_ok_iff.mp done) plain
  · intro accepted
    generalize compact text.toList = s at accepted
    cases accepted with
    | plain accepted plain =>
      split
      · exact absurd rfl (plain _)
      · exact unsigned_ok_iff.mpr accepted
    | minus accepted =>
      simp only [unsigned_ok_iff.mpr accepted]
      rfl

/-! What is accepted beyond a sign and a numeral. -/

theorem Digits.solid {base : Nat} {s : List Char} {n : Nat} (stand : Digits base s n) :
    ∀ c ∈ s, Text.isBlank c = false ∧ c ≠ '+' ∧ c ≠ '-' := by
  intro c member
  obtain ⟨_, ds, along, _⟩ := stand
  obtain ⟨d, _, stands, _⟩ := along_mem along.flip member
  obtain ⟨_, plus, minus⟩ := digitValue_apart (digitOf_iff.mp stands).1
  refine ⟨?_, mt (plainChar_solid (by decide)).mpr plus, mt (plainChar_solid (by decide)).mpr minus⟩
  cases stands with
  | decimal digit => exact isBlank_of_digit digit
  | @letter i latin few =>
    have small : 'a'.toNat = 97 := rfl
    have capital : 'A'.toNat = 65 := rfl
    simp only [Text.isBlank, Bool.or_eq_false_iff, Bool.and_eq_false_iff, decide_eq_false_iff_not,
      beq_eq_false_iff_ne]
    omega

theorem BaseMark.solid {base : Nat} {mark : List Char} (marked : BaseMark base mark) :
    ∀ c ∈ mark, Text.isBlank c = false ∧ c ≠ '+' ∧ c ≠ '-' := by
  cases marked with
  | decimal => simp
  | marked marks => rcases marks with ⟨_, rfl | rfl⟩ | ⟨_, rfl | rfl⟩ <;> simp [Text.isBlank]

theorem Sign.unblank {sign : List Char} {minus : Bool} (signed : Sign sign minus) :
    ∀ c ∈ sign, Text.isBlank c = false := by
  cases signed <;> simp [Text.isBlank]

theorem Magnitude.solid {s : List Char} {n : Nat} (numeral : Magnitude s n) :
    ∀ c ∈ s, Text.isBlank c = false ∧ c ≠ '+' ∧ c ≠ '-' := by
  cases numeral with
  | mk marked stand short =>
    intro c member
    rcases List.mem_append.mp member with mark | digit
    · exact marked.solid c mark
    · exact stand.solid c digit

theorem Magnitude.one_mark {mark : Char} {rest : List Char} {n : Nat}
    (numeral : Magnitude ('0' :: mark :: rest) n) (marks : IsMark 2 mark) :
    ∀ c ∈ rest, ¬ IsMark 2 c := by
  generalize same : '0' :: mark :: rest = s at numeral
  cases numeral with
  | @mk base n mark' digits marked stand short =>
    cases marked with
    | decimal =>
      have there : mark ∈ digits := by
        rw [← List.nil_append digits, ← same]
        simp
      exact absurd marks (stand.unmarked (.inl rfl) there)
    | @marked base letter marks' =>
      obtain ⟨_, rest_eq⟩ := List.cons.inj same
      obtain ⟨rfl, rfl⟩ := List.cons.inj rest_eq
      have two : base = 2 := by
        rcases marks with ⟨_, rfl | rfl⟩ | ⟨impossible, _⟩
        · simpa [IsMark] using marks'
        · simpa [IsMark] using marks'
        · cases impossible
      intro c member
      exact stand.unmarked (.inr two) member

theorem Spelt.tidy {s : List Char} {v : Int} (spelt : Spelt s v) : Tidy s := by
  cases spelt with
  | @mk sign s minus n signed numeral =>
    have solid := numeral.solid
    constructor
    · intro c member
      rcases List.mem_append.mp member with front | digit
      · exact signed.unblank c front
      · exact (solid c digit).1
    · intro c member
      cases signed with
      | absent => exact (solid c (List.mem_of_mem_tail member)).2
      | plus => exact (solid c member).2
      | minus => exact (solid c member).2
    · intro sign' rest minus' mark signed' split marks
      -- the two signs are the same, since no digit is a sign
      have behind : s = '0' :: mark :: rest := by
        cases signed <;> cases signed' <;> simp_all
      exact (behind ▸ numeral).one_mark marks

theorem Margin.eq_nil {s : List Char} (margin : Margin s)
    (unbroken : ∀ c ∈ s, Text.isBlank c = false) : s = [] := by
  rw [List.eq_nil_iff_forall_not_mem]
  intro c member
  have blank := margin c member
  rw [isMargin, unbroken c member] at blank
  cases blank

theorem Loose.unbroken {base : Nat} {s : List Char} {v : Int} (loose : Loose base s v)
    (unbroken : ∀ c ∈ s, Text.isBlank c = false) :
    ∃ sign mark digits minus n, s = sign ++ (mark ++ digits) ∧ Sign sign minus ∧ Mark base mark ∧
      Digits base digits n ∧ (base = 10 → digits.length ≤ maxDigits) ∧ v = negateIf minus n := by
  cases loose with
  | @mk left sign mark digits right minus n split before signed marked stand after short =>
    have none : left = [] := before.eq_nil fun c member => unbroken c (by simp [split, member])
    have none' : right = [] := after.eq_nil fun c member => unbroken c (by simp [split, member])
    rw [none, none', List.nil_append, List.append_nil] at split
    exact ⟨sign, mark, digits, minus, n, split, signed, marked, stand, short, rfl⟩

theorem Sign.eq_nil {sign : List Char} {minus : Bool} (signed : Sign sign minus)
    (clear : ∀ c ∈ sign, c ≠ '+' ∧ c ≠ '-') : sign = [] ∧ minus = false := by
  cases signed with
  | absent => exact ⟨rfl, rfl⟩
  | plus => exact absurd rfl (clear '+' List.mem_cons_self).1
  | minus => exact absurd rfl (clear '-' List.mem_cons_self).2

theorem Unsigned.spelt {s : List Char} {v : Int} (accepted : Unsigned s v) (tidy : Tidy s) :
    Spelt s v := by
  cases accepted with
  | @binary mark rest v marks loose =>
    have unbroken : ∀ c ∈ rest, Text.isBlank c = false := fun c member =>
      tidy.unbroken c (List.mem_cons_of_mem _ (List.mem_cons_of_mem _ member))
    obtain ⟨sign, mark', digits, minus, n, split, signed, marked, stand, _, rfl⟩ :=
      loose.unbroken unbroken
    obtain ⟨rfl, rfl⟩ := signed.eq_nil fun c member =>
      tidy.sign_first c (List.mem_cons_of_mem _ (by simp [split, member]))
    have once : mark' = [] := by
      cases marked with
      | absent => rfl
      | present _ marks' =>
        exact absurd marks' (tidy.one_mark .absent rfl marks _ (by simp [split]))
    subst once
    rw [split]
    exact .mk .absent (.mk (.marked marks) stand (by simp))
  | @hex mark digits right n marks stand after =>
    have none : right = [] := after.eq_nil fun c member => tidy.unbroken c (by simp [member])
    subst none
    rw [List.append_nil]
    exact .mk .absent (.mk (.marked marks) stand (by simp))
  | decimal loose =>
    obtain ⟨sign, mark, digits, minus, n, rfl, signed, marked, stand, short, rfl⟩ :=
      loose.unbroken tidy.unbroken
    cases marked with
    | absent => exact .mk signed (.mk .decimal stand short)
    | present _ marks => exact absurd marks (isMark_ten _)

theorem Tidy.behind_minus {s : List Char} (tidy : Tidy ('-' :: s)) : Tidy s where
  unbroken c member := tidy.unbroken c (List.mem_cons_of_mem _ member)
  sign_first c member := tidy.sign_first c (List.mem_of_mem_tail member)
  one_mark := by
    intro sign rest minus mark signed split marks
    obtain ⟨rfl, _⟩ := signed.eq_nil fun c member =>
      tidy.sign_first c (by simp [split, member])
    exact tidy.one_mark .minus (by rw [split]; rfl) marks

theorem Accepted.spelt {s : List Char} {v : Int} (accepted : Accepted s v) (tidy : Tidy s) :
    Spelt s v := by
  cases accepted with
  | plain accepted _ => exact accepted.spelt tidy
  | @minus s v accepted =>
    cases accepted.spelt tidy.behind_minus with
    | @mk sign s minus n signed numeral =>
      obtain ⟨rfl, rfl⟩ := signed.eq_nil fun c member => tidy.sign_first c (by simp [member])
      exact .mk .minus numeral

/-- What is read for a number, and with which value. A text that is read is a sign and a numeral
with that value exactly if it is tidy: a second sign, a second mark of base two and blanks between
the parts are let through. -/
theorem number_grammar (text : String) (v : Int) :
    (read text = .ok v ↔ Accepted (compact text.toList) v) ∧
    (read text = .ok v → (Spelt (compact text.toList) v ↔ Tidy (compact text.toList))) := by
  refine ⟨read_ok_iff, ?_⟩
  intro done
  exact ⟨Spelt.tidy, (read_ok_iff.mp done).spelt⟩

/-- A capital mark, a small digit and an underscore behind a minus sign, with a blank in front. -/
theorem number_grammar_minus_hex :
    read " -0X_1f" = .ok (-31) ∧ Accepted (compact " -0X_1f".toList) (-31) ∧
      Spelt (compact " -0X_1f".toList) (-31) := by
  have done : read " -0X_1f" = .ok (-31) := by decide +kernel
  have parts : compact " -0X_1f".toList = ['-', '0', 'X', '1', 'f'] := by decide +kernel
  have tidy : Tidy (compact " -0X_1f".toList) := by
    rw [parts]
    refine ⟨by simp [Text.isBlank], by simp, ?_⟩
    intro sign rest minus mark signed split marks
    cases signed with
    | absent => cases split
    | plus => cases split
    | minus =>
      cases split
      exact absurd (isMark_two.mp marks) (by decide)
  obtain ⟨accepted, spelt⟩ := number_grammar " -0X_1f" (-31)
  exact ⟨done, accepted.mp done, (spelt done).mpr tidy⟩

/-- A second sign, a sign behind the mark of the base and a second mark are let through. -/
theorem second_sign_and_mark_read :
    (read "--5" = .ok 5 ∧ ∀ v, ¬ Spelt (compact "--5".toList) v) ∧
    (read "0b-1" = .ok (-1) ∧ ∀ v, ¬ Spelt (compact "0b-1".toList) v) ∧
    (read "0b0b1" = .ok 1 ∧ ∀ v, ¬ Spelt (compact "0b0b1".toList) v) := by
  have signs : compact "--5".toList = ['-', '-', '5'] := by decide +kernel
  have sign : compact "0b-1".toList = ['0', 'b', '-', '1'] := by decide +kernel
  have marks : compact "0b0b1".toList = ['0', 'b', '0', 'b', '1'] := by decide +kernel
  have mark : IsMark 2 'b' := isMark_two.mpr (by decide)
  refine ⟨⟨by decide +kernel, ?_⟩, ⟨by decide +kernel, ?_⟩, by decide +kernel, ?_⟩
  · intro v spelt
    exact absurd rfl ((signs ▸ spelt.tidy).sign_first '-' (by decide)).2
  · intro v spelt
    exact absurd rfl ((sign ▸ spelt.tidy).sign_first '-' (by decide)).2
  · intro v spelt
    exact (marks ▸ spelt.tidy).one_mark .absent rfl mark 'b' (by decide) mark

end Microcode.Numeral
