import Microcode.Proofs.Packing
import Mathlib.Data.List.Pairwise

/-!
Where packing puts the numbers of a line. The word of a line is described without the order in which
its fields are written: each field holds its own number as far as it is wide enough, and all other
bits are zero. A word therefore tells the numbers of its line apart up to the widths of the fields,
and nothing else about the line.
-/
namespace Microcode

/-- The number that a line gives a field, zero if it gives none. A label stands for no number, and
neither does a symbol without a value. -/
def Line.amount? (symbols : SymbolTable) (line : Line) (stem : String) : Option Int :=
  match line.tokens.lookup stem with
  | none => some 0
  | some (.literal v) => some v.toInt
  | some (.symbol name) => (symbols.value? name).map Value.toInt
  | some (.label _) => none

/-- A buffer in which every field holds the lowest bits of its number, and every bit outside the
fields is zero. -/
structure Placed (layout : Layout) (number : Field → Int) (bits : Bits) : Prop where
  size : bits.size = layout.width
  inside : ∀ f ∈ layout.fields, ∀ i : Nat, f.low ≤ i → i ≤ f.high →
    bits[i]? = some (.int (number f / 2 ^ (i - f.low) % 2))
  outside : ∀ i : Nat, i < layout.width → (∀ f ∈ layout.fields, ¬ (f.low ≤ i ∧ i ≤ f.high)) →
    bits[i]? = some (.int 0)

theorem amount_of_number {symbols : SymbolTable} {line : Line} {stem : String} {token : Token}
    (held : line.tokens.lookup stem = some token) :
    line.amount? symbols stem = (token.number symbols line stem).toOption := by
  cases token with
  | literal v => simp [Line.amount?, held, Token.number, Except.toOption]
  | symbol name =>
    simp only [Line.amount?, held, Token.number]
    cases symbols.value? name <;> rfl
  | label name => simp [Line.amount?, held, Token.number, Except.toOption]

theorem amount_of_absent {symbols : SymbolTable} {line : Line} {stem : String}
    (absent : line.tokens.lookup stem = none) : line.amount? symbols stem = some 0 := by
  simp [Line.amount?, absent]

section

variable {layout : Layout} {symbols : SymbolTable} {line : Line} {after : Bits}

theorem Layout.Sound.field_of_bit (sound : layout.Sound) {f g : Field} (one : f ∈ layout.fields)
    (other : g ∈ layout.fields) {i : Nat} (here : f.low ≤ i ∧ i ≤ f.high)
    (there : g.low ≤ i ∧ i ≤ g.high) : g = f := by
  by_contra different
  have symmetric : Std.Symm Field.Apart := ⟨fun _ _ => Field.Apart.symm⟩
  have parted := sound.apart.forall other one different
  rw [Field.apart_iff] at parted
  omega

theorem Packed.amounts (packed : Packed symbols line layout.fields (Bits.zeros layout.width) after)
    {f : Field} (member : f ∈ layout.fields) : (line.amount? symbols f.stem).isSome = true := by
  cases held : line.tokens.lookup f.stem with
  | none => simp [amount_of_absent held]
  | some token =>
    obtain ⟨v, number, _⟩ := packed.written f member token held
    simp [amount_of_number held, number, Except.toOption]

theorem Packed.placed (packed : Packed symbols line layout.fields (Bits.zeros layout.width) after)
    (sound : layout.Sound) :
    Placed layout (fun f => (line.amount? symbols f.stem).getD 0) after := by
  have cleared : ∀ i : Nat, i < layout.width →
      (Bits.zeros layout.width)[i]? = some (.int 0) := by
    intro i short
    simp [Bits.zeros, short]
  refine ⟨packed.size.trans Array.size_replicate, ?_, ?_⟩
  · intro f member i above below
    have inside := sound.fits f member
    cases held : line.tokens.lookup f.stem with
    | none =>
      -- no other field reaches the bits of a field without a token
      have untouched : after[i]? = (Bits.zeros layout.width)[i]? := by
        apply packed.kept
        intro g member' above' below'
        rw [sound.field_of_bit member member' ⟨above, below⟩ ⟨above', below'⟩]
        exact held
      rw [untouched, cleared i (by omega), amount_of_absent held]
      simp
    | some token =>
      obtain ⟨v, number, each⟩ := packed.written f member token held
      rw [each i above below, amount_of_number held, number]
      rfl
  · intro i short free
    rw [packed.kept i, cleared i short]
    intro f member above below
    exact absurd ⟨above, below⟩ (free f member)

theorem bit_congr {v w : Int} {width k : Nat} (same : v % 2 ^ width = w % 2 ^ width)
    (below : k < width) : v / 2 ^ k % 2 = w / 2 ^ k % 2 := by
  have multiple : (2 : Int) ^ width ∣ v - w :=
    Int.dvd_of_emod_eq_zero (Int.emod_eq_emod_iff_emod_sub_eq_zero.mp same)
  have part : (2 : Int) ^ (k + 1) ∣ 2 ^ width := by
    refine ⟨2 ^ (width - (k + 1)), ?_⟩
    rw [← Int.pow_add, Nat.add_sub_cancel' below]
  obtain ⟨c, difference⟩ := Int.dvd_trans part multiple
  have shifted : v = w + 2 ^ k * (2 * c) := by
    rw [Int.pow_succ, Int.mul_assoc] at difference
    omega
  have positive : (2 : Int) ^ k ≠ 0 := Int.ne_of_gt (Int.pow_pos (by decide))
  rw [shifted, Int.add_mul_ediv_left _ _ positive, Int.add_mul_emod_self_left]

theorem Placed.unique {number number' : Field → Int} {after' : Bits}
    (one : Placed layout number after) (other : Placed layout number' after')
    (same : ∀ f ∈ layout.fields, number f % 2 ^ f.width = number' f % 2 ^ f.width) :
    after = after' := by
  apply Array.ext_getElem?
  intro i
  by_cases short : i < layout.width
  · by_cases owned : ∃ f ∈ layout.fields, f.low ≤ i ∧ i ≤ f.high
    · obtain ⟨f, held, above, below⟩ := owned
      have within : i - f.low < f.width := by
        unfold Field.width
        omega
      rw [one.inside f held i above below, other.inside f held i above below,
        bit_congr (same f held) within]
    · have free : ∀ f ∈ layout.fields, ¬ (f.low ≤ i ∧ i ≤ f.high) :=
        fun f held covered => owned ⟨f, held, covered⟩
      rw [one.outside i short free, other.outside i short free]
  · rw [Array.getElem?_eq_none (one.size ▸ Nat.le_of_not_lt short),
      Array.getElem?_eq_none (other.size ▸ Nat.le_of_not_lt short)]

theorem Placed.zero_outside {number : Field → Int} (placed : Placed layout number after)
    (binary : ∀ v ∈ after.toList, v = .int 0 ∨ v = .int 1) {i : Nat} (short : i < layout.width)
    (free : ∀ f ∈ layout.fields, ¬ (f.low ≤ i ∧ i ≤ f.high)) :
    after.text.toList[layout.width - 1 - i]? = some '0' := by
  have length : (after.toList.map bitChar).length = layout.width := by
    rw [List.length_map, Array.length_toList, placed.size]
  have mirrored : layout.width - 1 - (layout.width - 1 - i) = i := by omega
  rw [text_toList binary, List.getElem?_reverse (by omega), length, mirrored,
    List.getElem?_map, Array.getElem?_toList, placed.outside i short free]
  rfl

end

theorem unpackable_iff_no_amount {symbols : SymbolTable} {line : Line} {f : Field} :
    Unpackable symbols line f ↔ line.amount? symbols f.stem = none := by
  cases held : line.tokens.lookup f.stem with
  | none => simp [Unpackable, held, amount_of_absent held]
  | some token =>
    rw [amount_of_number held]
    cases number : token.number symbols line f.stem <;>
      simp [Unpackable, held, number, Except.toOption]

/-- A line is packed exactly if each of its fields stands for a number. -/
theorem Layout.Sound.word_exists_iff {layout : Layout} (sound : layout.Sound)
    (symbols : SymbolTable) (line : Line) :
    (∃ word, line.word layout symbols = .ok word) ↔
      ∀ f ∈ layout.fields, (line.amount? symbols f.stem).isSome = true := by
  constructor
  · rintro ⟨word, packs⟩ f member
    obtain ⟨after, packed, _⟩ := sound.word_ok_iff.mp packs
    exact packed.amounts member
  · intro amounts
    have fits : ∀ f ∈ layout.fields, f.high < (Bits.zeros layout.width).size := by
      intro f member
      rw [Bits.zeros, Array.size_replicate]
      exact sound.fits f member
    rcases packFields_result symbols line fits sound.apart with
      ⟨after, _, packed⟩ | ⟨f, _, _, _, first, _⟩
    · exact ⟨after.text, sound.word_ok_iff.mpr ⟨after, packed, rfl⟩⟩
    · obtain ⟨before, later, split, stuck, _⟩ := first
      have some := amounts f (by rw [split]; simp)
      rw [unpackable_iff_no_amount.mp stuck] at some
      cases some

section

variable {layout : Layout} {symbols symbols' : SymbolTable} {line line' : Line}
  {word word' : String}

theorem Packs.placed (packs : Packs layout symbols line word) (sound : layout.Sound) :
    ∃ after : Bits, word = after.text ∧
      Placed layout (fun f => (line.amount? symbols f.stem).getD 0) after := by
  obtain ⟨after, packed, rfl⟩ := packs
  exact ⟨after, rfl, packed.placed sound⟩

theorem Packs.numberIn (packs : Packs layout symbols line word) (sound : layout.Sound) {f : Field}
    (member : f ∈ layout.fields) :
    ∃ v, line.amount? symbols f.stem = some v ∧ (f.numberIn word : Int) = v % 2 ^ f.width := by
  obtain ⟨after, packed, rfl⟩ := packs
  have placed := packed.placed sound
  obtain ⟨v, amount⟩ := Option.isSome_iff_exists.mp (packed.amounts member)
  have each := placed.inside f member
  simp only [amount, Option.getD_some] at each
  exact ⟨v, amount, numberIn_of_bits packed.binary (placed.size ▸ sound.fits f member) each⟩

theorem Packs.zero_outside (packs : Packs layout symbols line word) (sound : layout.Sound) {i : Nat}
    (short : i < layout.width) (free : ∀ f ∈ layout.fields, ¬ (f.low ≤ i ∧ i ≤ f.high)) :
    word.toList[layout.width - 1 - i]? = some '0' := by
  obtain ⟨after, packed, rfl⟩ := packs
  exact (packed.placed sound).zero_outside packed.binary short free

theorem packs_same_iff (sound : layout.Sound) (one : Packs layout symbols line word)
    (other : Packs layout symbols' line' word') :
    word = word' ↔ ∀ f ∈ layout.fields,
      (line.amount? symbols f.stem).map (· % 2 ^ f.width) =
        (line'.amount? symbols' f.stem).map (· % 2 ^ f.width) := by
  constructor
  · rintro rfl f member
    obtain ⟨v, amount, number⟩ := one.numberIn sound member
    obtain ⟨v', amount', number'⟩ := other.numberIn sound member
    rw [amount, amount', Option.map_some, Option.map_some, ← number, ← number']
  · intro agree
    obtain ⟨after, text, placed⟩ := one.placed sound
    obtain ⟨after', text', placed'⟩ := other.placed sound
    rw [text, text']
    apply congrArg Bits.text
    apply placed.unique placed'
    intro f member
    obtain ⟨v, amount, _⟩ := one.numberIn sound member
    obtain ⟨v', amount', _⟩ := other.numberIn sound member
    have here := agree f member
    rw [amount, amount'] at here ⊢
    exact Option.some.inj here

end

/-- Packing places the numbers of a line. A line has a word exactly if each field stands for a
number; the word has as many binary digits as the layout is wide, each field of it reads as its
number modulo the power of its width, and each bit outside the fields is zero. So two lines have the
same word exactly if their numbers agree as far as the fields are wide. -/
theorem packing_places_numbers [Machine] {layout : Layout} (built : layout.Built)
    (symbols : SymbolTable) (line : Line) {bits : Bits} (size : bits.size = layout.width) :
    ((∃ word, (packLine layout symbols line bits).2 = .ok word) ↔
      ∀ f ∈ layout.fields, (line.amount? symbols f.stem).isSome = true) ∧
    ∀ word, (packLine layout symbols line bits).2 = .ok word →
      (word.toList.length = layout.width ∧ ∀ c ∈ word.toList, c = '0' ∨ c = '1') ∧
      (∀ f ∈ layout.fields, ∃ v, line.amount? symbols f.stem = some v ∧
        (f.numberIn word : Int) = v % 2 ^ f.width) ∧
      (∀ i : Nat, i < layout.width → (∀ f ∈ layout.fields, ¬ (f.low ≤ i ∧ i ≤ f.high)) →
        word.toList[layout.width - 1 - i]? = some '0') ∧
      ∀ (symbols' : SymbolTable) (line' : Line) (bits' : Bits) (word' : String),
        bits'.size = layout.width → (packLine layout symbols' line' bits').2 = .ok word' →
        (word = word' ↔ ∀ f ∈ layout.fields,
          (line.amount? symbols f.stem).map (· % 2 ^ f.width) =
            (line'.amount? symbols' f.stem).map (· % 2 ^ f.width)) := by
  have sound := built.sound
  rw [(packLine_word symbols line size).1]
  refine ⟨sound.word_exists_iff symbols line, ?_⟩
  intro word done
  have packs := sound.word_ok_iff.mp done
  refine ⟨packs.digits, fun f => packs.numberIn sound, fun i => packs.zero_outside sound, ?_⟩
  intro symbols' line' bits' word' size' done'
  rw [(packLine_word symbols' line' size').1] at done'
  exact packs_same_iff sound packs (sound.word_ok_iff.mp done')

/-- A negative literal and a symbol that agrees with it in the bits of the field, in a word with two
bits to spare; the field without a token is zero. -/
theorem packing_places_numbers_signed :
    let layout : Layout := ⟨Layout.small.fields, .int 9⟩
    let line : Line := ⟨.int 0, none, [("OP_", .literal (.int (-3)))], none⟩
    let line' : Line := ⟨.int 4, none, [("OP_", .symbol "OP_ADD")], none⟩
    let symbols : SymbolTable := [("OP_ADD", some (.int 13))]
    (packLine layout [] line (Bits.zeros 9)).2 = .ok "000000101" ∧
      (packLine layout symbols line' (Bits.zeros 9)).2 = .ok "000000101" := by
  intro layout line line' symbols
  have built : layout.Built :=
    ⟨[("OP_", .int 0, .int 2), ("PROCEDURE_", .int 3, .int 6)], some (.int 9), by decide, by decide⟩
  have word : (packLine layout [] line (Bits.zeros 9)).2 = .ok "000000101" := by decide +kernel
  have size : (Bits.zeros 9).size = layout.width := by decide
  obtain ⟨word', done'⟩ := (packing_places_numbers built symbols line' size).1.mpr (by decide)
  obtain ⟨_, _, _, same⟩ := (packing_places_numbers built [] line size).2 _ word
  have agree := (same symbols line' (Bits.zeros 9) word' size done').mpr (by decide)
  exact ⟨word, agree ▸ done'⟩

end Microcode
