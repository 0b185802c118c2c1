import Microcode.Proofs.Layout
import Microcode.Proofs.Resolution
import Microcode.Word
import Mathlib.Algebra.Ring.Int.Defs

/-!
Packing, bit by bit. A write inside the buffer sets exactly the bits of its run; since the fields of
a layout share no bit, each of them still holds its own number at the end. The last part reads a
number back from the text of a word.
-/
namespace Microcode

def unsigned : List Char → Nat
  | [] => 0
  | c :: rest => (if c = '1' then 1 else 0) + 2 * unsigned rest

def Field.numberIn (f : Field) (word : String) : Nat :=
  unsigned ((word.toList.reverse.drop f.low).take f.width)

namespace Bits

theorem place?_inside {length p : Nat} (inside : p < length) : place? length p = some p := by
  simp [place?, inside]

theorem fillFrom_inside {count p : Nat} (value : Int) {bits : Bits}
    (inside : p + count ≤ bits.size) :
    (fillFrom count p value bits).2 = .ok () ∧
    (fillFrom count p value bits).1.size = bits.size ∧
    ∀ i : Nat, (fillFrom count p value bits).1[i]? =
      if p ≤ i ∧ i < p + count then some (.int (value / 2 ^ (i - p) % 2)) else bits[i]? := by
  induction count generalizing p value bits with
  | zero =>
    refine ⟨rfl, rfl, ?_⟩
    intro i
    have outside : ¬ (p ≤ i ∧ i < p + 0) := by omega
    rw [if_neg outside]
    rfl
  | succ count ih =>
    have here : p < bits.size := by omega
    have next : p + 1 + count ≤ (bits.setIfInBounds p (.int (value % 2))).size := by
      rw [Array.size_setIfInBounds]
      omega
    obtain ⟨done, size, each⟩ := ih (value / 2) next
    have unfolded : fillFrom (count + 1) p value bits =
        fillFrom count (p + 1 : Nat) (value / 2) (bits.setIfInBounds p (.int (value % 2))) := by
      rw [fillFrom, place?_inside here]
      rfl
    rw [unfolded]
    refine ⟨done, by rw [size, Array.size_setIfInBounds], ?_⟩
    intro i
    rw [each i]
    by_cases later : p + 1 ≤ i ∧ i < p + 1 + count
    · have whole : p ≤ i ∧ i < p + (count + 1) := by omega
      have shift : i - p = (i - (p + 1)) + 1 := by omega
      rw [if_pos later, if_pos whole, Int.ediv_ediv_of_nonneg (by decide), shift, Int.pow_succ,
        Int.mul_comm]
    · rw [if_neg later]
      by_cases first : i = p
      · subst first
        have whole : i ≤ i ∧ i < i + (count + 1) := by omega
        rw [if_pos whole]
        simp [here]
      · have outside : ¬ (p ≤ i ∧ i < p + (count + 1)) := by omega
        rw [if_neg outside, Array.getElem?_setIfInBounds_ne (Ne.symm first)]

theorem fill_field {f : Field} (value : Int) {bits : Bits} (inside : f.high < bits.size) :
    (bits.fill f.low f.high value).2 = .ok () ∧
    (bits.fill f.low f.high value).1.size = bits.size ∧
    ∀ i : Nat, (bits.fill f.low f.high value).1[i]? =
      if f.low ≤ i ∧ i ≤ f.high then some (.int (value / 2 ^ (i - f.low) % 2)) else bits[i]? := by
  have order := f.low_le_high
  have count : ((f.high : Int) - f.low + 1).toNat = f.width := by
    unfold Field.width
    omega
  have run : f.low + f.width ≤ bits.size := by
    unfold Field.width
    omega
  obtain ⟨done, size, each⟩ := fillFrom_inside value run
  unfold fill
  rw [count]
  refine ⟨done, size, ?_⟩
  intro i
  rw [each i]
  have same : (f.low ≤ i ∧ i < f.low + f.width) ↔ (f.low ≤ i ∧ i ≤ f.high) := by
    unfold Field.width
    omega
  simp only [same]

end Bits

/-- A field whose token stands for no number. -/
def Unpackable (symbols : SymbolTable) (line : Line) (f : Field) : Prop :=
  ∃ token e, line.tokens.lookup f.stem = some token ∧
    token.number symbols line f.stem = .error e

/-- Every field with a token holds its number, and every other bit is as before. -/
structure Packed (symbols : SymbolTable) (line : Line) (fields : List Field) (bits after : Bits) :
    Prop where
  size : after.size = bits.size
  written : ∀ f ∈ fields, ∀ token, line.tokens.lookup f.stem = some token →
    ∃ v, token.number symbols line f.stem = .ok v ∧
      ∀ i : Nat, f.low ≤ i → i ≤ f.high → after[i]? = some (.int (v / 2 ^ (i - f.low) % 2))
  kept : ∀ i : Nat,
    (∀ f ∈ fields, f.low ≤ i → i ≤ f.high → line.tokens.lookup f.stem = none) →
    after[i]? = bits[i]?

namespace Packed

variable {symbols : SymbolTable} {line : Line} {f : Field} {fields : List Field}
  {bits between after : Bits}

theorem skip (absent : line.tokens.lookup f.stem = none)
    (packed : Packed symbols line fields bits after) :
    Packed symbols line (f :: fields) bits after := by
  refine ⟨packed.size, ?_, ?_⟩
  · intro g member token held
    rcases List.mem_cons.mp member with rfl | later
    · cases absent.symm.trans held
    · exact packed.written g later token held
  · intro i clear
    exact packed.kept i fun g later => clear g (List.mem_cons_of_mem _ later)

/-- The fields after the first one leave its bits alone. -/
theorem write {token : Token} {v : Int} (apart : ∀ g ∈ fields, f.Apart g)
    (held : line.tokens.lookup f.stem = some token)
    (number : token.number symbols line f.stem = .ok v)
    (size : between.size = bits.size)
    (each : ∀ i : Nat, between[i]? =
      if f.low ≤ i ∧ i ≤ f.high then some (.int (v / 2 ^ (i - f.low) % 2)) else bits[i]?)
    (packed : Packed symbols line fields between after) :
    Packed symbols line (f :: fields) bits after := by
  refine ⟨packed.size.trans size, ?_, ?_⟩
  · intro g member token' held'
    rcases List.mem_cons.mp member with rfl | later
    · cases held.symm.trans held'
      refine ⟨v, number, ?_⟩
      intro i above below
      have untouched : after[i]? = between[i]? := by
        apply packed.kept
        intro g later above' below'
        have parted := apart g later
        rw [Field.apart_iff] at parted
        omega
      rw [untouched, each i, if_pos ⟨above, below⟩]
    · exact packed.written g later token' held'
  · intro i clear
    have outside : ¬ (f.low ≤ i ∧ i ≤ f.high) := by
      rintro ⟨above, below⟩
      cases (clear f List.mem_cons_self above below).symm.trans held
    rw [packed.kept i fun g later => clear g (List.mem_cons_of_mem _ later), each i, if_neg outside]

end Packed

/-- The fields of a line are packed one after the other, up to the first one whose token stands for
no number. -/
theorem packFields_result (symbols : SymbolTable) (line : Line) {fields : List Field} {bits : Bits}
    (fits : ∀ f ∈ fields, f.high < bits.size) (apart : fields.Pairwise Field.Apart) :
    (∃ after, packFields symbols line fields bits = (after, .ok ()) ∧
      Packed symbols line fields bits after) ∨
    ∃ f token e after, First (Unpackable symbols line) fields f ∧
      line.tokens.lookup f.stem = some token ∧ token.number symbols line f.stem = .error e ∧
      packFields symbols line fields bits = (after, .error e) := by
  induction fields generalizing bits with
  | nil =>
    refine .inl ⟨bits, rfl, rfl, ?_, ?_⟩
    · intro f member
      cases member
    · intro i _
      rfl
  | cons f rest ih =>
    obtain ⟨inside, fits'⟩ := List.forall_mem_cons.mp fits
    obtain ⟨parted, apart'⟩ := List.pairwise_cons.mp apart
    cases held : line.tokens.lookup f.stem with
    | none =>
      have passed : ¬ Unpackable symbols line f := by
        rintro ⟨token, e, held', _⟩
        cases held.symm.trans held'
      simp only [packFields, held]
      rcases ih fits' apart' with
        ⟨after, done, packed⟩ | ⟨g, token, e, after, first, there, why, failed⟩
      · exact .inl ⟨after, done, packed.skip held⟩
      · exact .inr ⟨g, token, e, after, first.later passed, there, why, failed⟩
    | some token =>
      cases number : token.number symbols line f.stem with
      | error e =>
        refine .inr ⟨f, token, e, bits, First.head rest ⟨token, e, held, number⟩, held, number, ?_⟩
        simp only [packFields, held, number]
      | ok v =>
        have passed : ¬ Unpackable symbols line f := by
          rintro ⟨token', e, held', failed⟩
          cases held.symm.trans held'
          cases number.symm.trans failed
        obtain ⟨done, size, each⟩ := Bits.fill_field v inside
        cases filled : bits.fill f.low f.high v with
        | mk between outcome =>
          simp only [filled] at done size each
          subst done
          have fits'' : ∀ g ∈ rest, g.high < between.size := by
            rw [size]
            exact fits'
          simp only [packFields, held, number, filled]
          rcases ih fits'' apart' with
            ⟨after, done, packed⟩ | ⟨g, token', e, after, first, there, why, failed⟩
          · exact .inl ⟨after, done, packed.write parted held number size each⟩
          · exact .inr ⟨g, token', e, after, first.later passed, there, why, failed⟩

theorem Packed.binary {symbols : SymbolTable} {line : Line} {fields : List Field} {after : Bits}
    {width : Nat} (packed : Packed symbols line fields (Bits.zeros width) after) :
    ∀ v ∈ after.toList, v = .int 0 ∨ v = .int 1 := by
  intro v member
  obtain ⟨i, there⟩ := List.mem_iff_getElem?.mp member
  rw [Array.getElem?_toList] at there
  by_cases clear : ∀ f ∈ fields, f.low ≤ i → i ≤ f.high → line.tokens.lookup f.stem = none
  · rw [packed.kept i clear, Bits.zeros, Array.getElem?_replicate] at there
    split at there
    · cases there
      exact .inl rfl
    · cases there
  · push Not at clear
    obtain ⟨f, held, above, below, some⟩ := clear
    obtain ⟨token, present⟩ := Option.ne_none_iff_exists'.mp some
    obtain ⟨n, _, each⟩ := packed.written f held token present
    rw [each i above below] at there
    cases there
    rcases Int.emod_two_eq (n / 2 ^ (i - f.low)) with zero | one
    · exact .inl (congrArg Value.int zero)
    · exact .inr (congrArg Value.int one)

/-! The text of a word. -/

def bitChar (v : Value) : Char := if v = .int 1 then '1' else '0'

theorem text_toList {bits : Bits} (binary : ∀ v ∈ bits.toList, v = .int 0 ∨ v = .int 1) :
    bits.text.toList = (bits.toList.map bitChar).reverse := by
  have digits : ∀ values : List Value, (∀ v ∈ values, v = .int 0 ∨ v = .int 1) →
      (values.map Value.text).flatMap String.toList = values.map bitChar := by
    intro values
    induction values with
    | nil => exact fun _ => rfl
    | cons v rest ih =>
      intro each
      obtain ⟨here, later⟩ := List.forall_mem_cons.mp each
      rw [List.map_cons, List.flatMap_cons, ih later]
      rcases here with rfl | rfl <;> rfl
  rw [Bits.text, String.toList_join, digits]
  · exact List.map_reverse
  · intro v member
    exact binary v (List.mem_reverse.mp member)

theorem emod_double (v : Int) {p : Int} (positive : 0 < p) :
    v % (2 * p) = v % 2 + 2 * (v / 2 % p) := by
  have split := Int.emod_add_mul_ediv v 2
  have split' := Int.emod_add_mul_ediv (v / 2) p
  have low := Int.emod_nonneg (v / 2) (Int.ne_of_gt positive)
  have high := Int.emod_lt_of_pos (v / 2) positive
  have unique := (@Int.ediv_emod_unique v (2 * p) (v % 2 + 2 * (v / 2 % p)) (v / 2 / p)
    (by omega)).mpr
  refine (unique ⟨?_, by omega, by omega⟩).2
  rw [Int.mul_assoc]
  omega

theorem unsigned_bits {digits : List Char} {v : Int}
    (each : ∀ (k : Nat) (c : Char), digits[k]? = some c → (c = '1' ↔ v / 2 ^ k % 2 = 1)) :
    (unsigned digits : Int) = v % 2 ^ digits.length := by
  induction digits generalizing v with
  | nil => simp [unsigned]
  | cons c rest ih =>
    have first := each 0 c rfl
    have later : (unsigned rest : Int) = v / 2 % 2 ^ rest.length := by
      apply ih
      intro k d here
      rw [each (k + 1) d here, Int.ediv_ediv_of_nonneg (by decide), Int.pow_succ, Int.mul_comm]
    rw [List.length_cons, Int.pow_succ, Int.mul_comm, emod_double v (Int.pow_pos (by decide)),
      ← later]
    simp only [Int.pow_zero, Int.ediv_one] at first
    rw [unsigned]
    split
    · rename_i one
      have odd := first.mp one
      push_cast
      omega
    · rename_i zero
      have even : v % 2 ≠ 1 := fun odd => zero (first.mpr odd)
      push_cast
      omega

theorem numberIn_of_bits {bits : Bits} {f : Field} {v : Int}
    (binary : ∀ b ∈ bits.toList, b = .int 0 ∨ b = .int 1) (inside : f.high < bits.size)
    (each : ∀ i : Nat, f.low ≤ i → i ≤ f.high →
      bits[i]? = some (.int (v / 2 ^ (i - f.low) % 2))) :
    (f.numberIn bits.text : Int) = v % 2 ^ f.width := by
  have order := f.low_le_high
  have length : (((bits.toList.map bitChar).drop f.low).take f.width).length = f.width := by
    rw [List.length_take, List.length_drop, List.length_map, Array.length_toList]
    unfold Field.width
    omega
  unfold Field.numberIn
  rw [text_toList binary, List.reverse_reverse]
  have read := @unsigned_bits (((bits.toList.map bitChar).drop f.low).take f.width) v
  rw [length] at read
  apply read
  intro k c here
  have short : k < f.width := by
    have bound := (List.getElem?_eq_some_iff.mp here).1
    omega
  have within : f.low + k ≤ f.high := by
    unfold Field.width at short
    omega
  rw [List.getElem?_take_of_lt short, List.getElem?_drop, List.getElem?_map,
    Array.getElem?_toList, each (f.low + k) (by omega) within] at here
  have shift : f.low + k - f.low = k := by omega
  rw [shift] at here
  cases here
  unfold bitChar
  split <;> simp_all

theorem Packed.numberIn {symbols : SymbolTable} {line : Line} {fields : List Field} {after : Bits}
    {width : Nat} (packed : Packed symbols line fields (Bits.zeros width) after)
    (fits : ∀ f ∈ fields, f.high < width) {f : Field} (member : f ∈ fields) {token : Token}
    (held : line.tokens.lookup f.stem = some token) :
    ∃ v, token.number symbols line f.stem = .ok v ∧
      (f.numberIn after.text : Int) = v % 2 ^ f.width := by
  obtain ⟨v, number, each⟩ := packed.written f member token held
  have size : after.size = width := packed.size.trans Array.size_replicate
  exact ⟨v, number, numberIn_of_bits packed.binary (size ▸ fits f member) each⟩

/-! Packing all lines. -/

/-- The word of a line: every field holds its number, and no bit is left over. -/
def Packs (layout : Layout) (symbols : SymbolTable) (line : Line) (word : String) : Prop :=
  ∃ after, Packed symbols line layout.fields (Bits.zeros layout.width) after ∧ word = after.text

theorem Packs.digits {layout : Layout} {symbols : SymbolTable} {line : Line} {word : String}
    (packs : Packs layout symbols line word) :
    word.toList.length = layout.width ∧ ∀ c ∈ word.toList, c = '0' ∨ c = '1' := by
  obtain ⟨after, packed, rfl⟩ := packs
  rw [text_toList packed.binary]
  constructor
  · rw [List.length_reverse, List.length_map, Array.length_toList, packed.size, Bits.zeros,
      Array.size_replicate]
  · intro c member
    obtain ⟨v, _, rfl⟩ := List.mem_map.mp (List.mem_reverse.mp member)
    unfold bitChar
    split
    · exact .inr rfl
    · exact .inl rfl

theorem packFrom_result {layout : Layout} (sound : layout.Sound) (symbols : SymbolTable)
    (lines : List Line) {bits : Bits} (size : bits.size = layout.width) :
    (∃ words, packFrom layout symbols lines bits = .ok words ∧
      List.Forall₂ (Packs layout symbols) lines words) ∨
    ∃ line f token e,
      First (fun l => ∃ g ∈ layout.fields, Unpackable symbols l g) lines line ∧
      First (Unpackable symbols line) layout.fields f ∧
      line.tokens.lookup f.stem = some token ∧ token.number symbols line f.stem = .error e ∧
      packFrom layout symbols lines bits = .error e := by
  have cleared : (Bits.zeros layout.width).size = layout.width := Array.size_replicate
  have fits : ∀ f ∈ layout.fields, f.high < (Bits.zeros layout.width).size := by
    rw [cleared]
    exact sound.fits
  induction lines generalizing bits with
  | nil => exact .inl ⟨[], rfl, .nil⟩
  | cons line rest ih =>
    rcases packFields_result symbols line fits sound.apart with
      ⟨after, done, packed⟩ | ⟨f, token, e, after, first, held, why, failed⟩
    · have word : packLine layout symbols line bits = (after, .ok after.text) := by
        simp only [packLine, size, done]
        rfl
      have passed : ¬ ∃ g ∈ layout.fields, Unpackable symbols line g := by
        rintro ⟨g, member, token, e, held, failed⟩
        obtain ⟨v, number, _⟩ := packed.written g member token held
        cases number.symm.trans failed
      rcases ih (packed.size.trans cleared) with
        ⟨words, done', all⟩ | ⟨stop, f, token, e, first, first', held, why, failed⟩
      · refine .inl ⟨after.text :: words, ?_, .cons ⟨after, packed, rfl⟩ all⟩
        simp only [packFrom, word, done']
        rfl
      · refine .inr ⟨stop, f, token, e, first.later passed, first', held, why, ?_⟩
        simp only [packFrom, word, failed]
        rfl
    · have word : packLine layout symbols line bits = (after, .error e) := by
        simp only [packLine, size, failed]
        rfl
      obtain ⟨before, later, split, here, _⟩ := first
      have found : ∃ g ∈ layout.fields, Unpackable symbols line g :=
        ⟨f, by rw [split]; simp, here⟩
      refine .inr ⟨line, f, token, e, First.head rest found,
        ⟨before, later, split, here, ‹_›⟩, held, why, ?_⟩
      simp only [packFrom, word]

/-! The word of a line on its own, in any layout. -/

theorem Bits.fillFrom_size (count : Nat) (position value : Int) (bits : Bits) :
    (fillFrom count position value bits).1.size = bits.size := by
  induction count generalizing position value bits with
  | zero => rfl
  | succ count ih =>
    rw [fillFrom]
    split
    · rfl
    · rw [ih, Array.size_setIfInBounds]

theorem packFields_size (symbols : SymbolTable) (line : Line) (fields : List Field) (bits : Bits) :
    (packFields symbols line fields bits).1.size = bits.size := by
  induction fields generalizing bits with
  | nil => rfl
  | cons f rest ih =>
    rw [packFields]
    split
    · exact ih bits
    · split
      · rfl
      · rename_i v _
        have size := Bits.fillFrom_size (f.high - f.low + 1 : Int).toNat f.low v bits
        split <;> rename_i after filled <;> rw [Bits.fill] at filled <;> rw [filled] at size
        · rw [ih, size]
        · exact size

def Line.word (layout : Layout) (symbols : SymbolTable) (line : Line) : Except Error String :=
  (packLine layout symbols line (Bits.zeros layout.width)).2

theorem packLine_size (layout : Layout) (symbols : SymbolTable) (line : Line) (bits : Bits) :
    (packLine layout symbols line bits).1.size = bits.size := by
  have cleared : (Bits.zeros bits.size).size = bits.size := Array.size_replicate
  rw [← cleared]
  exact packFields_size symbols line layout.fields (Bits.zeros bits.size)

/-- What was in the buffer before does not matter. -/
theorem packLine_congr (layout : Layout) (symbols : SymbolTable) (line : Line) {bits bits' : Bits}
    (size : bits.size = bits'.size) :
    packLine layout symbols line bits = packLine layout symbols line bits' := by
  unfold packLine
  rw [size]

theorem packLine_word {layout : Layout} {bits : Bits} (symbols : SymbolTable) (line : Line)
    (size : bits.size = layout.width) :
    (packLine layout symbols line bits).2 = line.word layout symbols ∧
      (packLine layout symbols line bits).1.size = layout.width := by
  have cleared : (Bits.zeros layout.width).size = layout.width := Array.size_replicate
  have same := packLine_congr layout symbols line (size.trans cleared.symm)
  exact ⟨congrArg Prod.snd same, (packLine_size layout symbols line bits).trans size⟩

theorem packFrom_ok_iff {layout : Layout} {symbols : SymbolTable} {lines : List Line}
    {words : List String} {bits : Bits} (size : bits.size = layout.width) :
    packFrom layout symbols lines bits = .ok words ↔
      List.Forall₂ (fun line word => line.word layout symbols = .ok word) lines words := by
  induction lines generalizing bits words with
  | nil =>
    rw [List.forall₂_nil_left_iff, packFrom]
    exact ⟨fun done => by cases done; rfl, fun empty => by rw [empty]⟩
  | cons line rest ih =>
    obtain ⟨word, size'⟩ := packLine_word symbols line size
    rw [packFrom, List.forall₂_cons_left_iff]
    split <;> rename_i packed <;> rw [packed] at word size' <;> rw [← word]
    · simp
    · rename_i after w
      simp only [Except.ok.injEq]
      constructor
      · intro done
        cases later : packFrom layout symbols rest after with
        | error e =>
          rw [later] at done
          cases done
        | ok ws =>
          rw [later] at done
          cases done
          exact ⟨w, ws, rfl, (ih size').mp later, rfl⟩
      · rintro ⟨_, ws, rfl, later, rfl⟩
        rw [(ih size').mpr later]
        rfl

theorem packLines_each [Machine] {layout : Layout} {symbols : SymbolTable} {lines : List Line}
    {words : List String} :
    packLines layout symbols lines = .ok words ↔
      Capacity.buffer layout.width = .ok () ∧
        List.Forall₂ (fun line word => line.word layout symbols = .ok word) lines words := by
  have cleared : (Bits.zeros layout.width).size = layout.width := Array.size_replicate
  rw [packLines, bind_ok_iff]
  simp only [packFrom_ok_iff cleared]
  constructor
  · rintro ⟨⟨⟩, room, all⟩
    exact ⟨room, all⟩
  · rintro ⟨room, all⟩
    exact ⟨(), room, all⟩

section

variable {layout : Layout} {symbols : SymbolTable} {line : Line}

theorem Packed.unique {fields : List Field} {bits after after' : Bits}
    (first : Packed symbols line fields bits after)
    (second : Packed symbols line fields bits after') : after = after' := by
  apply Array.ext_getElem?
  intro i
  by_cases clear : ∀ f ∈ fields, f.low ≤ i → i ≤ f.high → line.tokens.lookup f.stem = none
  · rw [first.kept i clear, second.kept i clear]
  · push Not at clear
    obtain ⟨f, member, above, below, present⟩ := clear
    obtain ⟨token, held⟩ := Option.ne_none_iff_exists'.mp present
    obtain ⟨v, number, each⟩ := first.written f member token held
    obtain ⟨w, number', each'⟩ := second.written f member token held
    cases number.symm.trans number'
    rw [each i above below, each' i above below]

theorem Layout.Sound.word_ok_iff {word : String} (sound : layout.Sound) :
    line.word layout symbols = .ok word ↔ Packs layout symbols line word := by
  have cleared : (Bits.zeros layout.width).size = layout.width := Array.size_replicate
  have fits : ∀ f ∈ layout.fields, f.high < (Bits.zeros layout.width).size := by
    rw [cleared]
    exact sound.fits
  unfold Line.word packLine
  rw [cleared]
  rcases packFields_result symbols line fits sound.apart with
    ⟨after, done, packed⟩ | ⟨f, token, e, after, ⟨before, later, split, _, _⟩, held, why, failed⟩
  · rw [done]
    constructor
    · intro text
      cases text
      exact ⟨after, packed, rfl⟩
    · rintro ⟨after', packed', rfl⟩
      rw [packed.unique packed']
      rfl
  · rw [failed]
    constructor
    · intro impossible
      cases impossible
    · rintro ⟨after', packed', rfl⟩
      obtain ⟨v, number, _⟩ := packed'.written f (by rw [split]; simp) token held
      cases number.symm.trans why

theorem packLines_ok_iff [Machine] (sound : layout.Sound) {lines : List Line}
    {words : List String} :
    packLines layout symbols lines = .ok words ↔
      Capacity.buffer layout.width = .ok () ∧
        List.Forall₂ (Packs layout symbols) lines words := by
  simp only [packLines_each, sound.word_ok_iff]

end

/-- Lines that hold the same tokens, in whatever order and wherever they stand. -/
structure Line.Alike (line line' : Line) : Prop where
  tokens : ∀ stem, line.tokens.lookup stem = line'.tokens.lookup stem
  branch : line.branch = line'.branch

/-- Where a line stands matters only for a token that stands for no number. -/
theorem number_elsewhere {symbols : SymbolTable} {line line' : Line} {stem : String} {token : Token}
    {v : Int} (number : token.number symbols line stem = .ok v) :
    token.number symbols line' stem = .ok v := by
  cases token with
  | literal w => exact number
  | symbol name =>
    simp only [Token.number] at number ⊢
    split at number
    · exact number
    · cases number
  | label name => cases number

/-- A line that can be packed is packed alike wherever the same tokens stand for the same
numbers. -/
theorem packFields_carry {symbols symbols' : SymbolTable} {line line' : Line} {fields : List Field}
    {bits after : Bits} (tokens : ∀ stem, line.tokens.lookup stem = line'.tokens.lookup stem)
    (numbers : ∀ (token : Token) (stem : String) (v : Int),
      token.number symbols line stem = .ok v → token.number symbols' line' stem = .ok v)
    (done : packFields symbols line fields bits = (after, .ok ())) :
    packFields symbols' line' fields bits = (after, .ok ()) := by
  induction fields generalizing bits with
  | nil => exact done
  | cons f rest ih =>
    rw [packFields] at done ⊢
    rw [← tokens]
    cases held : line.tokens.lookup f.stem with
    | none =>
      rw [held] at done
      exact ih done
    | some token =>
      simp only [held] at done ⊢
      cases number : token.number symbols line f.stem with
      | error e =>
        rw [number] at done
        cases done
      | ok v =>
        rw [number] at done
        rw [numbers token f.stem v number]
        dsimp only at done ⊢
        split at done
        · exact ih done
        · cases done

theorem Line.word_carry {layout : Layout} {symbols symbols' : SymbolTable} {line line' : Line}
    {word : String} (tokens : ∀ stem, line.tokens.lookup stem = line'.tokens.lookup stem)
    (numbers : ∀ (token : Token) (stem : String) (v : Int),
      token.number symbols line stem = .ok v → token.number symbols' line' stem = .ok v)
    (packs : line.word layout symbols = .ok word) : line'.word layout symbols' = .ok word := by
  unfold Line.word packLine at packs ⊢
  cases done : packFields symbols line layout.fields
      (Bits.zeros (Bits.zeros layout.width).size) with
  | mk after outcome =>
    rw [done] at packs
    cases outcome with
    | error e => cases packs
    | ok u =>
      rw [packFields_carry tokens numbers done]
      exact packs

theorem Line.Alike.word {layout : Layout} {symbols : SymbolTable} {line line' : Line}
    {word : String} (alike : line.Alike line') (packs : line.word layout symbols = .ok word) :
    line'.word layout symbols = .ok word :=
  Line.word_carry alike.tokens (fun _ _ _ => number_elsewhere) packs

theorem packLines_alike [Machine] {layout : Layout} {symbols : SymbolTable}
    {lines lines' : List Line} {words : List String} (alike : List.Forall₂ Line.Alike lines lines')
    (packed : packLines layout symbols lines = .ok words) :
    packLines layout symbols lines' = .ok words := by
  obtain ⟨room, all⟩ := packLines_each.mp packed
  refine packLines_each.mpr ⟨room, (along_join alike all).imp ?_⟩
  rintro line' word ⟨line, same, packs⟩
  exact same.word packs

end Microcode
