import Microcode.Proofs.Packing

/-!
Runs of positions in a buffer. A run is written position by position, and a position below zero
counts from the end, so a run that crosses zero comes back to bits it has already written: the later
position counts. The first position outside the buffer ends a run, and what was written before it
stays.
-/
namespace Microcode

def Error.IsMisplaced (e : Error) : Prop := e = .bitOutOfRange ∨ e = .bitTooFar

namespace Bits

def Addresses (length : Nat) (position : Int) (i : Nat) : Prop :=
  i < length ∧ (position = i ∨ position < 0 ∧ position + length = i)

/-- The positions from `first` on and before `stop` have been written, one after the other, with
the bits of a number, lowest first; nothing else has. -/
structure Written (bits : Bits) (value first stop : Int) (after : Bits) : Prop where
  size : after.size = bits.size
  written : ∀ (position : Int) (i : Nat), first ≤ position → position < stop →
    Addresses bits.size position i →
    (∀ later : Int, position < later → later < stop → ¬ Addresses bits.size later i) →
    after[i]? = some (.int (value / 2 ^ (position - first).toNat % 2))
  kept : ∀ i : Nat,
    (∀ position : Int, first ≤ position → position < stop → ¬ Addresses bits.size position i) →
    after[i]? = bits[i]?

/-- The number that bits stand for, the lowest one first. -/
def number : List Value → Int
  | [] => 0
  | v :: rest => v.toInt + 2 * number rest

/-- The bits of a run that does not begin below zero. -/
def run (bits : Bits) (first last : Int) : List Value :=
  (bits.toList.drop first.toNat).take (last - first + 1).toNat

/-! Positions. -/

theorem place?_eq_some_iff {length : Nat} {position : Int} {i : Nat} :
    place? length position = some i ↔ Addresses length position i := by
  unfold place? Addresses
  split
  · split <;> simp <;> omega
  · split <;> simp <;> omega

theorem place?_eq_none_iff {length : Nat} {position : Int} :
    place? length position = none ↔ position < -length ∨ length ≤ position := by
  unfold place?
  split
  · split <;> simp <;> omega
  · split <;> simp <;> omega

theorem Addresses.unique {length : Nat} {position : Int} {i j : Nat}
    (first : Addresses length position i) (second : Addresses length position j) : i = j := by
  unfold Addresses at first second
  omega

theorem misplaced_isMisplaced (position : Int) : (misplaced position).IsMisplaced := by
  unfold misplaced Error.IsMisplaced
  split <;> simp

/-! What a run writes. -/

section

variable {bits mid after : Bits} {value first stop : Int}

theorem Written.none (bits : Bits) (value : Int) (empty : stop ≤ first) :
    bits.Written value first stop bits := by
  refine ⟨rfl, ?_, fun _ _ => rfl⟩
  intro position i above below
  omega

theorem Written.stop_eq {stop' : Int} (written : bits.Written value first stop after)
    (same : ∀ position : Int, first ≤ position → (position < stop ↔ position < stop')) :
    bits.Written value first stop' after := by
  refine ⟨written.size, ?_, ?_⟩
  · intro position i above below here last
    refine written.written position i above ((same position above).mpr below) here ?_
    intro later beyond before
    exact last later beyond ((same later (by omega)).mp before)
  · intro i clear
    apply written.kept
    intro position above below
    exact clear position above ((same position above).mp below)

theorem Written.step {i : Nat} (written : bits.Written value first stop mid)
    (started : first ≤ stop) (here : Addresses bits.size stop i) :
    bits.Written value first (stop + 1)
      (mid.setIfInBounds i (.int (value / 2 ^ (stop - first).toNat % 2))) := by
  refine ⟨by simp [written.size], ?_, ?_⟩
  · intro position j above below there last
    -- the new position counts for the bit where it lies, even if an earlier one lies there, too
    by_cases now : position = stop
    · subst now
      obtain rfl := here.unique there
      have inside : i < mid.size := by
        rw [written.size]
        exact here.1
      simp [inside]
    · have other : i ≠ j := by
        rintro rfl
        exact last stop (by omega) (by omega) here
      simp only [Array.getElem?_setIfInBounds_ne other]
      apply written.written position j above (by omega) there
      intro later beyond before
      exact last later beyond (by omega)
  · intro j clear
    have other : i ≠ j := by
      rintro rfl
      exact clear stop started (by omega) here
    simp only [Array.getElem?_setIfInBounds_ne other]
    apply written.kept
    intro position above below
    exact clear position above (by omega)

theorem shifted_bit {position : Int} (value : Int) (started : first ≤ position) :
    value / 2 ^ (position - first).toNat / 2 = value / 2 ^ (position + 1 - first).toNat := by
  have next : (position + 1 - first).toNat = (position - first).toNat + 1 := by omega
  rw [next, Int.pow_succ, Int.ediv_ediv_of_nonneg (Int.le_of_lt (Int.pow_pos (by decide)))]

/-- A run goes on up to its end or to the end of the buffer, whichever comes first. -/
theorem fillFrom_writes {position : Int} (count : Nat) (started : first ≤ position)
    (low : -(bits.size : Int) ≤ first) (sofar : bits.Written value first position mid) :
    let done := fillFrom count position (value / 2 ^ (position - first).toNat) mid
    (done.2 = if count = 0 ∨ position + count ≤ bits.size then .ok ()
      else .error (misplaced (max position bits.size))) ∧
    bits.Written value first (min (position + count) (max position bits.size)) done.1 := by
  induction count generalizing position mid with
  | zero =>
    have all : min (position + (0 : Nat)) (max position bits.size) = position := by omega
    simpa only [fillFrom, true_or, if_true, all, true_and] using sofar
  | succ count ih =>
    cases place : place? bits.size position with
    | none =>
      -- a run that began inside can only leave the buffer at its end
      have beyond := place?_eq_none_iff.mp place
      have past : max position bits.size = position := by omega
      have all : min (position + (count + 1 : Nat)) position = position := by omega
      have exceeds : ¬ (count + 1 = 0 ∨ position + (count + 1 : Nat) ≤ bits.size) := by omega
      simpa only [fillFrom, sofar.size, place, if_neg exceeds, all, past, true_and] using sofar
    | some i =>
      have here := place?_eq_some_iff.mp place
      have inside : position < bits.size := by
        unfold Addresses at here
        omega
      obtain ⟨outcome, written⟩ := ih (by omega) (sofar.step started here)
      have all : min (position + 1 + count) (max (position + 1) bits.size) =
          min (position + (count + 1 : Nat)) (max position bits.size) := by omega
      have past : max (position + 1) (bits.size : Int) = max position bits.size := by omega
      have goes : (count = 0 ∨ position + 1 + count ≤ bits.size) ↔
          (count + 1 = 0 ∨ position + (count + 1 : Nat) ≤ bits.size) := by omega
      simp only [fillFrom, sofar.size, place, shifted_bit value started]
      simp only [goes, past] at outcome
      simp only [all] at written
      exact ⟨outcome, written⟩

theorem fill_below {last : Int} (value : Int) (some : first ≤ last)
    (low : first < -(bits.size : Int)) :
    bits.fill first last value = (bits, .error (misplaced first)) := by
  have outside := place?_eq_none_iff.mpr (.inl low)
  obtain ⟨count, length⟩ : ∃ count, (last - first + 1).toNat = count + 1 :=
    ⟨(last - first).toNat, by omega⟩
  simp only [fill, length, fillFrom, outside]

theorem fill_writes (value last : Int) (low : -(bits.size : Int) ≤ first) :
    ((bits.fill first last value).2 = if last < first ∨ last < bits.size then .ok ()
      else .error (misplaced (max first bits.size))) ∧
    bits.Written value first (min (last + 1) bits.size) (bits.fill first last value).1 := by
  have start : value / 2 ^ (first - first).toNat = value := by simp
  have done := fillFrom_writes (last - first + 1).toNat (Int.le_refl first) low
    (Written.none bits value (Int.le_refl first))
  rw [start] at done
  have goes : ((last - first + 1).toNat = 0 ∨ first + (last - first + 1).toNat ≤ bits.size) ↔
      (last < first ∨ last < bits.size) := by omega
  simp only [goes] at done
  refine ⟨done.1, done.2.stop_eq ?_⟩
  intro position above
  omega

theorem fill_empty {last : Int} (value : Int) (empty : last < first) :
    bits.fill first last value = (bits, .ok ()) := by
  have length : (last - first + 1).toNat = 0 := by omega
  simp only [fill, length, fillFrom]

theorem fill_result (bits : Bits) (first last value : Int) :
    (bits.fill first last value).2 =
      if first ≤ last ∧ (first < -(bits.size : Int) ∨ bits.size ≤ last) then
        .error (misplaced (if first < -(bits.size : Int) then first else max first bits.size))
      else .ok () := by
  by_cases empty : last < first
  · rw [fill_empty value empty, if_neg (by omega)]
  · by_cases low : first < -(bits.size : Int)
    · rw [fill_below value (by omega) low, if_pos ⟨by omega, .inl low⟩, if_pos low]
    · rw [(fill_writes value last (by omega)).1, if_neg low]
      by_cases inside : last < bits.size
      · rw [if_pos (.inr inside), if_neg (by omega)]
      · rw [if_neg (by omega), if_pos (by omega)]

theorem fill_error_iff {last : Int} :
    (∃ e, e.IsMisplaced ∧ (bits.fill first last value).2 = .error e) ↔
      first ≤ last ∧ (first < -(bits.size : Int) ∨ bits.size ≤ last) := by
  rw [fill_result]
  split
  · rename_i outside
    exact iff_of_true ⟨_, misplaced_isMisplaced _, rfl⟩ outside
  · rename_i inside
    refine iff_of_false ?_ inside
    rintro ⟨e, _, failed⟩
    cases failed

theorem fill_ok_iff {last : Int} :
    (bits.fill first last value).2 = .ok () ↔
      ¬ (first ≤ last ∧ (first < -(bits.size : Int) ∨ bits.size ≤ last)) := by
  rw [fill_result]
  split
  · rename_i outside
    exact iff_of_false (by rintro ⟨⟩) (not_not_intro outside)
  · rename_i inside
    exact iff_of_true rfl inside

theorem fill_inside {last : Int} (value : Int) (low : -(bits.size : Int) ≤ first)
    (high : last < bits.size) :
    bits.Written value first (last + 1) (bits.fill first last value).1 := by
  have stop : min (last + 1) (bits.size : Int) = last + 1 := by omega
  exact stop ▸ (fill_writes value last low).2

theorem fill_beyond {last : Int} (value : Int) (low : -(bits.size : Int) ≤ first)
    (high : bits.size ≤ last) :
    bits.Written value first bits.size (bits.fill first last value).1 := by
  have stop : min (last + 1) (bits.size : Int) = bits.size := by omega
  exact stop ▸ (fill_writes value last low).2

/-! Reading a run back. -/

theorem number_of_bits {values : List Value} {v : Int}
    (each : ∀ (k : Nat) (b : Value), values[k]? = some b → b = .int (v / 2 ^ k % 2)) :
    number values = v % 2 ^ values.length := by
  induction values generalizing v with
  | nil => simp [number]
  | cons b rest ih =>
    have lowest : b = .int (v % 2) := by simpa using each 0 b rfl
    have later : number rest = v / 2 % 2 ^ rest.length := by
      apply ih
      intro k c here
      have bit := each (k + 1) c here
      rwa [Int.pow_succ, Int.mul_comm, ← Int.ediv_ediv_of_nonneg (by decide)] at bit
    have split : v % 2 ^ (rest.length + 1) = v % 2 + 2 * (v / 2 % 2 ^ rest.length) := by
      rw [Int.pow_succ, Int.mul_comm, emod_double v (Int.pow_pos (by decide))]
    simp only [number, later, lowest, List.length_cons, split, Value.toInt]

theorem Written.run {last : Int} (written : bits.Written value first (last + 1) after)
    (low : 0 ≤ first) (order : first ≤ last) (high : last < bits.size) :
    number (after.run first last) = value % 2 ^ (last - first + 1).toNat := by
  have size := written.size
  have length : (after.run first last).length = (last - first + 1).toNat := by
    simp only [Bits.run, List.length_take, List.length_drop, Array.length_toList]
    omega
  rw [← length]
  apply number_of_bits
  intro k b here
  have short : k < (last - first + 1).toNat := length ▸ (List.getElem?_eq_some_iff.mp here).1
  have bit := written.written (first + k) (first.toNat + k) (by omega) (by omega)
    ⟨by omega, .inl (by omega)⟩ fun later beyond _ there => by
      unfold Addresses at there
      omega
  have offset : (first + k - first).toNat = k := by omega
  rw [offset] at bit
  rw [Bits.run, List.getElem?_take_of_lt short, List.getElem?_drop, Array.getElem?_toList,
    bit] at here
  exact (Option.some.inj here).symm

theorem Written.outside {last : Int} {i : Nat} (written : bits.Written value first (last + 1) after)
    (low : 0 ≤ first) (other : i < first ∨ last < i) : after[i]? = bits[i]? := by
  apply written.kept
  intro position above below there
  unfold Addresses at there
  omega

end

end Bits

/-- A run of positions is written up to the first one outside the buffer, and it is an error to come
to one. Below the buffer that is the first position, and nothing is written; otherwise it is the
first one above, and exactly the positions before it are. A run inside the buffer changes its own
bits only, and they stand for the number modulo a power of two, whatever its sign. -/
theorem bit_run_written (bits : Bits) (first last value : Int) :
    let size : Int := bits.size
    let after := (bits.fill first last value).1
    let outcome := (bits.fill first last value).2
    ((∃ e, e.IsMisplaced ∧ outcome = .error e) ↔
      first ≤ last ∧ (first < -size ∨ size ≤ last)) ∧
    (outcome = .ok () ↔ ¬ (first ≤ last ∧ (first < -size ∨ size ≤ last))) ∧
    (first ≤ last → first < -size → after = bits) ∧
    (first ≤ last → -size ≤ first → size ≤ last → bits.Written value first size after) ∧
    (-size ≤ first → last < size → bits.Written value first (last + 1) after) ∧
    (0 ≤ first → first ≤ last → last < size →
      outcome = .ok () ∧ after.size = bits.size ∧
      (∀ i : Nat, i < first ∨ last < i → after[i]? = bits[i]?) ∧
      Bits.number (after.run first last) = value % 2 ^ (last - first + 1).toNat) := by
  refine ⟨Bits.fill_error_iff, Bits.fill_ok_iff, ?_, ?_, Bits.fill_inside value, ?_⟩
  · intro some low
    exact congrArg Prod.fst (Bits.fill_below value some low)
  · intro _ low high
    exact Bits.fill_beyond value low high
  · intro low order high
    have written := Bits.fill_inside value (by omega : -(bits.size : Int) ≤ first) high
    refine ⟨Bits.fill_ok_iff.mpr (by omega), written.size, ?_, written.run low order high⟩
    intro i other
    exact written.outside low other

/-- Three bits: a run from below them, one that comes back to its first bit before it leaves them,
and one inside them. -/
theorem bit_run_written_three_bits :
    let bits : Bits := Bits.zeros 3
    (bits.fill (-4) 0 7 = (bits, .error .bitOutOfRange) ∧ (bits.fill (-4) 0 7).1 = bits) ∧
    (bits.fill (-1) 3 5 = (#[.int 0, .int 1, .int 0], .error .bitOutOfRange) ∧
      bits.Written 5 (-1) 3 (bits.fill (-1) 3 5).1) ∧
    (bits.fill 1 2 (-1) = (#[.int 0, .int 1, .int 1], .ok ()) ∧
      Bits.number ((bits.fill 1 2 (-1)).1.run 1 2) = (-1) % 2 ^ 2) := by
  intro bits
  obtain ⟨_, _, below, _⟩ := bit_run_written bits (-4) 0 7
  obtain ⟨_, _, _, beyond, _⟩ := bit_run_written bits (-1) 3 5
  obtain ⟨_, _, _, _, _, inside⟩ := bit_run_written bits 1 2 (-1)
  obtain ⟨_, _, _, number⟩ := inside (by decide) (by decide) (by decide)
  exact ⟨⟨by decide +kernel, below (by decide) (by decide)⟩,
    ⟨by decide +kernel, beyond (by decide) (by decide) (by decide)⟩, by decide +kernel, number⟩

end Microcode
