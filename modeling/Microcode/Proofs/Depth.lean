import Microcode.Proofs.Finalize
import Mathlib.Data.Nat.Log
import Mathlib.Logic.Relation

/-!
The depth of a memory. The search for it is a loop that doubles a depth as long as it is below the
count, so what is left of the way to the count shrinks in every round; only from depth zero would
the loop go on for ever. It ends at two to the rounded-up logarithm of the count.
-/
namespace Microcode

inductive Doubles (count : Int) : Nat → Nat → Prop where
  | round {depth : Nat} (below : depth < count) : Doubles count depth (depth * 2)

theorem doubling_ends {count : Int} {depth : Nat} (positive : 0 < depth) :
    Acc (fun next depth => Doubles count depth next) depth := by
  -- a positive depth grows in every round, so there is less left up to the count
  induction left : (count - depth).toNat using Nat.strongRecOn generalizing depth with
  | ind n ih =>
    constructor
    rintro next ⟨below⟩
    exact ih (count - (depth * 2 : Nat)).toNat (by omega) (by omega) rfl

theorem doubleUntil_runs {count : Int} {depth : Nat} (positive : 0 < depth) :
    Relation.ReflTransGen (Doubles count) depth (doubleUntil count.toNat depth positive) := by
  fun_induction doubleUntil count.toNat depth positive with
  | case1 depth positive below ih => exact .head (.round (by omega)) ih
  | case2 depth positive reached => exact .refl

theorem romDepth_eq_pow (n : Int) : romDepth n = 2 ^ Nat.clog 2 n.toNat := by
  obtain ⟨m, depth, enough, least⟩ :=
    doubleUntil_power n.toNat 0 (by decide) fun j _ => Nat.zero_le j
  have logarithm : m = Nat.clog 2 n.toNat := by
    apply Nat.le_antisymm
    · exact least _ (Nat.le_pow_clog (by decide) _)
    · exact Nat.clog_le_of_le_pow enough
  simpa [romDepth, ← logarithm] using depth

theorem le_romDepth (n : Int) : n ≤ romDepth n := by
  have enough := Nat.le_pow_clog (by decide : 1 < 2) n.toNat
  simp only [romDepth_eq_pow]
  omega

theorem romDepth_le_pow {n : Int} {k : Nat} (enough : n ≤ 2 ^ k) : romDepth n ≤ 2 ^ k := by
  have reached : n.toNat ≤ 2 ^ k := by
    apply Int.toNat_le.mpr
    exact_mod_cast enough
  simp only [romDepth_eq_pow]
  exact Nat.pow_le_pow_right (by decide) (Nat.clog_le_of_le_pow reached)

theorem romDepth_lt_double {n : Int} (positive : 1 ≤ n) : (romDepth n : Int) < 2 * n := by
  by_cases one : n = 1
  · subst one
    simp [romDepth_eq_pow]
  · -- the depth before the last round was still below the count
    have several : 1 < n.toNat := by omega
    have last := Nat.pow_pred_clog_lt_self (by decide : 1 < 2) several
    have rounds := Nat.clog_pos (by decide : 1 < 2) several
    obtain ⟨k, logarithm⟩ := Nat.exists_eq_succ_of_ne_zero (Nat.ne_of_gt rounds)
    simp only [logarithm, Nat.pred_succ] at last
    simp only [romDepth_eq_pow, logarithm, Nat.pow_succ]
    omega

/-- The search for a depth ends, at the least power of two that is neither below the count nor
below one. A larger count has no smaller depth, and a depth is its own. -/
theorem depth_least_power (n : Int) :
    (Acc (fun next depth => Doubles n depth next) 1 ∧
      Relation.ReflTransGen (Doubles n) 1 (romDepth n) ∧
      ∀ next, ¬ Doubles n (romDepth n) next) ∧
    (∃ k : Nat, romDepth n = 2 ^ k) ∧ n ≤ romDepth n ∧
    (∀ k : Nat, max n 1 ≤ 2 ^ k → romDepth n ≤ 2 ^ k) ∧
    (1 ≤ n → (romDepth n : Int) < 2 * n) ∧
    (∀ m : Int, n ≤ m → romDepth n ≤ romDepth m) ∧
    romDepth (romDepth n) = romDepth n := by
  refine ⟨⟨doubling_ends Nat.one_pos, doubleUntil_runs Nat.one_pos, ?_⟩,
    ⟨_, romDepth_eq_pow n⟩, le_romDepth n, ?_, romDepth_lt_double, ?_, ?_⟩
  · rintro next ⟨below⟩
    have reached := le_romDepth n
    omega
  · intro k enough
    exact romDepth_le_pow (Int.le_trans (Int.le_max_left n 1) enough)
  · intro m larger
    simp only [romDepth_eq_pow]
    exact Nat.pow_le_pow_right (by decide) (Nat.clog_mono_right 2 (Int.toNat_le_toNat larger))
  · rw [romDepth_eq_pow (romDepth n), Int.toNat_natCast, romDepth_eq_pow n,
      Nat.clog_pow 2 _ (by decide)]

/-- A count just above a power of two, one at it, and one below zero. -/
theorem depth_least_power_five :
    (max 5 1 ≤ (2 : Int) ^ 3 ∧ romDepth 5 ≤ 2 ^ 3) ∧ ((1 : Int) ≤ 5 ∧ (romDepth 5 : Int) < 10) ∧
      ((4 : Int) ≤ 5 ∧ romDepth 4 ≤ romDepth 5) ∧
      Acc (fun next depth => Doubles 5 depth next) 1 ∧ romDepth (-3) ≤ 2 ^ 0 := by
  obtain ⟨⟨ends, _⟩, _, _, least, below, _⟩ := depth_least_power 5
  obtain ⟨_, _, _, _, _, larger, _⟩ := depth_least_power 4
  obtain ⟨_, _, _, least', _⟩ := depth_least_power (-3)
  exact ⟨⟨by decide, least 3 (by decide)⟩, ⟨by decide, below (by decide)⟩,
    ⟨by decide, larger 5 (by decide)⟩, ends, least' 0 (by decide)⟩

end Microcode
