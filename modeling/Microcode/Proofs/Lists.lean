import Mathlib.Data.List.Forall2
import Mathlib.Data.List.Induction

/-!
Lists that are walked from the front: the first element with a property, two lists that go along
with each other, and what stands at a position.
-/
namespace Microcode

variable {α β γ δ : Type}

def First (P : α → Prop) (xs : List α) (x : α) : Prop :=
  ∃ before after, xs = before ++ x :: after ∧ P x ∧ ∀ y ∈ before, ¬ P y

theorem First.mem {P : α → Prop} {xs : List α} {x : α} (found : First P xs x) : x ∈ xs := by
  obtain ⟨before, after, rfl, _⟩ := found
  simp

theorem First.head {P : α → Prop} {x : α} (xs : List α) (here : P x) : First P (x :: xs) x :=
  ⟨[], xs, rfl, here, by simp⟩

theorem First.later {P : α → Prop} {xs : List α} {x y : α} (passed : ¬ P y)
    (found : First P xs x) : First P (y :: xs) x := by
  obtain ⟨before, after, rfl, here, clear⟩ := found
  refine ⟨y :: before, after, rfl, here, ?_⟩
  intro z member
  rcases List.mem_cons.mp member with rfl | earlier
  · exact passed
  · exact clear z earlier

theorem First.congr {P Q : α → Prop} {xs : List α} {x : α}
    (same : ∀ y ∈ xs, (P y ↔ Q y)) (found : First P xs x) : First Q xs x := by
  obtain ⟨before, after, rfl, here, clear⟩ := found
  refine ⟨before, after, rfl, (same x (by simp)).mp here, ?_⟩
  intro y earlier holds
  exact clear y earlier ((same y (by simp [earlier])).mpr holds)

theorem concat_at {xs : List α} {x y : α} {i : Nat} (here : (xs ++ [x])[i]? = some y) :
    xs[i]? = some y ∨ i = xs.length ∧ y = x := by
  rcases Nat.lt_or_ge i xs.length with old | last
  · exact .inl ((List.getElem?_append_left old).symm.trans here)
  · have bound := (List.getElem?_eq_some_iff.mp here).1
    rw [List.length_append, List.length_singleton] at bound
    have same : i = xs.length := by omega
    subst same
    rw [List.getElem?_concat_length] at here
    cases here
    exact .inr ⟨rfl, rfl⟩

theorem getLast?_filterMap {f : α → Option β} {p : α → Bool} {xs : List α}
    (same : ∀ x ∈ xs, (f x).isSome = p x) :
    (xs.filterMap f).getLast? = (xs.filter p).getLast?.bind f := by
  induction xs using List.reverseRecOn with
  | nil => rfl
  | append_singleton xs x ih =>
    have here := same x (by simp)
    rw [List.filterMap_append, List.filter_append, List.getLast?_append, List.getLast?_append,
      ih fun y member => same y (List.mem_append_left _ member)]
    cases made : f x with
    | none =>
      have passed : p x = false := by rw [← here, made]; rfl
      simp [made, passed]
    | some y =>
      have passed : p x = true := by rw [← here, made]; rfl
      simp [made, passed]

theorem along_at {R : α → β → Prop} {xs : List α} {ys : List β}
    (both : List.Forall₂ R xs ys) {i : Nat} {y : β} (here : ys[i]? = some y) :
    ∃ x, xs[i]? = some x ∧ R x y := by
  induction both generalizing i with
  | nil => cases here
  | @cons x _ _ _ related _ ih =>
    cases i with
    | zero =>
      cases here
      exact ⟨x, rfl, related⟩
    | succ i => exact ih here

theorem along_mem {R : α → β → Prop} {xs : List α} {ys : List β}
    (both : List.Forall₂ R xs ys) {y : β} (member : y ∈ ys) : ∃ x ∈ xs, R x y := by
  obtain ⟨i, here⟩ := List.mem_iff_getElem?.mp member
  obtain ⟨x, there, related⟩ := along_at both here
  exact ⟨x, List.mem_of_getElem? there, related⟩

theorem along_join {R : α → β → Prop} {S : α → γ → Prop} {xs : List α} {ys : List β}
    {zs : List γ} (first : List.Forall₂ R xs ys) (second : List.Forall₂ S xs zs) :
    List.Forall₂ (fun y z => ∃ x, R x y ∧ S x z) ys zs := by
  induction first generalizing zs with
  | nil =>
    cases second
    exact .nil
  | cons here _ ih =>
    cases second with
    | cons here' later' => exact .cons ⟨_, here, here'⟩ (ih later')

theorem exists_along {R : α → β → Prop} {xs : List α} (each : ∀ x ∈ xs, ∃ y, R x y) :
    ∃ ys, List.Forall₂ R xs ys := by
  induction xs with
  | nil => exact ⟨[], .nil⟩
  | cons x rest ih =>
    obtain ⟨⟨y, here⟩, later⟩ := List.forall_mem_cons.mp each
    obtain ⟨ys, all⟩ := ih later
    exact ⟨y :: ys, .cons here all⟩

theorem along_filterMap {R : α → β → Prop} {S : γ → δ → Prop} {f : α → Option γ}
    {g : β → Option δ} {xs : List α} {ys : List β} (both : List.Forall₂ R xs ys)
    (each : ∀ x y, R x y →
      f x = none ∧ g y = none ∨ ∃ u v, f x = some u ∧ g y = some v ∧ S u v) :
    List.Forall₂ S (xs.filterMap f) (ys.filterMap g) := by
  induction both with
  | nil => exact .nil
  | cons here _ ih =>
    rw [List.filterMap_cons, List.filterMap_cons]
    rcases each _ _ here with ⟨none, none'⟩ | ⟨u, v, some, some', related⟩
    · rw [none, none']
      exact ih
    · rw [some, some']
      exact .cons related ih

theorem First.along {R : α → β → Prop} {P : α → Prop} {Q : β → Prop}
    (same : ∀ x y, R x y → (P x ↔ Q y)) {xs : List α} {ys : List β} (both : List.Forall₂ R xs ys)
    {y : β} (found : First Q ys y) : ∃ x, First P xs x ∧ R x y := by
  induction both with
  | nil =>
    obtain ⟨before, after, impossible, _⟩ := found
    simp at impossible
  | @cons x z xs ys here later ih =>
    obtain ⟨before, after, split, holds, clear⟩ := found
    cases before with
    | nil =>
      cases split
      exact ⟨x, First.head xs ((same x y here).mpr holds), here⟩
    | cons w before =>
      cases split
      obtain ⟨passed, clear'⟩ := List.forall_mem_cons.mp clear
      obtain ⟨stop, first, related⟩ := ih ⟨before, after, rfl, holds, clear'⟩
      exact ⟨stop, first.later fun p => passed ((same x _ here).mp p), related⟩

end Microcode
