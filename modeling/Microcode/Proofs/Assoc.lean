import Microcode.Assoc
import Mathlib.Data.List.Nodup

/-!
Maps with each key stored once. Under that invariant looking up and membership say the same, a new
key goes to the end, and storing under an old key moves nothing.
-/
namespace Microcode.Assoc

variable {α : Type}

def keys (map : Assoc α) : List String := map.map Prod.fst

theorem mem_of_lookup {map : Assoc α} {key : String} {value : α}
    (found : map.lookup key = some value) : (key, value) ∈ map := by
  obtain ⟨before, after, rfl, _⟩ := List.lookup_eq_some_iff.mp found
  simp

theorem lookup_of_mem {map : Assoc α} {key : String} {value : α}
    (once : (keys map).Nodup) (held : (key, value) ∈ map) : map.lookup key = some value := by
  induction map with
  | nil => cases held
  | cons pair rest ih =>
    simp only [keys, List.map_cons, List.nodup_cons] at once
    rcases List.mem_cons.mp held with rfl | later
    · simp
    · have other : key ≠ pair.1 := fun same =>
        once.1 (same ▸ List.mem_map_of_mem (f := Prod.fst) later)
      rw [List.lookup_cons, beq_eq_false_iff_ne.mpr other]
      exact ih once.2 later

theorem lookup_none_iff {map : Assoc α} {key : String} :
    map.lookup key = none ↔ key ∉ keys map := by
  rw [List.lookup_eq_none_iff]
  simp only [keys, List.mem_map, bne_iff_ne]
  constructor
  · rintro absent ⟨pair, held, same⟩
    exact absent pair held same.symm
  · intro absent pair held same
    exact absent ⟨pair, held, same.symm⟩

theorem lookup_perm {map map' : Assoc α} (perm : map.Perm map') (once : (keys map).Nodup)
    (key : String) : map.lookup key = map'.lookup key := by
  have once' : (keys map').Nodup := (perm.map Prod.fst).nodup_iff.mp once
  cases held : map.lookup key with
  | some v => exact (lookup_of_mem once' (perm.subset (mem_of_lookup held))).symm
  | none =>
    have absent : key ∉ keys map' := fun there =>
      lookup_none_iff.mp held ((perm.map Prod.fst).symm.subset there)
    exact (lookup_none_iff.mpr absent).symm

theorem ext {map map' : Assoc α} (same : keys map = keys map') (once : (keys map).Nodup)
    (held : ∀ key ∈ keys map, map.lookup key = map'.lookup key) : map = map' := by
  induction map generalizing map' with
  | nil => exact (List.map_eq_nil_iff.mp same.symm).symm
  | cons pair rest ih =>
    cases map' with
    | nil => cases same
    | cons pair' rest' =>
      obtain ⟨first, others⟩ := List.cons.inj same
      obtain ⟨new, once'⟩ := List.nodup_cons.mp once
      obtain ⟨key, v⟩ := pair
      obtain ⟨key', v'⟩ := pair'
      cases (first : key = key')
      have here := held key List.mem_cons_self
      rw [List.lookup_cons_self, List.lookup_cons_self] at here
      cases here
      refine congrArg _ (ih others once' ?_)
      intro other later
      have there := held other (List.mem_cons_of_mem _ later)
      have distinct : (other == key) = false :=
        beq_eq_false_iff_ne.mpr fun same => new (same ▸ later)
      rwa [List.lookup_cons, List.lookup_cons, distinct] at there

theorem put_new {map : Assoc α} {key : String} (value : α) (absent : map.lookup key = none) :
    map.put key value = map ++ [(key, value)] := by
  induction map with
  | nil => rfl
  | cons pair rest ih =>
    rw [lookup_none_iff, keys, List.map_cons, List.mem_cons, not_or] at absent
    have other : pair.1 ≠ key := fun same => absent.1 same.symm
    rw [put, if_neg other, ih (lookup_none_iff.mpr absent.2), List.cons_append]

theorem keys_put_old {map : Assoc α} {key : String} (value : α) (present : key ∈ keys map) :
    keys (map.put key value) = keys map := by
  induction map with
  | nil => cases present
  | cons pair rest ih =>
    by_cases same : pair.1 = key
    · rw [put, if_pos same]
      rfl
    · have later : key ∈ keys rest :=
        (List.mem_cons.mp present).resolve_left fun here => same here.symm
      rw [put, if_neg same]
      exact congrArg (pair.1 :: ·) (ih later)

theorem mem_put {map : Assoc α} {key : String} {value : α} {entry : String × α}
    (held : entry ∈ map.put key value) : entry = (key, value) ∨ entry ∈ map := by
  induction map with
  | nil => exact .inl (List.mem_singleton.mp held)
  | cons pair rest ih =>
    by_cases same : pair.1 = key
    · rw [put, if_pos same] at held
      rcases List.mem_cons.mp held with here | later
      · exact .inl (here.trans (congrArg (·, value) same))
      · exact .inr (List.mem_cons_of_mem _ later)
    · rw [put, if_neg same] at held
      rcases List.mem_cons.mp held with here | later
      · exact .inr (here ▸ List.mem_cons_self)
      · exact (ih later).imp id (List.mem_cons_of_mem _)

theorem put_ne_nil (map : Assoc α) (key : String) (value : α) : map.put key value ≠ [] := by
  cases map with
  | nil => simp [put]
  | cons pair rest =>
    rw [put]
    split <;> simp

theorem keys_put_nodup {map : Assoc α} (key : String) (value : α) (once : (keys map).Nodup) :
    (keys (map.put key value)).Nodup := by
  by_cases present : key ∈ keys map
  · rwa [keys_put_old value present]
  · rw [put_new value (lookup_none_iff.mpr present), keys, List.map_append, List.nodup_append]
    refine ⟨once, List.nodup_singleton key, ?_⟩
    intro k old new here same
    have new_key : new = key := List.mem_singleton.mp here
    exact present (new_key ▸ same ▸ old)

end Microcode.Assoc
