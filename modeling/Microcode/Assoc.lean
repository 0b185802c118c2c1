/-!
Maps that remember the order of insertion, as lists of pairs. Looking up is `List.lookup`; storing
under a key that is already there replaces the entry in its place.
-/
namespace Microcode

abbrev Assoc (α : Type) := List (String × α)

namespace Assoc

variable {α : Type}

def put (key : String) (value : α) : Assoc α → Assoc α
  | [] => [(key, value)]
  | (k, v) :: rest => if k = key then (k, value) :: rest else (k, v) :: put key value rest

def ofPairs (pairs : List (String × α)) : Assoc α :=
  pairs.foldl (fun map pair => map.put pair.1 pair.2) []

def has (key : String) (map : Assoc α) : Bool := (map.lookup key).isSome

theorem lookup_put (key other : String) (value : α) (map : Assoc α) :
    (map.put key value).lookup other = if other = key then some value else map.lookup other := by
  induction map with
  | nil => by_cases h : other = key <;> simp [put, List.lookup_cons, h, beq_eq_false_iff_ne.mpr]
  | cons pair rest ih =>
    obtain ⟨k, v⟩ := pair
    by_cases hk : k = key <;> by_cases h : other = k <;>
      simp_all [put, List.lookup_cons, beq_eq_false_iff_ne.mpr]

end Assoc

end Microcode
