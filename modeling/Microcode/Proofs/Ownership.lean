import Microcode.Proofs.DeclarationOrder
import Microcode.Proofs.StreamAssembly
import Mathlib.Data.List.Nodup

/-!
Who owns a name. Of the stems that begin a name each begins the next longer one, so two of the same
length are equal, and since a layout holds each stem once, at most one field has the longest. The
owner is found by that description alone, in whatever order the fields were declared, and a name
that is assigned is stored with its owner and nowhere else.
-/
namespace Microcode

namespace Layout

/-- The stem of the field begins the name, and every other stem that does is shorter. -/
structure Owns (layout : Layout) (name : String) (f : Field) : Prop where
  declared : f ∈ layout.fields
  begins : f.stem.toList <+: name.toList
  longest : ∀ g ∈ layout.fields, g.stem.toList <+: name.toList → g.stem ≠ f.stem →
    g.stem.toList.length < f.stem.toList.length

theorem startsWith_iff {stem name : String} :
    Text.startsWith stem name = true ↔ stem.toList <+: name.toList :=
  List.isPrefixOf_iff_prefix

section

variable {layout layout' : Layout} {name : String} {f : Field}

theorem Owns.longestStem (owns : layout.Owns name f) : LongestStem layout name f.stem := by
  refine ⟨⟨f, owns.declared, rfl⟩, startsWith_iff.mpr owns.begins, ?_⟩
  intro g member begins
  by_cases same : g.stem = f.stem
  · exact .inl same
  · exact .inr (owns.longest g member (startsWith_iff.mp begins) same)

theorem owner?_owns (owned : layout.owner? name = some f) : layout.Owns name f := by
  have best := owner?_best layout name
  have longest := owner?_longest owned
  rw [owned] at best
  refine ⟨best.1, startsWith_iff.mp longest.begins, ?_⟩
  intro g member begins other
  exact (longest.longest g member (startsWith_iff.mpr begins)).resolve_left other

theorem owner?_eq_some_iff (once : (layout.fields.map Field.stem).Nodup) :
    layout.owner? name = some f ↔ layout.Owns name f := by
  constructor
  · exact owner?_owns
  · intro owns
    obtain ⟨g, owned, same⟩ := owner?_of_longest owns.longestStem
    have equal := List.inj_on_of_nodup_map once (owner?_owns owned).declared owns.declared same
    exact equal ▸ owned

theorem owner?_eq_none_iff :
    layout.owner? name = none ↔ ∀ f ∈ layout.fields, ¬ f.stem.toList <+: name.toList := by
  simp only [owner?_none_iff, ← startsWith_iff, Bool.not_eq_true]

theorem owner_exists (once : (layout.fields.map Field.stem).Nodup) (member : f ∈ layout.fields)
    (begins : f.stem.toList <+: name.toList) : ∃! g, layout.Owns name g := by
  cases owned : layout.owner? name with
  | none => exact absurd begins (owner?_eq_none_iff.mp owned f member)
  | some g =>
    refine ⟨g, owner?_owns owned, ?_⟩
    intro h owns
    have owned' := (owner?_eq_some_iff once).mpr owns
    exact Option.some.inj (owned'.symm.trans owned)

theorem owner?_reorder (once : (layout'.fields.map Field.stem).Nodup)
    (same : layout.Reorders layout') (name : String) :
    (layout'.owner? name).map Field.entry = (layout.owner? name).map Field.entry := by
  have stems := same.owner_eq name
  cases owned : layout.owner? name with
  | none =>
    simp only [owned, Option.map_none] at stems
    simp only [Option.map_eq_none_iff.mp stems.symm, Option.map_none]
  | some f =>
    simp only [owned, Option.map_some] at stems
    obtain ⟨g, owned', stem⟩ := Option.map_eq_some_iff.mp stems.symm
    -- the field itself is declared there, too, and its stem belongs to no other one
    obtain ⟨h, member, entry⟩ := same.mem (owner?_owns owned).declared
    have stem' : h.stem = f.stem := congrArg Prod.fst entry
    have equal := List.inj_on_of_nodup_map once (owner?_owns owned').declared member
      (stem.trans stem'.symm)
    simp only [owned', Option.map_some, equal, entry]

end

end Layout

/-! Assigning a name. -/

namespace Builder

variable {b : Builder} {layout : Layout} {name : String}

theorem assign_ok_iff (given : b.layout = some layout) :
    (b.assign name).result = .ok () ↔
      b.resolved = false ∧
        ∃ f, layout.owner? name = some f ∧ b.current.tokens.lookup f.stem = none := by
  unfold assign
  cases check : b.checkName name with
  | ok stem =>
    obtain ⟨⟨f, owned, rfl⟩, unresolved, free⟩ := (checkName_ok_iff given).mp check
    -- a name has no number in it, so that its debug message can always be printed
    exact iff_of_true (store_ok_iff.mpr fun _ => rfl) ⟨unresolved, f, owned, free⟩
  | error e =>
    refine iff_of_false (by rintro ⟨⟩) ?_
    rintro ⟨unresolved, f, owned, free⟩
    have passed := (checkName_ok_iff given).mpr ⟨⟨f, owned, rfl⟩, unresolved, free⟩
    cases check.symm.trans passed

theorem assign_stores {f : Field} (given : b.layout = some layout) (unresolved : b.resolved = false)
    (owned : layout.owner? name = some f) (free : b.current.tokens.lookup f.stem = none) :
    (b.assign name).builder = b.withToken f.stem (.symbol name) := by
  have passed := (checkName_ok_iff given).mpr ⟨⟨f, owned, rfl⟩, unresolved, free⟩
  simp only [assign, passed, store_builder]

end Builder

/-- A name is owned by the field with the longest stem that begins it: there is one such field
unless no stem begins the name, and it is found whatever the order of the declarations. An open
builder assigns the name if its owner holds nothing yet, and stores it there and nowhere else. -/
theorem longest_stem_owns [Machine] {layout : Layout} (built : layout.Built) (name : String) :
    (layout.owner? name = none ↔ ∀ f ∈ layout.fields, ¬ f.stem.toList <+: name.toList) ∧
    (∀ f, layout.owner? name = some f ↔ layout.Owns name f) ∧
    ((∃ f ∈ layout.fields, f.stem.toList <+: name.toList) → ∃! f, layout.Owns name f) ∧
    (∀ layout' : Layout, layout'.Built → layout.Reorders layout' →
      (layout'.owner? name).map Field.entry = (layout.owner? name).map Field.entry) ∧
    (∀ b : Builder, b.layout = some layout →
      ((b.assign name).result = .ok () ↔
        b.resolved = false ∧ ∃ f, layout.Owns name f ∧ b.current.tokens.lookup f.stem = none) ∧
      ((b.assign name).result = .ok () → ∃ f, layout.Owns name f ∧
        (b.assign name).builder = b.withToken f.stem (.symbol name) ∧
        (b.assign name).builder.current.tokens =
          b.current.tokens ++ [(f.stem, .symbol name)] ∧
        (b.assign name).builder.current.tokens.lookup f.stem = some (.symbol name) ∧
        ∀ stem, stem ≠ f.stem → (b.assign name).builder.current.tokens.lookup stem =
          b.current.tokens.lookup stem)) := by
  have once := built.sound.stems_once
  refine ⟨Layout.owner?_eq_none_iff, fun f => Layout.owner?_eq_some_iff once, ?_,
    fun layout' built' same => Layout.owner?_reorder built'.sound.stems_once same name, ?_⟩
  · rintro ⟨f, member, begins⟩
    exact Layout.owner_exists once member begins
  · intro b given
    have accepts := @Builder.assign_ok_iff b layout name given
    refine ⟨by simpa only [Layout.owner?_eq_some_iff once] using accepts, ?_⟩
    intro accepted
    obtain ⟨unresolved, f, owned, free⟩ := accepts.mp accepted
    have stored := Builder.assign_stores given unresolved owned free
    refine ⟨f, Layout.owner?_owns owned, stored, ?_, ?_, ?_⟩
    · simp only [stored, Builder.withToken, Assoc.put_new _ free]
    · simp only [stored, Builder.withToken, Assoc.lookup_put, if_true]
    · intro stem other
      simp only [stored, Builder.withToken, Assoc.lookup_put, if_neg other]

/-- Three nested stems, the longest one declared between the others. -/
theorem longest_stem_owns_nested :
    let layout : Layout := ⟨[⟨0, "L", .int 0, .int 0, by decide⟩,
      ⟨1, "LOAD_EA_", .int 1, .int 2, by decide⟩, ⟨2, "LOAD_", .int 3, .int 4, by decide⟩], .int 5⟩
    let layout' : Layout := ⟨[⟨0, "LOAD_EA_", .int 1, .int 2, by decide⟩,
      ⟨1, "LOAD_", .int 3, .int 4, by decide⟩, ⟨2, "L", .int 0, .int 0, by decide⟩], .int 5⟩
    let b := Builder.fresh (some layout) [] false
    layout.Built ∧ layout'.Built ∧ layout.Reorders layout' ∧
      (layout'.owner? "LOAD_EA_X").map Field.entry = some ("LOAD_EA_", .int 1, .int 2) ∧
      (∃! f, layout.Owns "LOAD_EA_X" f) ∧ (b.assign "LOAD_EA_X").result = .ok () ∧
      ∃ f, layout.Owns "LOAD_EA_X" f ∧
        (b.assign "LOAD_EA_X").builder.current.tokens = [(f.stem, .symbol "LOAD_EA_X")] := by
  intro layout layout' b
  have built : layout.Built :=
    ⟨[("L", .int 0, .int 0), ("LOAD_EA_", .int 1, .int 2), ("LOAD_", .int 3, .int 4)], none,
      by decide, by decide⟩
  have built' : layout'.Built :=
    ⟨[("LOAD_EA_", .int 1, .int 2), ("LOAD_", .int 3, .int 4), ("L", .int 0, .int 0)], none,
      by decide, by decide⟩
  have same : layout.Reorders layout' := ⟨by decide, rfl⟩
  have accepted : (b.assign "LOAD_EA_X").result = .ok () := by decide
  obtain ⟨_, _, one, reordered, assigned⟩ := longest_stem_owns built "LOAD_EA_X"
  have held : (⟨0, "L", .int 0, .int 0, by decide⟩ : Field) ∈ layout.fields := List.mem_cons_self
  obtain ⟨f, owns, _, tokens, _⟩ := (assigned b rfl).2 accepted
  exact ⟨built, built', same, (reordered layout' built' same).trans (by decide),
    one ⟨_, held, by decide⟩, accepted, f, owns, tokens⟩

end Microcode
