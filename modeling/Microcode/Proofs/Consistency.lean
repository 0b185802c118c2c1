import Microcode.Proofs.History
import Microcode.Proofs.Layout

/-!
The invariant of the builder. What holds of one line is said apart from what holds of the table of
labels, since a line only ever looks at the labels it already branches to, and those never move.
-/
namespace Microcode

structure Line.Sound (layout : Layout) (labels : Labels) (line : Line) : Prop where
  stems_declared : ∀ entry ∈ line.tokens, ∃ field ∈ layout.fields, field.stem = entry.1
  stems_once : (Assoc.keys line.tokens).Nodup
  symbols_owned : ∀ stem name, (stem, Token.symbol name) ∈ line.tokens →
    LongestStem layout name stem
  labels_branch : ∀ stem name, (stem, Token.label name) ∈ line.tokens →
    stem = branchStem ∧ line.branch = some name
  branch_token : ∀ label, line.branch = some label →
    line.tokens.lookup branchStem = some (.label label) ∨
    ∃ target, labels.lookup label = some target ∧
      0 ≤ target.toInt - line.index.toInt ∧ target.toInt - line.index.toInt ≤ maxBranch ∧
      line.tokens.lookup branchStem = some (.literal (.int (target.toInt - line.index.toInt)))

structure Builder.Sound (layout : Layout) (b : Builder) : Prop where
  layout_given : b.layout = some layout
  numbered : ∀ (i : Nat) (line : Line), b.lines[i]? = some line → line.index = .int i
  next : b.current.index = .int b.lines.length
  filled : ∀ line ∈ b.lines, line.tokens ≠ []
  lines_sound : ∀ line ∈ b.lines, line.Sound layout b.labels
  current_sound : b.current.Sound layout b.labels
  labels_once : (Assoc.keys b.labels).Nodup
  labels_within : ∀ entry ∈ b.labels, ∃ n : Nat, n ≤ b.lines.length ∧ entry.2 = .int n
  labels_ordered : b.labels.Pairwise fun e e' => e.2.toInt ≤ e'.2.toInt
  closed : b.resolved = true →
    b.current.tokens = [] ∧ ∀ line ∈ b.lines, line.pendingLabel? = none

namespace Line.Sound

variable {layout : Layout} {labels : Labels} {line : Line}

theorem fresh (layout : Layout) (labels : Labels) (index : Value) :
    (Line.fresh index).Sound layout labels := by
  refine ⟨?_, List.nodup_nil, ?_, ?_, ?_⟩
  · intro entry held
    cases held
  · intro stem name held
    cases held
  · intro stem name held
    cases held
  · intro label set
    cases set

theorem declare {name : String} (sound : line.Sound layout labels) (v : Value)
    (new : labels.lookup name = none) : line.Sound layout (labels.put name v) := by
  refine ⟨sound.stems_declared, sound.stems_once, sound.symbols_owned, sound.labels_branch, ?_⟩
  intro label set
  refine (sound.branch_token label set).imp id ?_
  rintro ⟨target, declared, reach⟩
  have other : label ≠ name := by
    rintro rfl
    rw [declared] at new
    cases new
  exact ⟨target, by rw [Assoc.lookup_put, if_neg other, declared], reach⟩

theorem no_label_of_free (sound : line.Sound layout labels)
    (free : line.tokens.lookup branchStem = none) (stem name : String) :
    (stem, Token.label name) ∉ line.tokens := by
  intro held
  have there := Assoc.lookup_of_mem sound.stems_once held
  rw [(sound.labels_branch stem name held).1, free] at there
  cases there

theorem no_label_of_settled (sound : line.Sound layout labels)
    (settled : line.pendingLabel? = none) (stem name : String) :
    (stem, Token.label name) ∉ line.tokens := by
  intro held
  have there := Assoc.lookup_of_mem sound.stems_once held
  rw [(sound.labels_branch stem name held).1] at there
  cases settled.symm.trans (Line.pendingLabel_eq_some.mpr there)

theorem store {stem : String} {token : Token} (sound : line.Sound layout labels)
    (source : Option Value) (fits : token.Fits layout stem)
    (free : line.tokens.lookup stem = none) :
    { line with source, tokens := line.tokens.put stem token }.Sound layout labels := by
  have stored := Assoc.put_new token free
  refine ⟨?_, Assoc.keys_put_nodup stem token sound.stems_once, ?_, ?_, ?_⟩
  · intro entry held
    rcases Assoc.mem_put held with rfl | old
    · cases token with
      | literal v => exact Layout.field?_isSome_iff.mp fits
      | symbol name =>
        obtain ⟨field, owned, same⟩ := fits
        exact same ▸ (Layout.owner?_longest owned).declared
      | label name => exact fits.elim
    · exact sound.stems_declared entry old
  · intro s name held
    rcases Assoc.mem_put held with new | old
    · cases new
      obtain ⟨field, owned, same⟩ := fits
      exact same ▸ Layout.owner?_longest owned
    · exact sound.symbols_owned s name old
  · intro s name held
    rcases Assoc.mem_put held with new | old
    · cases new
      exact fits.elim
    · exact sound.labels_branch s name old
  · intro label set
    have there := sound.branch_token label set
    -- a line with a branch has its branch field taken, and this field was free
    have other : branchStem ≠ stem := by
      rintro rfl
      rw [free] at there
      rcases there with pending | ⟨_, _, _, _, settled⟩
      · cases pending
      · cases settled
    simp only [Assoc.lookup_put, if_neg other]
    exact there

theorem branchTo {label : String} (sound : line.Sound layout labels) (source : Option Value)
    (field : (layout.field? branchStem).isSome) (free : line.tokens.lookup branchStem = none) :
    { line with source, tokens := line.tokens.put branchStem (.label label),
                branch := some label }.Sound layout labels := by
  refine ⟨?_, Assoc.keys_put_nodup _ _ sound.stems_once, ?_, ?_, ?_⟩
  · intro entry held
    rcases Assoc.mem_put held with rfl | old
    · exact Layout.field?_isSome_iff.mp field
    · exact sound.stems_declared entry old
  · intro s name held
    rcases Assoc.mem_put held with new | old
    · cases new
    · exact sound.symbols_owned s name old
  · intro s name held
    rcases Assoc.mem_put held with new | old
    · cases new
      exact ⟨rfl, rfl⟩
    · exact absurd old (sound.no_label_of_free free s name)
  · intro l set
    cases set
    exact .inl (by rw [Assoc.lookup_put, if_pos rfl])

theorem settle {line' : Line} (sound : line.Sound layout labels)
    (step : line.Settles labels line') : line'.Sound layout labels := by
  cases step with
  | same => exact sound
  | @branch label d pending reached =>
    have held := Assoc.mem_of_lookup (Line.pendingLabel_eq_some.mp pending)
    obtain ⟨target, declared, rfl, low, high⟩ := Line.distance_ok reached
    have once := Assoc.keys_put_nodup branchStem
      (.literal (.int (target.toInt - line.index.toInt))) sound.stems_once
    have settled :
        (line.setBranch label (target.toInt - line.index.toInt)).tokens.lookup branchStem =
          some (.literal (.int (target.toInt - line.index.toInt))) := by
      simp [Line.setBranch, Assoc.lookup_put]
    refine ⟨?_, once, ?_, ?_, ?_⟩
    · intro entry member
      rcases Assoc.mem_put member with rfl | old
      · exact sound.stems_declared (branchStem, .label label) held
      · exact sound.stems_declared entry old
    · intro s name member
      rcases Assoc.mem_put member with new | old
      · cases new
      · exact sound.symbols_owned s name old
    · intro s name member
      rcases Assoc.mem_put member with new | old
      · cases new
      · -- the only stem with a label is the one that was just overwritten
        have there := Assoc.lookup_of_mem once member
        rw [(sound.labels_branch s name old).1] at there
        cases there.symm.trans settled
    · intro l set
      cases set
      exact .inr ⟨target, declared, low, high, settled⟩

end Line.Sound

namespace Builder.Sound

variable {layout : Layout} {marks : Value → Prop} {b c : Builder}

theorem fresh (layout : Layout) (symbols : SymbolTable) (debug : Bool) :
    (Builder.fresh (some layout) symbols debug).Sound layout where
  layout_given := rfl
  numbered := by
    intro i line here
    cases here
  next := rfl
  filled := by
    intro line member
    cases member
  lines_sound := by
    intro line member
    cases member
  current_sound := Line.Sound.fresh layout [] _
  labels_once := List.nodup_nil
  labels_within := by
    intro entry member
    cases member
  labels_ordered := List.Pairwise.nil
  closed := by
    intro resolved
    cases resolved

theorem label {name : String} (sound : b.Sound layout) (unresolved : b.resolved = false)
    (new : b.labels.lookup name = none) :
    { b with labels := b.labels.put name b.lines.length }.Sound layout where
  layout_given := sound.layout_given
  numbered := sound.numbered
  next := sound.next
  filled := sound.filled
  lines_sound := fun line member => (sound.lines_sound line member).declare _ new
  current_sound := sound.current_sound.declare _ new
  labels_once := Assoc.keys_put_nodup name _ sound.labels_once
  labels_within := by
    intro entry member
    rcases Assoc.mem_put member with rfl | old
    · exact ⟨b.lines.length, Nat.le_refl _, rfl⟩
    · exact sound.labels_within entry old
  labels_ordered := by
    rw [Assoc.put_new _ new, List.pairwise_append]
    refine ⟨sound.labels_ordered, List.pairwise_singleton _ _, ?_⟩
    intro entry old last here
    obtain ⟨n, within, value⟩ := sound.labels_within entry old
    rw [List.mem_singleton.mp here, value]
    exact Int.ofNat_le.mpr within
  closed := by
    intro resolved
    cases unresolved.symm.trans resolved

theorem withCurrent {line : Line} (sound : b.Sound layout) (unresolved : b.resolved = false)
    (index : line.index = b.current.index) (sound' : line.Sound layout b.labels) :
    { b with current := line }.Sound layout where
  layout_given := sound.layout_given
  numbered := sound.numbered
  next := index.trans sound.next
  filled := sound.filled
  lines_sound := sound.lines_sound
  current_sound := sound'
  labels_once := sound.labels_once
  labels_within := sound.labels_within
  labels_ordered := sound.labels_ordered
  closed := by
    intro resolved
    cases unresolved.symm.trans resolved

theorem committed (sound : b.Sound layout) (unresolved : b.resolved = false) :
    b.committed.Sound layout := by
  unfold Builder.committed
  split
  · exact sound
  · rename_i filled
    exact {
      layout_given := sound.layout_given
      numbered := by
        intro i line here
        rcases concat_at here with old | ⟨rfl, rfl⟩
        · exact sound.numbered i line old
        · exact sound.next
      next := by simp [Line.fresh]
      filled := by
        intro line member
        rcases List.mem_append.mp member with old | new
        · exact sound.filled line old
        · rw [List.mem_singleton.mp new]
          exact fun empty => filled (List.isEmpty_iff.mpr empty)
      lines_sound := by
        intro line member
        rcases List.mem_append.mp member with old | new
        · exact sound.lines_sound line old
        · rw [List.mem_singleton.mp new]
          exact sound.current_sound
      current_sound := Line.Sound.fresh layout b.labels _
      labels_once := sound.labels_once
      labels_within := by
        intro entry member
        obtain ⟨n, within, value⟩ := sound.labels_within entry member
        exact ⟨n, by simp only [List.length_append]; omega, value⟩
      labels_ordered := sound.labels_ordered
      closed := by
        intro resolved
        cases unresolved.symm.trans resolved }

theorem resolve (sound : b.Sound layout) : b.resolveBranches.builder.Sound layout where
  layout_given := sound.layout_given
  numbered := by
    intro i line' after
    obtain ⟨line, before, step⟩ := resolve_line_at after
    exact step.index_eq.trans (sound.numbered i line before)
  next := by rw [resolveBranches_length]; exact sound.next
  filled := by
    intro line' member
    obtain ⟨i, after⟩ := List.mem_iff_getElem?.mp member
    obtain ⟨line, before, step⟩ := resolve_line_at after
    exact step.filled (sound.filled line (List.mem_of_getElem? before))
  lines_sound := by
    intro line' member
    obtain ⟨i, after⟩ := List.mem_iff_getElem?.mp member
    obtain ⟨line, before, step⟩ := resolve_line_at after
    exact (sound.lines_sound line (List.mem_of_getElem? before)).settle step
  current_sound := sound.current_sound
  labels_once := sound.labels_once
  labels_within := by rw [resolveBranches_length]; exact sound.labels_within
  labels_ordered := sound.labels_ordered
  closed := by
    intro resolved
    obtain ⟨empty, settled⟩ := sound.closed resolved
    refine ⟨empty, ?_⟩
    intro line' member
    obtain ⟨i, after⟩ := List.mem_iff_getElem?.mp member
    obtain ⟨line, before, step⟩ := resolve_line_at after
    have clear := settled line (List.mem_of_getElem? before)
    rw [step.eq_of_settled clear]
    exact clear

theorem change (step : Change layout marks b c) (sound : b.Sound layout) : c.Sound layout := by
  cases step with
  | source line known => exact { sound with }
  | symbols table => exact { sound with }
  | label name unresolved named ascii new => exact sound.label unresolved new
  | token stem token unresolved fits free =>
    exact sound.withCurrent unresolved rfl (sound.current_sound.store _ fits free)
  | branch label unresolved field free =>
    exact sound.withCurrent unresolved rfl (sound.current_sound.branchTo _ field free)
  | commit unresolved => exact sound.committed unresolved
  | resolve => exact sound.resolve
  | close empty settled => exact { sound with closed := fun _ => ⟨empty, settled⟩ }

theorem evolves (run : Evolves layout marks b c) (sound : b.Sound layout) : c.Sound layout :=
  run.invariant change sound

theorem afterCalls [Machine] (layout : Layout) (symbols : SymbolTable) (debug : Bool)
    (calls : List Call) :
    ((Builder.fresh (some layout) symbols debug).afterCalls calls).Sound layout :=
  (fresh layout symbols debug).evolves (afterCalls_reached rfl calls)

end Builder.Sound

/-- The invariant of every session, whatever becomes of its calls. -/
theorem session_invariant [Machine] (layout : Layout) (symbols : SymbolTable) (debug : Bool)
    (calls : List Call) :
    let b := (Builder.fresh (some layout) symbols debug).afterCalls calls
    -- addresses
    ((∀ (i : Nat) (line : Line), b.lines[i]? = some line → line.index = .int i) ∧
      b.current.index = .int b.lines.length) ∧
    (∀ line ∈ b.lines, line.tokens ≠ []) ∧
    -- tokens of committed lines and of the pending one
    (∀ line ∈ b.lines ++ [b.current],
      (∀ stem ∈ Assoc.keys line.tokens, ∃ field ∈ layout.fields, field.stem = stem) ∧
      (Assoc.keys line.tokens).Nodup ∧
      (∀ stem name, (stem, Token.symbol name) ∈ line.tokens → LongestStem layout name stem) ∧
      (∀ stem name, (stem, Token.label name) ∈ line.tokens →
        stem = branchStem ∧ line.branch = some name)) ∧
    (∀ line ∈ b.lines ++ [b.current], ∀ label, line.branch = some label →
      line.tokens.lookup branchStem = some (.label label) ∨
      ∃ target d : Int, b.labels.lookup label = some (.int target) ∧
        line.index.toInt + d = target ∧ 0 ≤ d ∧ d ≤ 15 ∧
        line.tokens.lookup branchStem = some (.literal (.int d))) ∧
    -- labels
    ((∀ entry ∈ b.labels, ∃ n : Nat, n ≤ b.lines.length ∧ entry.2 = .int n) ∧
      b.labels.Pairwise fun e e' => e.2.toInt ≤ e'.2.toInt) ∧
    -- after the branches are resolved
    (b.resolved = true →
      (∀ line ∈ b.lines ++ [b.current], ∀ stem name, (stem, Token.label name) ∉ line.tokens) ∧
      b.current.tokens = []) := by
  intro b
  have sound : b.Sound layout := Builder.Sound.afterCalls layout symbols debug calls
  have each : ∀ line ∈ b.lines ++ [b.current], line.Sound layout b.labels := by
    intro line member
    rcases List.mem_append.mp member with old | new
    · exact sound.lines_sound line old
    · rw [List.mem_singleton.mp new]
      exact sound.current_sound
  refine ⟨⟨sound.numbered, sound.next⟩, sound.filled, ?_, ?_,
    ⟨sound.labels_within, sound.labels_ordered⟩, ?_⟩
  · intro line member
    have here := each line member
    refine ⟨?_, here.stems_once, here.symbols_owned, here.labels_branch⟩
    intro stem held
    obtain ⟨entry, there, rfl⟩ := List.mem_map.mp held
    exact here.stems_declared entry there
  · intro line member label set
    refine ((each line member).branch_token label set).imp id ?_
    rintro ⟨target, declared, low, high, settled⟩
    obtain ⟨n, _, value⟩ := sound.labels_within _ (Assoc.mem_of_lookup declared)
    have value' : target = .int n := value
    subst value'
    exact ⟨n, n - line.index.toInt, declared, by omega, low, high, settled⟩
  · intro resolved
    obtain ⟨empty, settled⟩ := sound.closed resolved
    refine ⟨?_, empty⟩
    intro line member stem name
    rcases List.mem_append.mp member with old | new
    · exact (sound.lines_sound line old).no_label_of_settled (settled line old) stem name
    · rw [List.mem_singleton.mp new, empty]
      exact List.not_mem_nil

end Microcode
