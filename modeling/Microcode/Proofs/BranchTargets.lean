import Microcode.Proofs.Finalize

/-!
Where branches lead. A branch set on a line stays with the line, and the label it names stays where
it was declared, so the offset in the word is the distance between the two, cut to the width of the
branch field. It is cut only in fields of fewer than four bits, and these are the ones that are
warned about.
-/
namespace Microcode

/-- The session sets a branch to the label on line `j`. -/
def Builder.BranchesAt [Machine] (b : Builder) (calls : List Call) (label : String) (j : Nat) :
    Prop :=
  ∃ s, (s, Act.branch label) ∈ b.history calls ∧ (s.referenceLabel label).result = .ok () ∧
    s.lines.length = j

/-- The session declares the label when `k` lines are committed. -/
def Builder.DeclaresAt [Machine] (b : Builder) (calls : List Call) (label : String) (k : Nat) :
    Prop :=
  ∃ s, (s, Act.declare label) ∈ b.history calls ∧ (s.declareLabel label).result = .ok () ∧
    s.lines.length = k

def Image.offsetAt? (image : Image) (layout : Layout) (j : Nat) : Option Nat :=
  match layout.field? branchStem, image.words[j]? with
  | some f, some word => some (f.numberIn word)
  | _, _ => none

/-- Building a layout warns that branches may be cut. -/
def Warned (events : List Event) : Prop := ∃ width, Event.notice (.narrowBranch width) ∈ events

/-! The line that a branch was set on. -/

/-- Line `j`, committed or pending, branches to the label. -/
def Builder.BranchOn (label : String) (j : Nat) (b : Builder) : Prop :=
  (b.lines.length = j ∧ b.current.branch = some label) ∨
    ∃ line, b.lines[j]? = some line ∧ line.branch = some label

theorem Line.Sound.branch_held {layout : Layout} {labels : Labels} {line : Line} {label : String}
    (sound : line.Sound layout labels) (set : line.branch = some label) :
    line.tokens.lookup branchStem ≠ none := by
  rcases sound.branch_token label set with pending | ⟨_, _, _, _, settled⟩
  · rw [pending]
    simp
  · rw [settled]
    simp

theorem Line.Sound.branch_settles {layout : Layout} {labels : Labels} {line line' : Line}
    {label : String} (sound : line.Sound layout labels) (set : line.branch = some label)
    (step : line.Settles labels line') : line'.branch = some label := by
  cases step with
  | same => exact set
  | @branch name d pending reached =>
    have held := Assoc.mem_of_lookup (Line.pendingLabel_eq_some.mp pending)
    rw [← set, (sound.labels_branch branchStem name held).2]
    rfl

namespace Builder.BranchOn

variable {layout : Layout} {marks : Value → Prop} {b c : Builder} {label : String} {j : Nat}

theorem withCurrent {line : Line} (on : b.BranchOn label j)
    (kept : b.current.branch = some label → line.branch = some label) :
    { b with current := line }.BranchOn label j :=
  on.imp_left fun ⟨here, set⟩ => ⟨here, kept set⟩

theorem committed (on : b.BranchOn label j) : b.committed.BranchOn label j := by
  unfold Builder.committed
  split
  · exact on
  · right
    rcases on with ⟨rfl, set⟩ | ⟨line, there, set⟩
    · exact ⟨b.current, List.getElem?_concat_length, set⟩
    · have old := (List.getElem?_eq_some_iff.mp there).1
      exact ⟨line, (List.getElem?_append_left old).trans there, set⟩

theorem resolve (sound : b.Sound layout) (on : b.BranchOn label j) :
    b.resolveBranches.builder.BranchOn label j := by
  rcases on with ⟨here, set⟩ | ⟨line, there, set⟩
  · exact .inl ⟨(resolveBranches_length b).trans here, set⟩
  · obtain ⟨line', there', step⟩ := along_at (resolve_settles b.labels b.lines).flip there
    have sound' := sound.lines_sound line (List.mem_of_getElem? there)
    exact .inr ⟨line', there', sound'.branch_settles set step⟩

theorem change (step : Change layout marks b c) (sound : b.Sound layout)
    (on : b.BranchOn label j) : c.BranchOn label j := by
  cases step with
  | token stem token unresolved fits free => exact on.withCurrent id
  | branch name unresolved field free =>
    exact on.withCurrent fun set => absurd free (sound.current_sound.branch_held set)
  | commit unresolved => exact on.committed
  | resolve => exact on.resolve sound
  | _ => exact on

theorem evolves (run : Evolves layout marks b c) (sound : b.Sound layout)
    (on : b.BranchOn label j) : c.BranchOn label j := by
  have both := run.invariant (P := fun d => d.Sound layout ∧ d.BranchOn label j)
    (fun step ⟨sound, on⟩ => ⟨sound.change step, on.change step sound⟩) ⟨sound, on⟩
  exact both.2

end Builder.BranchOn

theorem Builder.BranchesAt.branchOn [Machine] {layout : Layout} {b : Builder} {calls : List Call}
    {label : String} {j : Nat} (sound : b.Sound layout) (set : b.BranchesAt calls label j) :
    (b.afterCalls calls).BranchOn label j := by
  obtain ⟨s, made, succeeded, rfl⟩ := set
  obtain ⟨reached, remains⟩ := mem_history_evolves sound.layout_given made
  have given := reached.layout_eq.trans sound.layout_given
  have allowed : s.checkReference label = .ok () := by
    cases check : s.checkReference label with
    | ok u => rfl
    | error e =>
      rw [referenceLabel, check] at succeeded
      cases succeeded
  have after : (s.act (.branch label)).builder = _ := (referenceLabel_ok allowed).2
  have sound' : (s.act (.branch label)).builder.Sound layout :=
    (sound.evolves reached).evolves (act_evolves given (Act.within_any _))
  refine BranchOn.evolves remains sound' ?_
  rw [after]
  exact .inl ⟨rfl, rfl⟩

/-! The moment a label was declared. -/

namespace Builder

variable {layout : Layout} {b : Builder}

theorem acts_declare [Machine] {acts : List Act} {label : String} {v : Value}
    (declared : (b.acts acts).builder.labels.lookup label = some v) :
    b.labels.lookup label = some v ∨
    ∃ s, (s, Act.declare label) ∈ b.moments acts ∧ (s.declareLabel label).result = .ok () ∧
      v = .int s.lines.length := by
  induction acts generalizing b with
  | nil => exact .inl declared
  | cons a rest ih =>
    -- what the first act alone leaves, whether or not the others follow
    have first : (b.act a).builder.labels.lookup label = some v →
        b.labels.lookup label = some v ∨
        ∃ s, (s, Act.declare label) ∈ b.moments (a :: rest) ∧
          (s.declareLabel label).result = .ok () ∧ v = .int s.lines.length := by
      intro here
      rcases (act_frame b a).2 with same | ⟨name, rfl, succeeded, put⟩
      · exact .inl (same ▸ here)
      · rw [put, Assoc.lookup_put] at here
        split at here
        · rename_i named
          cases here
          subst named
          exact .inr ⟨b, List.mem_cons_self, succeeded, rfl⟩
        · exact .inl here
    cases result : (b.act a).result with
    | error e =>
      rw [acts, (Outcome.andThen_error result _).2] at declared
      exact first declared
    | ok u =>
      rw [acts, (Outcome.andThen_ok result _).2] at declared
      rcases ih declared with here | ⟨s, made, succeeded, value⟩
      · exact first here
      · refine .inr ⟨s, ?_, succeeded, value⟩
        rw [moments, result]
        exact List.mem_cons_of_mem _ made

theorem history_declare [Machine] {calls : List Call} {label : String} {v : Value}
    (given : b.layout = some layout)
    (declared : (b.afterCalls calls).labels.lookup label = some v) :
    b.labels.lookup label = some v ∨ ∃ k : Nat, v = .int k ∧ b.DeclaresAt calls label k := by
  induction calls generalizing b with
  | nil => exact .inl declared
  | cons call rest ih =>
    rw [afterCalls_cons] at declared
    rcases ih (perform_layout given call) declared with here | ⟨k, value, s, made, succeeded, lines⟩
    · rw [perform_builder given call] at here
      refine (acts_declare here).imp id ?_
      rintro ⟨s, made, succeeded, value⟩
      exact ⟨_, value, s, List.mem_append_left _ made, succeeded, rfl⟩
    · exact .inr ⟨k, value, s, List.mem_append_right _ made, succeeded, lines⟩

end Builder

/-! The offset in a word. -/

/-- The offset of a branch is the distance to its label, cut to the width of the branch field. -/
theorem branch_offset [Machine] {layout : Layout} (laid : layout.Sound) {symbols : SymbolTable}
    {debug : Bool} {calls : List Call} {image : Image} {label : String} {j : Nat}
    (accepted : ((Builder.fresh (some layout) symbols debug).afterCalls calls).finalize.result =
      .ok image)
    (set : (Builder.fresh (some layout) symbols debug).BranchesAt calls label j) :
    ∃ f d k, layout.field? branchStem = some f ∧ image.offsetAt? layout j = some d ∧
      ((Builder.fresh (some layout) symbols debug).afterCalls calls).labels.lookup label =
        some (.int (k : Nat)) ∧
      (Builder.fresh (some layout) symbols debug).DeclaresAt calls label k ∧
      j ≤ k ∧ k ≤ j + 15 ∧ d = (k - j) % 2 ^ f.width := by
  have start := Builder.Sound.fresh layout symbols debug
  have on := set.branchOn start
  have sound := Builder.Sound.afterCalls layout symbols debug calls
  have declared := fun {v} => @Builder.history_declare layout
    (Builder.fresh (some layout) symbols debug) _ calls label v rfl
  generalize (Builder.fresh (some layout) symbols debug).afterCalls calls = b at *
  obtain ⟨unresolved, _, settled, packs⟩ := finalize_packs laid sound accepted
  have sound' := (sound.committed unresolved).resolve
  have on' := on.committed.resolve (sound.committed unresolved)
  -- nothing is pending any more, so the branch is on a committed line
  rcases on' with ⟨_, pending⟩ | ⟨line, there, branch⟩
  · have held := sound'.current_sound.branch_held pending
    have empty : b.committed.resolveBranches.builder.current.tokens = [] :=
      Builder.committed_current b
    rw [empty] at held
    exact absurd rfl held
  · have here := sound'.lines_sound line (List.mem_of_getElem? there)
    have index := sound'.numbered j line there
    rw [settled_eq] at there
    have labels : b.committed.resolveBranches.builder.labels = b.labels :=
      Builder.committed_labels b
    rw [labels] at here
    have clear := settled line (List.mem_of_getElem? there)
    rcases here.branch_token label branch with waiting | ⟨target, known, low, high, token⟩
    · cases clear.symm.trans (Line.pendingLabel_eq_some.mpr waiting)
    · obtain ⟨word, written, after, packed, rfl⟩ := along_at packs.flip there
      rcases declared known with never | ⟨k, rfl, moment⟩
      · cases never
      · have held : (layout.field? branchStem).isSome :=
          Layout.field?_isSome_iff.mpr (here.stems_declared _ (Assoc.mem_of_lookup token))
        obtain ⟨f, field⟩ := Option.isSome_iff_exists.mp held
        obtain ⟨member, stem⟩ := Layout.field?_some field
        rw [← stem] at token
        obtain ⟨v, number, read⟩ := packed.numberIn laid.fits member token
        cases number
        rw [index] at low high read
        simp only [Value.toInt] at low high read
        unfold maxBranch at high
        have distance : (k : Int) - j = ((k - j : Nat) : Int) := by omega
        rw [distance] at read
        have offset : image.offsetAt? layout j = some (f.numberIn after.text) := by
          simp only [Image.offsetAt?, field, written]
        exact ⟨f, _, k, field, offset, known, moment, by omega, by omega, by exact_mod_cast read⟩

/-! A program whose first branch leads eight lines on. -/

/-- Lines that branch to one label, which is declared after them. -/
def farBranch (lines : Nat) : List Call :=
  (List.replicate lines [Call.referenceLabel "a", .endLine]).flatten ++ [.declareLabel "a"]

def branchLine (index : Nat) : Line :=
  ⟨.int index, none, [(branchStem, .label "a")], some "a"⟩

section

variable {layout : Layout} {symbols : SymbolTable} {debug : Bool}

theorem branch_round [Machine] {b : Builder} (given : b.layout = some layout)
    (field : (layout.field? branchStem).isSome) (unresolved : b.resolved = false)
    (nowhere : b.sourceLine = none) (empty : b.current = Line.fresh (.int b.lines.length)) :
    b.afterCalls [.referenceLabel "a", .endLine] =
      { b with lines := b.lines ++ [branchLine b.lines.length],
               current := Line.fresh (.int (b.lines.length + 1)) } := by
  have free : b.current.tokens.lookup branchStem = none := by
    rw [empty]
    rfl
  have allowed : b.checkReference "a" = .ok () :=
    (Builder.checkReference_ok_iff given).mpr ⟨by decide, by decide, field, unresolved, free⟩
  have set : (b.perform (.referenceLabel "a")).builder =
      { b with current := branchLine b.lines.length } := by
    have after := (Builder.referenceLabel_ok allowed).2
    simp only [Builder.perform, Outcome.map, after, Builder.withToken, Builder.withBranch, empty,
      nowhere]
    rfl
  have open_ : { b with current := branchLine b.lines.length }.checkOpen = .ok () :=
    (Builder.checkOpen_ok_iff given).mpr unresolved
  simp only [Builder.afterCalls, List.foldl_cons, List.foldl_nil, set]
  simp only [Builder.perform, Outcome.map, Builder.endLine, open_]
  rfl

theorem branch_rounds [Machine] (field : (layout.field? branchStem).isSome) (lines : Nat) :
    (Builder.fresh (some layout) symbols debug).afterCalls
      (List.replicate lines [Call.referenceLabel "a", .endLine]).flatten =
      { Builder.fresh (some layout) symbols debug with
        lines := (List.range lines).map branchLine, current := Line.fresh (.int lines) } := by
  induction lines with
  | zero => rfl
  | succ n ih =>
    rw [List.replicate_succ', List.flatten_append, Builder.afterCalls, List.foldl_append]
    rw [Builder.afterCalls] at ih
    rw [ih, List.flatten_singleton, ← Builder.afterCalls]
    have length : ((List.range n).map branchLine).length = n := by simp
    rw [branch_round rfl field rfl rfl (by simp only [length])]
    simp only [length, List.range_succ, List.map_append, List.map_singleton]
    rfl

theorem farBranch_state [Machine] (field : (layout.field? branchStem).isSome) (lines : Nat) :
    (Builder.fresh (some layout) symbols debug).afterCalls (farBranch lines) =
      { Builder.fresh (some layout) symbols debug with
        lines := (List.range lines).map branchLine, current := Line.fresh (.int lines),
        labels := [("a", .int lines)] } := by
  have rounds := @branch_rounds layout symbols debug _ field lines
  rw [Builder.afterCalls] at rounds
  rw [farBranch, Builder.afterCalls, List.foldl_append, rounds]
  have allowed : { Builder.fresh (some layout) symbols debug with
      lines := (List.range lines).map branchLine,
      current := Line.fresh (.int lines) }.checkDeclaration "a" = .ok () :=
    (Builder.checkDeclaration_ok_iff rfl).mpr ⟨rfl, by decide, by decide, rfl⟩
  simp only [List.foldl_cons, List.foldl_nil, Builder.perform, Outcome.map, Builder.declareLabel,
    allowed, List.length_map, List.length_range]
  rfl

theorem branchLine_reaches {lines i : Nat} (inside : i < lines) (near : lines ≤ 15)
    (fault : Fault) :
    ¬ BadBranch [("a", .int lines)] (branchLine i) fault := by
  have only : ∀ {stem name}, (stem, Token.label name) ∈ (branchLine i).tokens → name = "a" := by
    intro stem name held
    cases List.mem_singleton.mp held
    rfl
  have declared : List.lookup "a" [("a", Value.int lines)] = some (.int lines) := rfl
  intro bad
  cases bad with
  | undeclared held absent =>
    rw [only held, declared] at absent
    cases absent
  | outOfReach held known distance far =>
    rw [only held, declared] at known
    cases known
    simp only [branchLine, Value.toInt] at distance
    omega

theorem farBranch_accepted [Machine] (laid : layout.Sound)
    (field : (layout.field? branchStem).isSome) (room : layout.width * 8 ≤ Machine.memoryLimit)
    {lines : Nat} (near : lines ≤ 15) :
    ∃ image, ((Builder.fresh (some layout) symbols debug).afterCalls
      (farBranch lines)).finalize.result = .ok image := by
  have sound := Builder.Sound.afterCalls layout symbols debug (farBranch lines)
  have state := @farBranch_state layout symbols debug _ field lines
  generalize (Builder.fresh (some layout) symbols debug).afterCalls (farBranch lines) = b at *
  have labels : b.labels = [("a", .int lines)] := by rw [state]
  have each : ∀ line ∈ b.flushed, ∃ i < lines, line = branchLine i := by
    intro line member
    rw [state] at member
    obtain ⟨i, inside, rfl⟩ := List.mem_map.mp member
    exact ⟨i, List.mem_range.mp inside, rfl⟩
  have outcome := finalize_finalized laid sound (by rw [state]; rfl)
  generalize b.finalize.result = result at outcome ⊢
  cases outcome with
  | badBranch first why =>
    obtain ⟨i, inside, rfl⟩ := each _ first.mem
    rw [labels] at why
    exact absurd why (branchLine_reaches inside near _)
  | noMemory reached full why => omega
  | missingSymbol reached room first field why =>
    obtain ⟨i, inside, rfl⟩ := each _ first.mem
    cases why with
    | mk held absent =>
      have same := List.mem_singleton.mp (Assoc.mem_of_lookup held)
      cases congrArg Prod.snd same
  | @packed image => exact ⟨image, rfl⟩

theorem farBranch_branchesAt [Machine] (field : (layout.field? branchStem).isSome) (lines : Nat) :
    (Builder.fresh (some layout) symbols debug).BranchesAt (farBranch (lines + 1)) "a" 0 := by
  have allowed : (Builder.fresh (some layout) symbols debug).checkReference "a" = .ok () :=
    (Builder.checkReference_ok_iff rfl).mpr ⟨by decide, by decide, field, rfl, rfl⟩
  exact ⟨_, List.mem_cons_self, (Builder.referenceLabel_ok allowed).1, rfl⟩

end

theorem warned_iff {layout : Layout} :
    Warned layout.warnings ↔ ∃ f, layout.field? branchStem = some f ∧ f.width < 4 := by
  unfold Warned Layout.warnings
  cases layout.field? branchStem with
  | none => simp
  | some f =>
    by_cases narrow : f.width < 4
    · simp [narrow]
    · simp [narrow]

/-- Some accepted program has a branch whose word leads elsewhere than to its label. -/
def Truncates [Machine] (layout : Layout) (symbols : SymbolTable) (debug : Bool) : Prop :=
  ∃ calls image label j d k,
    ((Builder.fresh (some layout) symbols debug).afterCalls calls).finalize.result = .ok image ∧
    (Builder.fresh (some layout) symbols debug).BranchesAt calls label j ∧
    (Builder.fresh (some layout) symbols debug).DeclaresAt calls label k ∧
    ((Builder.fresh (some layout) symbols debug).afterCalls calls).labels.lookup label =
      some (.int (k : Nat)) ∧
    image.offsetAt? layout j = some d ∧ j + d ≠ k

theorem narrow_truncates [Machine] {layout : Layout} (laid : layout.Sound) {f : Field}
    (field : layout.field? branchStem = some f) (narrow : f.width < 4)
    (room : layout.width * 8 ≤ Machine.memoryLimit) (symbols : SymbolTable) (debug : Bool) :
    Truncates layout symbols debug := by
  have held : (layout.field? branchStem).isSome := by rw [field]; rfl
  obtain ⟨image, accepted⟩ :=
    @farBranch_accepted layout symbols debug _ laid held room 8 (by decide)
  have set := @farBranch_branchesAt layout symbols debug _ held 7
  obtain ⟨g, d, k, field', offset, known, moment, _, _, cut⟩ := branch_offset laid accepted set
  refine ⟨farBranch 8, image, "a", 0, d, k, accepted, set, moment, known, offset, ?_⟩
  cases field.symm.trans field'
  rw [farBranch_state held] at known
  cases known
  -- eight has no one among its three lowest bits
  have positive : 0 < f.width := Nat.succ_pos _
  have widths : f.width = 1 ∨ f.width = 2 ∨ f.width = 3 := by omega
  rcases widths with w | w | w <;> rw [w] at cut <;> omega

theorem wide_leads [Machine] {layout : Layout} (laid : layout.Sound) {symbols : SymbolTable}
    {debug : Bool} (wide : ¬ ∃ f, layout.field? branchStem = some f ∧ f.width < 4)
    {calls : List Call} {image : Image} {label : String} {j : Nat}
    (accepted : ((Builder.fresh (some layout) symbols debug).afterCalls calls).finalize.result =
      .ok image)
    (set : (Builder.fresh (some layout) symbols debug).BranchesAt calls label j) :
    ∃ d k, image.offsetAt? layout j = some d ∧
      ((Builder.fresh (some layout) symbols debug).afterCalls calls).labels.lookup label =
        some (.int (k : Nat)) ∧
      (Builder.fresh (some layout) symbols debug).DeclaresAt calls label k ∧ j + d = k := by
  obtain ⟨f, d, k, field, offset, known, moment, low, high, cut⟩ := branch_offset laid accepted set
  refine ⟨d, k, offset, known, moment, ?_⟩
  have enough : 4 ≤ f.width := Nat.le_of_not_lt fun narrow => wide ⟨f, field, narrow⟩
  have power : 2 ^ 4 ≤ 2 ^ f.width := Nat.pow_le_pow_right (by decide) enough
  rw [Nat.mod_eq_of_lt (by omega)] at cut
  omega

end Microcode
