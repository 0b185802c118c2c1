import Microcode.Proofs.Parallel
import Microcode.Proofs.StreamAssembly

/-!
Two builders in step. One of them may have resolved branches that the other one still waits for, and
they may have read their lines from different places; `T` says which source lines may stand for each
other. Whatever is done to both gives the same result, since a branch that was resolved once would
be resolved in the same way again: its label never moves, and neither does its line.
-/
namespace Microcode

variable {α β : Type} {T : Option Value → Option Value → Prop}

structure Line.Matches (T : Option Value → Option Value → Prop) (line line' : Line) : Prop where
  index : line.index = line'.index
  tokens : line.tokens = line'.tokens
  branch : line.branch = line'.branch
  source : T line.source line'.source

/-- The second line is the first one, whose branch may have been resolved meanwhile. -/
def Line.Behind (T : Option Value → Option Value → Prop) (labels : Labels) (line line' : Line) :
    Prop :=
  ∃ settled, line.Settles labels settled ∧ settled.Matches T line'

structure Builder.Behind (T : Option Value → Option Value → Prop) (b c : Builder) : Prop where
  layout : b.layout = c.layout
  symbols : b.symbols = c.symbols
  debug : b.debug = c.debug
  resolved : b.resolved = c.resolved
  labels : b.labels = c.labels
  lines : List.Forall₂ (Line.Behind T b.labels) b.lines c.lines
  current : b.current.Matches T c.current
  sourceLine : T b.sourceLine c.sourceLine

structure Outcome.Matches (T : Option Value → Option Value → Prop) (one two : Outcome α) : Prop
    where
  result : Same T one.result two.result
  builder : one.builder.Behind T two.builder

/-! Lines. -/

namespace Line

variable {labels : Labels} {line line' settled : Line}

theorem Matches.pendingLabel (alike : line.Matches T line') :
    line.pendingLabel? = line'.pendingLabel? := by
  rw [pendingLabel?, pendingLabel?, alike.tokens]

theorem Matches.distance (alike : line.Matches T line') (label : String) :
    Same T (line.distance labels label) (line'.distance labels label) := by
  unfold Line.distance
  rw [alike.index]
  cases labels.lookup label with
  | none => exact .error (.report _ _ alike.source)
  | some target =>
    dsimp only
    split
    · exact .error (.report _ _ alike.source)
    · exact .ok _

theorem Matches.setBranch (alike : line.Matches T line') (label : String) (d : Int) :
    (line.setBranch label d).Matches T (line'.setBranch label d) := by
  refine ⟨alike.index, ?_, rfl, alike.source⟩
  simp only [Line.setBranch, alike.tokens]

theorem Matches.behind (alike : line.Matches T line') : line.Behind T labels line' :=
  ⟨line, .same, alike⟩

theorem Settles.declare {name : String} {v : Value} (step : line.Settles labels settled)
    (new : labels.lookup name = none) : line.Settles (labels.put name v) settled := by
  cases step with
  | same => exact .same
  | @branch label d pending reached =>
    apply Settles.branch pending
    obtain ⟨target, declared, _⟩ := distance_ok reached
    have other : label ≠ name := by
      rintro rfl
      cases new.symm.trans declared
    rw [← reached]
    simp only [Line.distance, Assoc.lookup_put, if_neg other]

theorem Behind.declare {name : String} {v : Value} (behind : line.Behind T labels line')
    (new : labels.lookup name = none) : line.Behind T (labels.put name v) line' := by
  obtain ⟨settled, step, alike⟩ := behind
  exact ⟨settled, step.declare new, alike⟩

end Line

def resolution (labels : Labels) (lines : List Line) : Except Error Unit :=
  (resolve labels lines).2.map fun _ => ()

section

variable {line : Line} {label : String} {d : Int} (labels : Labels) (rest : List Line)

theorem resolve_plain (settled : line.pendingLabel? = none) :
    (resolve labels (line :: rest)).1 = line :: (resolve labels rest).1 ∧
      resolution labels (line :: rest) = resolution labels rest := by
  simp only [resolution, resolve, settled, and_self]

theorem resolve_branch (pending : line.pendingLabel? = some label)
    (reached : line.distance labels label = .ok d) :
    (resolve labels (line :: rest)).1 = line.setBranch label d :: (resolve labels rest).1 ∧
      resolution labels (line :: rest) = resolution labels rest := by
  simp only [resolution, resolve, pending, reached, true_and]
  cases (resolve labels rest).2 <;> rfl

theorem resolve_stuck {e : Error} (pending : line.pendingLabel? = some label)
    (unreached : line.distance labels label = .error e) :
    (resolve labels (line :: rest)).1 = line :: rest ∧
      resolution labels (line :: rest) = .error e := by
  simp only [resolution, resolve, pending, unreached, true_and]
  rfl

end

/-- Lines that are behind stop at the same line, and catch up if none stops them. -/
theorem resolve_behind {labels : Labels} {lines lines' : List Line}
    (behind : List.Forall₂ (Line.Behind T labels) lines lines') :
    Same T (resolution labels lines) (resolution labels lines') ∧
    List.Forall₂ (Line.Behind T labels) (resolve labels lines).1 (resolve labels lines').1 ∧
    (resolution labels lines = .ok () →
      List.Forall₂ (Line.Matches T) (resolve labels lines).1 (resolve labels lines').1) := by
  induction behind with
  | nil => exact ⟨.ok (), .nil, fun _ => .nil⟩
  | @cons line line' rest rest' here later ih =>
    obtain ⟨settled, step, alike⟩ := here
    obtain ⟨result, ahead, caught⟩ := ih
    cases pending : line.pendingLabel? with
    | none =>
      cases step.eq_of_settled pending
      obtain ⟨first, left⟩ := resolve_plain labels rest pending
      obtain ⟨first', left'⟩ := resolve_plain labels rest' (alike.pendingLabel.symm.trans pending)
      rw [first, left, first', left']
      exact ⟨result, .cons alike.behind ahead, fun done => .cons alike (caught done)⟩
    | some label =>
      cases reached : line.distance labels label with
      | error e =>
        -- a branch that cannot be resolved was not resolved before either
        have unsettled : settled = line := by
          cases step with
          | same => rfl
          | branch pending' reached' =>
            cases pending.symm.trans pending'
            cases reached.symm.trans reached'
        subst unsettled
        obtain ⟨e', reached', why⟩ := (reached ▸ alike.distance label).of_error
        obtain ⟨first, left⟩ := resolve_stuck labels rest pending reached
        obtain ⟨first', left'⟩ :=
          resolve_stuck labels rest' (alike.pendingLabel.symm.trans pending) reached'
        rw [first, left, first', left']
        exact ⟨.error why, .cons alike.behind later, fun impossible => by cases impossible⟩
      | ok d =>
        obtain ⟨first, left⟩ := resolve_branch labels rest pending reached
        -- the other line is resolved now as well, or it was before
        obtain ⟨next, first', left', alike'⟩ : ∃ next,
            (resolve labels (line' :: rest')).1 = next :: (resolve labels rest').1 ∧
            resolution labels (line' :: rest') = resolution labels rest' ∧
            (line.setBranch label d).Matches T next := by
          cases step with
          | same =>
            have reached' := (reached ▸ alike.distance label).of_ok
            obtain ⟨first', left'⟩ :=
              resolve_branch labels rest' (alike.pendingLabel.symm.trans pending) reached'
            exact ⟨_, first', left', alike.setBranch label d⟩
          | branch pending' reached' =>
            cases pending.symm.trans pending'
            cases reached.symm.trans reached'
            have settled := alike.pendingLabel.symm.trans (Line.pendingLabel_setBranch line label d)
            obtain ⟨first', left'⟩ := resolve_plain labels rest' settled
            exact ⟨_, first', left', alike⟩
        rw [first, left, first', left']
        exact ⟨result, .cons alike'.behind ahead, fun done => .cons alike' (caught done)⟩

/-! Words. -/

section

variable {layout : Layout} {line line' : Line}

theorem number_matches (symbols : SymbolTable) (alike : line.Matches T line') (stem : String)
    (token : Token) :
    Same T (token.number symbols line stem) (token.number symbols line' stem) := by
  unfold Token.number
  rw [alike.index]
  cases token with
  | literal v => exact .ok _
  | symbol name =>
    dsimp only
    cases symbols.value? name with
    | some v => exact .ok _
    | none => exact .error (.report _ _ alike.source)
  | label name => exact .error (.report _ _ alike.source)

theorem packFields_matches (symbols : SymbolTable) (alike : line.Matches T line')
    (fields : List Field) (bits : Bits) :
    (packFields symbols line fields bits).1 = (packFields symbols line' fields bits).1 ∧
      Same T (packFields symbols line fields bits).2 (packFields symbols line' fields bits).2 := by
  induction fields generalizing bits with
  | nil => exact ⟨rfl, .ok ()⟩
  | cons f rest ih =>
    rw [packFields, packFields, ← alike.tokens]
    cases line.tokens.lookup f.stem with
    | none => exact ih bits
    | some token =>
      have same := number_matches symbols alike f.stem token
      dsimp only
      cases number : token.number symbols line f.stem with
      | error e =>
        rw [number] at same
        obtain ⟨e', number', why⟩ := same.of_error
        rw [number']
        exact ⟨rfl, .error why⟩
      | ok v =>
        rw [number] at same
        rw [same.of_ok]
        dsimp only
        split
        · exact ih _
        · exact ⟨rfl, Same.refl _⟩

theorem packFrom_matches (symbols : SymbolTable) {lines lines' : List Line}
    (alike : List.Forall₂ (Line.Matches T) lines lines') (bits : Bits) :
    Same T (packFrom layout symbols lines bits) (packFrom layout symbols lines' bits) := by
  induction alike generalizing bits with
  | nil => exact .ok []
  | @cons line line' rest rest' here _ ih =>
    obtain ⟨after, result⟩ :=
      packFields_matches symbols here layout.fields (Bits.zeros bits.size)
    simp only [packFrom, packLine, ← after]
    cases packed : (packFields symbols line layout.fields (Bits.zeros bits.size)).2 with
    | error e =>
      rw [packed] at result
      obtain ⟨e', packed', why⟩ := result.of_error
      rw [packed']
      exact .error why
    | ok u =>
      rw [packed] at result
      rw [result.of_ok]
      exact (ih _).map _

theorem packLines_matches [Machine] (symbols : SymbolTable) {lines lines' : List Line}
    (alike : List.Forall₂ (Line.Matches T) lines lines') :
    Same T (packLines layout symbols lines) (packLines layout symbols lines') :=
  (Same.refl _).bind fun _ => packFrom_matches symbols alike _

end

/-! Builders. -/

namespace Builder.Behind

variable {b c : Builder}

theorem concurs (behind : b.Behind T c) : b.Concurs T c where
  layout := behind.layout
  symbols := behind.symbols
  resolved := behind.resolved
  labels := behind.labels
  count := behind.lines.length_eq
  tokens := behind.current.tokens
  sourceLine := behind.sourceLine

theorem declare {label : String} {v : Value} (behind : b.Behind T c)
    (new : b.labels.lookup label = none) :
    { b with labels := b.labels.put label v }.Behind T
      { c with labels := c.labels.put label v } where
  layout := behind.layout
  symbols := behind.symbols
  debug := behind.debug
  resolved := behind.resolved
  labels := congrArg (Assoc.put label v) behind.labels
  lines := behind.lines.imp fun _ _ line => line.declare new
  current := behind.current
  sourceLine := behind.sourceLine

theorem withToken (behind : b.Behind T c) (stem : String) (token : Token) :
    (b.withToken stem token).Behind T (c.withToken stem token) := by
  refine { behind with current := ⟨behind.current.index, ?_, behind.current.branch, ?_⟩ }
  · simp only [Builder.withToken, behind.current.tokens]
  · simp only [Builder.withToken, behind.current.tokens]
    split
    · exact behind.sourceLine
    · exact behind.current.source

theorem withBranch (behind : b.Behind T c) (label : String) :
    (b.withBranch label).Behind T (c.withBranch label) :=
  { behind with current := { behind.current with branch := rfl } }

theorem committed (behind : b.Behind T c) (nowhere : T none none) :
    b.committed.Behind T c.committed := by
  unfold Builder.committed
  rw [behind.current.tokens, behind.lines.length_eq]
  split
  · exact behind
  · exact { behind with
      lines := List.rel_append behind.lines (.cons behind.current.behind .nil)
      current := ⟨rfl, rfl, rfl, nowhere⟩ }

theorem resolve (behind : b.Behind T c) :
    Same T (resolution b.labels b.lines) (resolution c.labels c.lines) ∧
    b.resolveBranches.builder.Behind T c.resolveBranches.builder ∧
    (resolution b.labels b.lines = .ok () →
      List.Forall₂ (Line.Matches T) b.resolveBranches.builder.lines
        c.resolveBranches.builder.lines) := by
  obtain ⟨result, lines, caught⟩ := resolve_behind behind.lines
  have after : c.resolveBranches.builder.lines = (Microcode.resolve b.labels c.lines).1 := by
    rw [behind.labels]
    rfl
  rw [← behind.labels, after]
  exact ⟨result, { behind with lines := after ▸ lines }, caught⟩

end Builder.Behind

theorem endLine_open {b : Builder} {layout : Layout} (given : b.layout = some layout)
    (unresolved : b.resolved = false) : b.endLine = b.committed.done (.ok ()) := by
  simp only [Builder.endLine, (Builder.checkOpen_ok_iff given).mpr unresolved]

theorem finalize_closes [Machine] {b : Builder} {layout : Layout}
    (allowed : b.checkFinalize = .ok layout) :
    b.finalize =
      match resolution b.committed.labels b.committed.lines with
      | .error e => b.committed.resolveBranches.builder.done (.error e)
      | .ok () =>
        { b.committed.resolveBranches.builder with resolved := true }.done
          ((packLines layout b.committed.symbols b.committed.resolveBranches.builder.lines).map
            (Image.ofWords layout.size)) := by
  simp only [Builder.finalize, allowed, Outcome.andThen, Builder.resolveBranches, resolution]
  cases (Microcode.resolve b.committed.labels b.committed.lines).2 <;> rfl

namespace Outcome.Matches

variable {b c : Builder}

theorem andThen {one two : Outcome α} {next next' : α → Builder → Outcome β}
    (first : one.Matches T two)
    (later : ∀ a, (next a one.builder).Matches T (next' a two.builder)) :
    (one.andThen next).Matches T (two.andThen next') := by
  have result := first.result
  cases done : one.result with
  | error e =>
    rw [done] at result
    obtain ⟨e', done', why⟩ := result.of_error
    simp only [Outcome.andThen, done, done']
    exact ⟨.error why, first.builder⟩
  | ok a =>
    rw [done] at result
    simp only [Outcome.andThen, done, result.of_ok]
    exact ⟨(later a).result, (later a).builder⟩

/-- Whatever is done to both builders, one is never further than the other but in its branches. -/
theorem parallel (nowhere : T none none) :
    Parallel T (Builder.Behind T) fun _ one two => one.Matches T two where
  concurs behind := behind.concurs
  told behind source same _ := ⟨same, { behind with sourceLine := source }⟩
  andThen first later := first.andThen fun a => later a _ _ first.builder
  declared behind new := ⟨.ok (), behind.lines.length_eq ▸ behind.declare new⟩
  stored behind _ token := by
    constructor
    · unfold Builder.store
      rw [behind.debug]
      split
      · split <;> exact Same.refl _
      · exact Same.refl _
    · rw [Builder.store_builder, Builder.store_builder]
      exact behind.withToken _ token
  branched behind label := ⟨.ok (), behind.withBranch label⟩
  committed behind := ⟨.ok (), behind.committed nowhere⟩
  defined behind _ _ := ⟨.ok (), { behind with symbols := rfl }⟩

theorem finalize [Machine] (behind : b.Behind T c) (nowhere : T none none) :
    b.finalize.Matches T c.finalize ∧ ∀ image, b.finalize.result = .ok image →
      List.Forall₂ (Line.Matches T) b.finalize.builder.lines c.finalize.builder.lines := by
  cases allowed : b.checkFinalize with
  | error e =>
    have refused := behind.concurs.checkFinalize.symm.trans allowed
    simp only [Builder.finalize, allowed, refused]
    exact ⟨⟨.error (.same e), behind⟩, fun image impossible => by cases impossible⟩
  | ok layout =>
    obtain ⟨same, after, caught⟩ := (behind.committed nowhere).resolve
    rw [finalize_closes allowed, finalize_closes (behind.concurs.checkFinalize.symm.trans allowed)]
    generalize resolution b.committed.labels b.committed.lines = r at same caught ⊢
    generalize resolution c.committed.labels c.committed.lines = r' at same ⊢
    cases same with
    | error why => exact ⟨⟨.error why, after⟩, fun image impossible => by cases impossible⟩
    | ok u =>
      have lines := caught rfl
      have packed : Same T
          (packLines layout b.committed.symbols b.committed.resolveBranches.builder.lines)
          (packLines layout c.committed.symbols c.committed.resolveBranches.builder.lines) := by
        rw [(behind.committed nowhere).symbols]
        exact packLines_matches _ lines
      exact ⟨⟨packed.map _, { after with resolved := rfl }⟩, fun _ _ => lines⟩

end Outcome.Matches

end Microcode
