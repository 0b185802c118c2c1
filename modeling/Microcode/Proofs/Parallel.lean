import Microcode.Proofs.History

/-!
Two builders that take the same calls. The checks of a builder look at a few of its parts only
(`Builder.Concurs`), and what passes them is done in a few steps. So a relation between builders,
with one between what calls give, is kept by every call as soon as it is kept by these steps
(`Parallel`). `T` says which source lines may stand for each other.
-/
namespace Microcode

variable {α β : Type} {T : Option Value → Option Value → Prop}

/-- The same error, or the same fault met on source lines that stand for each other. -/
inductive Error.Matches (T : Option Value → Option Value → Prop) : Error → Error → Prop where
  | same (e : Error) : Matches T e e
  | report {s s' : Option Value} (cause : Cause) (index : Option Value) (source : T s s') :
      Matches T (Fault.report ⟨cause, index, s⟩) (Fault.report ⟨cause, index, s'⟩)

inductive Same (T : Option Value → Option Value → Prop) : Except Error α → Except Error α → Prop
    where
  | ok (a : α) : Same T (.ok a) (.ok a)
  | error {e e' : Error} (alike : e.Matches T e') : Same T (.error e) (.error e')

namespace Same

theorem refl (r : Except Error α) : Same T r r := by
  cases r with
  | error e => exact .error (.same e)
  | ok a => exact .ok a

theorem of_ok {a : α} {r : Except Error α} (same : Same T (.ok a) r) : r = .ok a := by
  cases same
  rfl

theorem of_error {e : Error} {r : Except Error α} (same : Same T (.error e) r) :
    ∃ e', r = .error e' ∧ e.Matches T e' := by
  cases same with
  | error alike => exact ⟨_, rfl, alike⟩

theorem eq {r r' : Except Error α} (same : Same Eq r r') : r = r' := by
  cases same with
  | ok a => rfl
  | error alike =>
    cases alike with
    | same e => rfl
    | report cause index source => rw [source]

theorem bind {r r' : Except Error α} {next next' : α → Except Error β} (first : Same T r r')
    (later : ∀ a, Same T (next a) (next' a)) : Same T (r >>= next) (r' >>= next') := by
  cases first with
  | ok a => exact later a
  | error alike => exact .error alike

theorem map {r r' : Except Error α} (f : α → β) (first : Same T r r') :
    Same T (r.map f) (r'.map f) := by
  cases first with
  | ok a => exact .ok (f a)
  | error alike => exact .error alike

end Same

/-- A number that cannot be read is reported with the line it stands on. -/
theorem badNumeral_matches {fault fault' : Fault} (alike : fault.report.Matches T fault'.report)
    (read : Except Error α) :
    Same T (read.mapError fun e => if e.isBadNumeral then fault.report else e)
      (read.mapError fun e => if e.isBadNumeral then fault'.report else e) := by
  cases read with
  | ok n => exact .ok n
  | error e =>
    rw [error_mapError, error_mapError]
    split
    · exact .error alike
    · exact .error (.same e)

theorem Outcome.map_eq_andThen (f : α → β) (outcome : Outcome α) :
    outcome.map f = outcome.andThen fun a after => after.done (.ok (f a)) := by
  cases h : outcome.result <;> simp [Outcome.map, Outcome.andThen, Builder.done, h, Except.map]

/-! Checks. -/

/-- Builders that the checks, and the definition of values, do not tell apart but for the source
line. -/
structure Builder.Concurs (T : Option Value → Option Value → Prop) (b c : Builder) : Prop where
  layout : b.layout = c.layout
  symbols : b.symbols = c.symbols
  resolved : b.resolved = c.resolved
  labels : b.labels = c.labels
  count : b.lines.length = c.lines.length
  tokens : b.current.tokens = c.current.tokens
  sourceLine : T b.sourceLine c.sourceLine

namespace Builder.Concurs

variable {b c : Builder}

theorem fault (concurs : b.Concurs T c) (cause : Cause) :
    Same T (.error (b.faultHere cause) : Except Error α) (.error (c.faultHere cause)) := by
  unfold faultHere
  rw [concurs.count]
  exact .error (.report _ _ concurs.sourceLine)

theorem needLayout (concurs : b.Concurs T c) (call : String) :
    b.needLayout call = c.needLayout call := by
  unfold Builder.needLayout
  rw [concurs.layout]

theorem checkDeclaration (concurs : b.Concurs T c) (label : String) :
    Same T (b.checkDeclaration label) (c.checkDeclaration label) := by
  unfold Builder.checkDeclaration
  rw [concurs.needLayout, concurs.resolved, concurs.labels]
  apply (Same.refl _).bind
  intro layout
  cases c.resolved <;> by_cases named : label = "" <;> cases Text.isAscii label <;>
    cases c.labels.lookup label <;> simp [named, concurs.fault, Same.ok]

theorem checkStore (concurs : b.Concurs T c) (stem : String) (token : Token) :
    Same T (b.checkStore stem token) (c.checkStore stem token) := by
  unfold Builder.checkStore
  rw [concurs.resolved, concurs.tokens]
  cases c.resolved <;> cases c.current.tokens.lookup stem <;> simp [concurs.fault, Same.ok]

theorem checkReference (concurs : b.Concurs T c) (label : String) :
    Same T (b.checkReference label) (c.checkReference label) := by
  unfold Builder.checkReference
  rw [concurs.needLayout]
  apply (Same.refl _).bind
  intro layout
  by_cases named : label = "" <;> cases Text.isAscii label <;>
    simp only [named, ↓reduceIte, throw_eq_error, Bool.not_false, Bool.not_true,
      Bool.false_eq_true, error_bind, concurs.fault]
  cases layout.field? branchStem with
  | none => exact concurs.fault _
  | some field => exact concurs.checkStore _ _

theorem checkName (concurs : b.Concurs T c) (name : String) :
    Same T (b.checkName name) (c.checkName name) := by
  unfold Builder.checkName
  rw [concurs.needLayout]
  apply (Same.refl _).bind
  intro layout
  cases layout.owner? name with
  | none => exact concurs.fault _
  | some field => exact (concurs.checkStore _ _).bind fun _ => .ok _

theorem checkValue (concurs : b.Concurs T c) (stem : String) (datum : Datum) :
    Same T (b.checkValue stem datum) (c.checkValue stem datum) := by
  unfold Builder.checkValue
  rw [concurs.needLayout]
  apply (Same.refl _).bind
  intro layout
  cases layout.field? stem with
  | none => exact concurs.fault _
  | some field =>
    cases datum with
    | value v => exact (concurs.checkStore _ _).bind fun _ => .ok _
    | _ => exact (Same.refl _).bind fun _ => concurs.fault _

theorem checkOpen (concurs : b.Concurs T c) : Same T b.checkOpen c.checkOpen := by
  unfold Builder.checkOpen
  rw [concurs.needLayout, concurs.resolved]
  apply (Same.refl _).bind
  intro layout
  cases c.resolved with
  | false => exact .ok ()
  | true => exact concurs.fault _

theorem checkFinalize (concurs : b.Concurs T c) : b.checkFinalize = c.checkFinalize := by
  unfold Builder.checkFinalize
  rw [concurs.needLayout, concurs.resolved]

end Builder.Concurs

namespace Builder

variable {b : Builder}

theorem checkDeclaration_new {label : String} (passed : b.checkDeclaration label = .ok ()) :
    b.labels.lookup label = none := by
  cases given : b.layout with
  | none => simp [checkDeclaration, needLayout, given] at passed
  | some layout => exact ((checkDeclaration_ok_iff given).mp passed).2.2.2

theorem checkReference_free {label : String} (passed : b.checkReference label = .ok ()) :
    b.current.tokens.lookup branchStem = none := by
  cases given : b.layout with
  | none => simp [checkReference, needLayout, given] at passed
  | some layout => exact ((checkReference_ok_iff given).mp passed).2.2.2.2

theorem checkName_free {name stem : String} (passed : b.checkName name = .ok stem) :
    b.current.tokens.lookup stem = none := by
  cases given : b.layout with
  | none => simp [checkName, needLayout, given] at passed
  | some layout => exact ((checkName_ok_iff given).mp passed).2.2

theorem checkValue_free {stem : String} {datum : Datum} {v : Value}
    (passed : b.checkValue stem datum = .ok v) : b.current.tokens.lookup stem = none := by
  cases given : b.layout with
  | none => simp [checkValue, needLayout, given] at passed
  | some layout => exact ((checkValue_ok_iff given).mp passed).2.2.2

end Builder

/-! Written lines. -/

/-- The lines with something on them apart from a comment, each with its number; the first line of
the text has the given one. -/
def written (number : Nat) : List String → List (Nat × String)
  | [] => []
  | raw :: rest =>
    if Text.stripComment raw = "" then written (number + 1) rest
    else (number, Text.stripComment raw) :: written (number + 1) rest

def SameLine (T : Option Value → Option Value → Prop) (p q : Nat × String) : Prop :=
  p.2 = q.2 ∧ T (some (p.1 : Value)) (some (q.1 : Value))

namespace Builder

def readWritten (b : Builder) : List (Nat × String) → Outcome Unit
  | [] => b.done (.ok ())
  | (number, line) :: rest =>
    (({ b with sourceLine := some number }.readWords number (Text.wordsOf line)).andThen
      fun _ after => after.endLine).andThen fun _ after => after.readWritten rest

theorem readFrom_written (b : Builder) (number : Nat) (lines : List String) :
    b.readFrom number lines = b.readWritten (written number lines) := by
  induction lines generalizing b number with
  | nil => rfl
  | cons raw rest ih =>
    simp only [readFrom, readLine, written, ih]
    split
    · rfl
    · rfl

end Builder

/-! Calls. -/

/-- The steps that calls are made of keep `R` between two builders. What a step gives, set against
the first builder before it, is related by `Q`. -/
structure Parallel (T : Option Value → Option Value → Prop) (R : Builder → Builder → Prop)
    (Q : {α : Type} → Builder → Outcome α → Outcome α → Prop) : Prop where
  concurs {b c : Builder} (related : R b c) : b.Concurs T c
  told {α : Type} {b c : Builder} {s s' : Option Value} {r r' : Except Error α} (related : R b c)
    (source : T s s') (same : Same T r r') (events : List Event) :
    Q b ⟨r, { b with sourceLine := s }, events⟩ ⟨r', { c with sourceLine := s' }, events⟩
  andThen {α β : Type} {b : Builder} {one two : Outcome α} {next next' : α → Builder → Outcome β}
    (first : Q b one two) (later : ∀ a c d, R c d → Q c (next a c) (next' a d)) :
    Q b (one.andThen next) (two.andThen next')
  declared {b c : Builder} {label : String} (related : R b c)
    (new : b.labels.lookup label = none) :
    Q b ⟨.ok (), { b with labels := b.labels.put label b.lines.length },
        if b.debug then [.notice (.labelDeclared label b.lines.length)] else []⟩
      ⟨.ok (), { c with labels := c.labels.put label c.lines.length },
        if c.debug then [.notice (.labelDeclared label c.lines.length)] else []⟩
  stored {b c : Builder} {stem : String} (related : R b c)
    (free : b.current.tokens.lookup stem = none) (token : Token) :
    Q b (b.store stem token) (c.store stem token)
  branched {b c : Builder} (related : R b c) (label : String) :
    Q b ((b.withBranch label).done (.ok ())) ((c.withBranch label).done (.ok ()))
  committed {b c : Builder} (related : R b c) :
    Q b (b.committed.done (.ok ())) (c.committed.done (.ok ()))
  defined {b c : Builder} (related : R b c) (table : SymbolTable) (events : List Event) :
    Q b ⟨.ok (), { b with symbols := table }, events⟩ ⟨.ok (), { c with symbols := table }, events⟩

namespace Parallel

variable {R : Builder → Builder → Prop}
  {Q : {α : Type} → Builder → Outcome α → Outcome α → Prop} {b c : Builder} {i j : Nat}

theorem done (p : Parallel T R Q) (related : R b c) {r r' : Except Error α} (same : Same T r r') :
    Q b (b.done r) (c.done r') :=
  p.told related (p.concurs related).sourceLine same []

theorem map (p : Parallel T R Q) {one two : Outcome α} (f : α → β) (first : Q b one two) :
    Q b (one.map f) (two.map f) := by
  rw [Outcome.map_eq_andThen, Outcome.map_eq_andThen]
  exact p.andThen first fun a _ _ related => p.done related (.ok (f a))

theorem declareLabel (p : Parallel T R Q) (related : R b c) (label : String) :
    Q b (b.declareLabel label) (c.declareLabel label) := by
  have same := (p.concurs related).checkDeclaration label
  unfold Builder.declareLabel
  generalize passed : b.checkDeclaration label = r at same ⊢
  generalize c.checkDeclaration label = r' at same ⊢
  cases same with
  | error why => exact p.done related (.error why)
  | ok u => exact p.declared related (Builder.checkDeclaration_new passed)

theorem referenceLabel (p : Parallel T R Q) (related : R b c) (label : String) :
    Q b (b.referenceLabel label) (c.referenceLabel label) := by
  have same := (p.concurs related).checkReference label
  unfold Builder.referenceLabel
  generalize passed : b.checkReference label = r at same ⊢
  generalize c.checkReference label = r' at same ⊢
  cases same with
  | error why => exact p.done related (.error why)
  | ok u =>
    apply p.andThen (p.stored related (Builder.checkReference_free passed) (.label label))
    exact fun _ _ _ stored => p.branched stored label

theorem assign (p : Parallel T R Q) (related : R b c) (name : String) :
    Q b (b.assign name) (c.assign name) := by
  have same := (p.concurs related).checkName name
  unfold Builder.assign
  generalize passed : b.checkName name = r at same ⊢
  generalize c.checkName name = r' at same ⊢
  cases same with
  | error why => exact p.done related (.error why)
  | ok stem => exact p.stored related (Builder.checkName_free passed) (.symbol name)

theorem assignValue (p : Parallel T R Q) (related : R b c) (stem : String) (datum : Datum) :
    Q b (b.assignValue stem datum) (c.assignValue stem datum) := by
  have same := (p.concurs related).checkValue stem datum
  unfold Builder.assignValue
  generalize passed : b.checkValue stem datum = r at same ⊢
  generalize c.checkValue stem datum = r' at same ⊢
  cases same with
  | error why => exact p.done related (.error why)
  | ok v => exact p.stored related (Builder.checkValue_free passed) (.literal v)

theorem endLine (p : Parallel T R Q) (related : R b c) : Q b b.endLine c.endLine := by
  have same := (p.concurs related).checkOpen
  unfold Builder.endLine
  generalize b.checkOpen = r at same ⊢
  generalize c.checkOpen = r' at same ⊢
  cases same with
  | error why => exact p.done related (.error why)
  | ok u => exact p.committed related

theorem dispatch (p : Parallel T R Q) (related : R b c) (name : String) :
    Q b (b.dispatch name) (c.dispatch name) := by
  unfold Builder.dispatch
  split
  · exact p.declareLabel related _
  · split
    · exact p.referenceLabel related _
    · exact p.assign related name

theorem entry (p : Parallel T R Q) (related : R b c) (newline : Bool) (name : String) :
    Q b (b.entry newline name) (c.entry newline name) := by
  unfold Builder.entry
  rw [(p.concurs related).needLayout]
  cases c.needLayout "entry" with
  | error e => exact p.done related (.error (.same e))
  | ok layout =>
    cases newline with
    | true => exact p.andThen (p.endLine related) fun _ _ _ ended => p.dispatch ended name
    | false => exact p.dispatch related name

theorem defineValue (p : Parallel T R Q) (related : R b c) (name : String)
    (value : Option Value) : Q b (b.defineValue name value) (c.defineValue name value) := by
  simp only [Builder.defineValue, (p.concurs related).symbols]
  split
  · exact p.defined related _ _
  · exact p.told related (p.concurs related).sourceLine (.error (.same _)) _

/-- The number of a line of text is used in the errors about it alone. -/
theorem readWord (p : Parallel T R Q) (related : R b c)
    (numbers : ∀ cause index, (Fault.report ⟨cause, index, some (i : Value)⟩).Matches T
      (Fault.report ⟨cause, index, some (j : Value)⟩)) (word : String) :
    Q b (b.readWord i word) (c.readWord j word) := by
  unfold Builder.readWord
  cases cutAtEquals word with
  | none => exact p.entry related false word
  | some cut =>
    obtain ⟨stem, text⟩ := cut
    have same : Same T (b.immediate i word stem text) (c.immediate j word stem text) := by
      unfold Builder.immediate
      rw [(p.concurs related).count]
      exact badNumeral_matches (numbers _ _) _
    dsimp only
    generalize b.immediate i word stem text = r at same ⊢
    generalize c.immediate j word stem text = r' at same ⊢
    cases same with
    | error why => exact p.done related (.error why)
    | ok n => exact p.assignValue related stem _

theorem readWords (p : Parallel T R Q) (related : R b c)
    (numbers : ∀ cause index, (Fault.report ⟨cause, index, some (i : Value)⟩).Matches T
      (Fault.report ⟨cause, index, some (j : Value)⟩)) (words : List String) :
    Q b (b.readWords i words) (c.readWords j words) := by
  induction words generalizing b c with
  | nil => exact p.done related (.ok ())
  | cons word rest ih =>
    exact p.andThen (p.readWord related numbers word) fun _ _ _ read => ih read

theorem readWritten (p : Parallel T R Q) {lines lines' : List (Nat × String)}
    (same : List.Forall₂ (SameLine T) lines lines') (related : R b c) :
    Q b (b.readWritten lines) (c.readWritten lines') := by
  induction same generalizing b c with
  | nil => exact p.done related (.ok ())
  | @cons one two _ _ here _ ih =>
    obtain ⟨i, line⟩ := one
    obtain ⟨j, line'⟩ := two
    obtain ⟨rfl, moved⟩ := here
    have words : Q b ({ b with sourceLine := some (i : Value) }.readWords i (Text.wordsOf line))
        ({ c with sourceLine := some (j : Value) }.readWords j (Text.wordsOf line)) :=
      p.andThen (p.told related moved (.ok ()) []) fun _ _ _ marked =>
        p.readWords marked (fun cause index => .report cause index moved) (Text.wordsOf line)
    have ended := p.andThen words fun _ _ _ read => p.endLine read
    exact p.andThen ended fun _ _ _ read => ih read

theorem readStream (p : Parallel T R Q) (nowhere : T none none) {old new : List String}
    (same : List.Forall₂ (SameLine T) (written 1 old) (written 1 new)) (related : R b c)
    (verbose : Bool) : Q b (b.readStream old verbose) (c.readStream new verbose) := by
  unfold Builder.readStream
  rw [Builder.readFrom_written, Builder.readFrom_written]
  apply p.andThen (p.readWritten same related)
  intro _ _ _ read
  have labels := congrArg List.length (p.concurs read).labels
  dsimp only
  rw [(p.concurs read).count, labels]
  exact p.told read nowhere (.ok _) _

/-- Every call keeps what the steps keep; closing a builder and resolving its branches are left to
the relation. -/
theorem perform [Machine] (p : Parallel Eq R Q) (related : R b c) (call : Call)
    (closing : call = .finalize → Q b b.finalize c.finalize)
    (resolving : call = .resolveBranches → Q b b.resolveBranches c.resolveBranches) :
    Q b (b.perform call) (c.perform call) := by
  cases call with
  | entry newline name => exact p.map _ (p.entry related newline name)
  | declareLabel label => exact p.map _ (p.declareLabel related label)
  | referenceLabel label => exact p.map _ (p.referenceLabel related label)
  | assign name => exact p.map _ (p.assign related name)
  | assignValue stem datum => exact p.map _ (p.assignValue related stem datum)
  | endLine => exact p.map _ (p.endLine related)
  | readStream lines verbose =>
    have same : List.Forall₂ (SameLine Eq) (written 1 lines) (written 1 lines) :=
      List.forall₂_same.mpr fun _ _ => ⟨rfl, rfl⟩
    exact p.map _ (p.readStream rfl same related verbose)
  | finalize => exact p.map _ (closing rfl)
  | resolveBranches => exact p.map _ (resolving rfl)
  | defineValue name value => exact p.map _ (p.defineValue related name value)

end Parallel

end Microcode
