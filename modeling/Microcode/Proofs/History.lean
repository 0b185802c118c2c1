import Microcode.Proofs.Evolution

/-!
Calls as sequences of acts. An entry of the instruction stream and a stream file do nothing that the
plain calls do not do one by one, so a whole session is a list of acts, each made on the builder
that the acts before it left. `history` is that list; it is what one means by saying that a label
was declared, or a branch set, at some moment of a session.
-/
namespace Microcode

inductive Act where
  | mark (line : Option Value)
  | declare (label : String)
  | branch (label : String)
  | assign (name : String)
  | value (stem : String) (datum : Datum)
  /-- A word of a stream file whose number cannot be read. -/
  | unreadable (lineNumber : Nat) (word stem text : String)
  | endLine
  | resolve
  | finalize
  | define (name : String) (value : Option Value)

namespace Act

def ofName (name : String) : Act :=
  if Text.startsWith labelMarker name then .declare (Text.dropStart labelMarker name)
  else if Text.startsWith offsetMarker name then .branch (Text.dropStart offsetMarker name)
  else .assign name

def ofWord (lineNumber : Nat) (word : String) : Act :=
  match cutAtEquals word with
  | some (stem, text) =>
    match Numeral.read text with
    | .ok n => .value stem (.value (.int n))
    | .error _ => .unreadable lineNumber word stem text
  | none => .ofName word

def ofLine (lineNumber : Nat) (raw : String) : List Act :=
  let line := Text.stripComment raw
  if line = "" then []
  else .mark (some lineNumber) :: ((Text.wordsOf line).map (ofWord lineNumber) ++ [.endLine])

def ofLines (lineNumber : Nat) : List String → List Act
  | [] => []
  | raw :: rest => ofLine lineNumber raw ++ ofLines (lineNumber + 1) rest

/-- The lines that an act may commit. -/
def commits : Act → Nat
  | .endLine | .finalize => 1
  | _ => 0

/-- Whether an act reads no other source lines than those in `marks`. -/
def Within (marks : Value → Prop) : Act → Prop
  | .mark (some v) => marks v
  | _ => True

theorem within_any (a : Act) : a.Within fun _ => True := by
  unfold Within
  split <;> trivial

end Act

namespace Call

def acts : Call → List Act
  | .entry newline name => if newline then [.endLine, .ofName name] else [.ofName name]
  | .declareLabel label => [.declare label]
  | .referenceLabel label => [.branch label]
  | .assign name => [.assign name]
  | .assignValue stem datum => [.value stem datum]
  | .endLine => [.endLine]
  | .readStream lines _ => Act.ofLines 1 lines ++ [.mark none]
  | .finalize => [.finalize]
  | .resolveBranches => [.resolve]
  | .defineValue name value => [.define name value]

/-- The lines of text that a call hands in; every other call counts as one. -/
def size : Call → Nat
  | .readStream lines _ => lines.length
  | _ => 1

end Call

namespace Outcome

variable {α β γ : Type}

theorem andThen_ok {first : Outcome α} {a : α} (succeeded : first.result = .ok a)
    (next : α → Builder → Outcome β) :
    (first.andThen next).result = (next a first.builder).result ∧
      (first.andThen next).builder = (next a first.builder).builder := by
  simp only [andThen, succeeded, and_self]

theorem andThen_error {first : Outcome α} {e : Error} (failed : first.result = .error e)
    (next : α → Builder → Outcome β) :
    (first.andThen next).result = .error e ∧ (first.andThen next).builder = first.builder := by
  simp only [andThen, failed, and_self]

theorem andThen_assoc (first : Outcome α) (second : α → Builder → Outcome β)
    (third : β → Builder → Outcome γ) :
    (first.andThen second).andThen third =
      first.andThen fun a b => (second a b).andThen third := by
  cases h : first.result with
  | error e => simp only [andThen, h]
  | ok a =>
    cases h' : (second a first.builder).result with
    | error e => simp only [andThen, h, h']
    | ok c => simp only [andThen, h, h', List.append_assoc]

/-- What follows a call matters only on the builder the call leaves. -/
theorem andThen_congr (first : Outcome α) {next next' : α → Builder → Outcome β}
    (same : ∀ a, next a first.builder = next' a first.builder) :
    first.andThen next = first.andThen next' := by
  cases h : first.result <;> simp only [andThen, h, same]

end Outcome

namespace Builder

def act [Machine] (b : Builder) : Act → Outcome Unit
  | .mark line => { b with sourceLine := line }.done (.ok ())
  | .declare label => b.declareLabel label
  | .branch label => b.referenceLabel label
  | .assign name => b.assign name
  | .value stem datum => b.assignValue stem datum
  | .unreadable lineNumber word stem text =>
    b.done ((b.immediate lineNumber word stem text).map fun _ => ())
  | .endLine => b.endLine
  | .resolve => b.resolveBranches.map fun _ => ()
  | .finalize => b.finalize.map fun _ => ()
  | .define name value => b.defineValue name value

def acts [Machine] (b : Builder) : List Act → Outcome Unit
  | [] => b.done (.ok ())
  | a :: rest => (b.act a).andThen fun _ after => after.acts rest

/-- The acts that are made, each with the builder it is made on. -/
def moments [Machine] (b : Builder) : List Act → List (Builder × Act)
  | [] => []
  | a :: rest =>
    (b, a) ::
      match (b.act a).result with
      | .ok _ => (b.act a).builder.moments rest
      | .error _ => []

def history [Machine] (b : Builder) : List Call → List (Builder × Act)
  | [] => []
  | call :: rest => b.moments call.acts ++ (b.perform call).builder.history rest

variable {layout : Layout} {marks : Value → Prop} {b s : Builder} {a : Act}

theorem act_evolves [Machine] (given : b.layout = some layout) (within : a.Within marks) :
    Evolves layout marks b (b.act a).builder := by
  cases a with
  | mark line =>
    refine .single (.source line ?_)
    rintro v rfl
    exact within
  | declare label => exact declareLabel_evolves given label
  | branch label => exact referenceLabel_evolves given label
  | assign name => exact assign_evolves given name
  | value stem datum => exact assignValue_evolves given stem datum
  | unreadable lineNumber word stem text => exact .refl b
  | endLine => exact endLine_evolves given
  | resolve => exact .single .resolve
  | finalize => exact finalize_evolves given
  | define name value => exact defineValue_evolves b name value

theorem act_layout [Machine] (given : b.layout = some layout) (a : Act) :
    (b.act a).builder.layout = some layout :=
  (act_evolves given a.within_any).layout_eq.trans given

theorem acts_evolves [Machine] {acts : List Act} (given : b.layout = some layout)
    (within : ∀ a ∈ acts, a.Within marks) : Evolves layout marks b (b.acts acts).builder := by
  induction acts generalizing b with
  | nil => exact .refl b
  | cons a rest ih =>
    obtain ⟨here, later⟩ := List.forall_mem_cons.mp within
    have step := act_evolves given here
    cases result : (b.act a).result with
    | error e =>
      rw [acts, (Outcome.andThen_error result _).2]
      exact step
    | ok u =>
      rw [acts, (Outcome.andThen_ok result _).2]
      exact step.trans (ih (act_layout given a) later)

theorem acts_layout [Machine] (given : b.layout = some layout) (acts : List Act) :
    (b.acts acts).builder.layout = some layout :=
  (acts_evolves given fun a _ => a.within_any).layout_eq.trans given

theorem acts_append [Machine] (b : Builder) (first second : List Act) :
    b.acts (first ++ second) = (b.acts first).andThen fun _ after => after.acts second := by
  induction first generalizing b with
  | nil =>
    simp only [List.nil_append, acts, done, Outcome.andThen, List.nil_append]
  | cons a rest ih =>
    simp only [List.cons_append, acts, Outcome.andThen_assoc, ih]

/-! Calls and the acts they are made of. -/

theorem dispatch_eq_act [Machine] (b : Builder) (name : String) :
    b.dispatch name = b.act (.ofName name) := by
  unfold dispatch Act.ofName
  split
  · rfl
  · split <;> rfl

theorem acts_single [Machine] (b : Builder) (a : Act) : b.acts [a] = b.act a := by
  simp only [acts, Outcome.andThen, done]
  cases h : b.act a with
  | mk result builder events => cases result <;> simp

theorem entry_eq_acts [Machine] (given : b.layout = some layout) (newline : Bool) (name : String) :
    b.entry newline name = b.acts (Call.entry newline name).acts := by
  simp only [entry, needLayout_some given, Call.acts, dispatch_eq_act]
  cases newline with
  | false => exact (acts_single b (.ofName name)).symm
  | true =>
    simp only [↓reduceIte]
    rw [acts]
    simp only [acts_single]
    rfl

theorem readWord_eq_act [Machine] (given : b.layout = some layout) (lineNumber : Nat)
    (word : String) :
    b.readWord lineNumber word = b.act (.ofWord lineNumber word) := by
  unfold readWord Act.ofWord
  cases cutAtEquals word with
  | none =>
    rw [entry_eq_acts given]
    exact acts_single b (.ofName word)
  | some cut =>
    obtain ⟨stem, text⟩ := cut
    simp only
    cases number : Numeral.read text with
    | ok n =>
      have read : b.immediate lineNumber word stem text = .ok n := by
        simp [immediate, number]
      simp only [read]
      rfl
    | error e =>
      simp only [act]
      cases failed : b.immediate lineNumber word stem text with
      | error e' => rfl
      | ok n => simp [immediate, number] at failed

theorem readWords_eq_acts [Machine] (given : b.layout = some layout) (lineNumber : Nat)
    (words : List String) :
    b.readWords lineNumber words = b.acts (words.map (Act.ofWord lineNumber)) := by
  induction words generalizing b with
  | nil => rfl
  | cons word rest ih =>
    rw [readWords, readWord_eq_act given, List.map_cons, acts]
    exact Outcome.andThen_congr _ fun _ => ih (act_layout given _)

theorem readLine_eq_acts [Machine] (given : b.layout = some layout) (lineNumber : Nat)
    (raw : String) :
    b.readLine lineNumber raw = b.acts (Act.ofLine lineNumber raw) := by
  unfold readLine Act.ofLine
  dsimp only
  split
  · rfl
  · have marked : { b with sourceLine := some (lineNumber : Value) }.layout = some layout := given
    rw [acts, readWords_eq_acts marked]
    simp only [act, done, Outcome.andThen, acts_append, acts_single, List.nil_append]

theorem readFrom_eq_acts [Machine] (given : b.layout = some layout) (lineNumber : Nat)
    (lines : List String) :
    b.readFrom lineNumber lines = b.acts (Act.ofLines lineNumber lines) := by
  induction lines generalizing b lineNumber with
  | nil => rfl
  | cons raw rest ih =>
    rw [readFrom, readLine_eq_acts given, Act.ofLines, acts_append]
    exact Outcome.andThen_congr _ fun _ => ih (acts_layout given _) _

theorem perform_builder [Machine] (given : b.layout = some layout) (call : Call) :
    (b.perform call).builder = (b.acts call.acts).builder := by
  cases call with
  | entry newline name => exact congrArg Outcome.builder (entry_eq_acts given newline name)
  | readStream lines verbose =>
    simp only [perform, Outcome.map, readStream, Call.acts, readFrom_eq_acts given, acts_append,
      acts_single]
    cases result : (b.acts (Act.ofLines 1 lines)).result with
    | error e => simp only [Outcome.andThen, result]
    | ok u => simp only [Outcome.andThen, result]; rfl
  | _ => simp only [Call.acts, acts_single]; rfl

/-! What is made in a session leads from its start to its end. -/

theorem mem_moments_evolves [Machine] {acts : List Act} (given : b.layout = some layout)
    (made : (s, a) ∈ b.moments acts) :
    Evolves layout (fun _ => True) b s ∧
      Evolves layout (fun _ => True) (s.act a).builder (b.acts acts).builder := by
  induction acts generalizing b with
  | nil => cases made
  | cons first rest ih =>
    have step : Evolves layout (fun _ => True) b (b.act first).builder :=
      act_evolves given first.within_any
    rw [moments] at made
    cases result : (b.act first).result with
    | error e =>
      rw [acts, (Outcome.andThen_error result _).2]
      simp only [result, List.mem_singleton] at made
      cases made
      exact ⟨.refl _, .refl _⟩
    | ok u =>
      rw [acts, (Outcome.andThen_ok result _).2]
      simp only [result] at made
      rcases List.mem_cons.mp made with here | later
      · cases here
        exact ⟨.refl _, acts_evolves (act_layout given _) fun a _ => a.within_any⟩
      · obtain ⟨reached, remains⟩ := ih (act_layout given first) later
        exact ⟨step.trans reached, remains⟩

theorem perform_evolves [Machine] (given : b.layout = some layout) {call : Call}
    (within : ∀ a ∈ call.acts, a.Within marks) :
    Evolves layout marks b (b.perform call).builder := by
  rw [perform_builder given call]
  exact acts_evolves given within

theorem perform_layout [Machine] (given : b.layout = some layout) (call : Call) :
    (b.perform call).builder.layout = some layout := by
  rw [perform_builder given call]
  exact acts_layout given call.acts

theorem afterCalls_cons [Machine] (b : Builder) (call : Call) (calls : List Call) :
    b.afterCalls (call :: calls) = (b.perform call).builder.afterCalls calls := rfl

theorem afterCalls_evolves [Machine] {calls : List Call} (given : b.layout = some layout)
    (within : ∀ call ∈ calls, ∀ a ∈ call.acts, a.Within marks) :
    Evolves layout marks b (b.afterCalls calls) := by
  induction calls generalizing b with
  | nil => exact .refl b
  | cons call rest ih =>
    obtain ⟨here, later⟩ := List.forall_mem_cons.mp within
    rw [afterCalls_cons]
    exact (perform_evolves given here).trans (ih (perform_layout given call) later)

theorem afterCalls_reached [Machine] (given : b.layout = some layout) (calls : List Call) :
    Evolves layout (fun _ => True) b (b.afterCalls calls) :=
  afterCalls_evolves given fun _ _ a _ => a.within_any

theorem mem_history_evolves [Machine] {calls : List Call} (given : b.layout = some layout)
    (made : (s, a) ∈ b.history calls) :
    Evolves layout (fun _ => True) b s ∧
      Evolves layout (fun _ => True) (s.act a).builder (b.afterCalls calls) := by
  induction calls generalizing b with
  | nil => cases made
  | cons call rest ih =>
    rw [afterCalls_cons]
    rcases List.mem_append.mp made with here | later
    · obtain ⟨reached, remains⟩ := mem_moments_evolves given here
      rw [← perform_builder given call] at remains
      exact ⟨reached, remains.trans (afterCalls_reached (perform_layout given call) rest)⟩
    · obtain ⟨reached, remains⟩ := ih (perform_layout given call) later
      exact ⟨(perform_evolves given fun a _ => a.within_any).trans reached, remains⟩

end Builder

/-! How much a session can hold. -/

/-- The calls and lines of text of a session, which bound the lines it commits and the source lines
it reads. -/
def sessionSize (calls : List Call) : Nat := (calls.map Call.size).sum

namespace Act

theorem ofName_within (marks : Value → Prop) (name : String) :
    (ofName name).Within marks ∧ (ofName name).commits = 0 := by
  unfold ofName
  split
  · exact ⟨trivial, rfl⟩
  · split <;> exact ⟨trivial, rfl⟩

theorem ofWord_within (marks : Value → Prop) (lineNumber : Nat) (word : String) :
    (ofWord lineNumber word).Within marks ∧ (ofWord lineNumber word).commits = 0 := by
  unfold ofWord
  split
  · split <;> exact ⟨trivial, rfl⟩
  · exact ofName_within marks word

theorem ofLine_commits (lineNumber : Nat) (raw : String) :
    ((ofLine lineNumber raw).map commits).sum ≤ 1 := by
  unfold ofLine
  dsimp only
  split
  · simp
  · have none : ((Text.wordsOf (Text.stripComment raw)).map (ofWord lineNumber)).map commits =
        List.replicate (Text.wordsOf (Text.stripComment raw)).length 0 := by
      rw [List.map_map]
      exact List.map_eq_replicate_iff.mpr fun word _ => (ofWord_within (fun _ => True) _ word).2
    simp only [List.map_cons, List.map_append, none, List.sum_cons, List.sum_append]
    simp [commits]

theorem ofLines_commits (lineNumber : Nat) (lines : List String) :
    ((ofLines lineNumber lines).map commits).sum ≤ lines.length := by
  induction lines generalizing lineNumber with
  | nil => simp [ofLines]
  | cons raw rest ih =>
    have here := ofLine_commits lineNumber raw
    have later := ih (lineNumber + 1)
    simp only [ofLines, List.map_append, List.sum_append, List.length_cons]
    omega

theorem ofLine_within {lineNumber limit : Nat} {raw : String} (small : lineNumber ≤ limit) :
    ∀ a ∈ ofLine lineNumber raw, a.Within fun v => ∃ k : Nat, k ≤ limit ∧ v = .int k := by
  intro a made
  unfold ofLine at made
  dsimp only at made
  split at made
  · cases made
  · rcases List.mem_cons.mp made with rfl | later
    · exact ⟨lineNumber, small, rfl⟩
    · rcases List.mem_append.mp later with word | last
      · obtain ⟨w, _, rfl⟩ := List.mem_map.mp word
        exact (ofWord_within _ lineNumber w).1
      · cases List.mem_singleton.mp last
        trivial

theorem ofLines_within {lineNumber limit : Nat} {lines : List String}
    (small : lineNumber + lines.length ≤ limit + 1) :
    ∀ a ∈ ofLines lineNumber lines, a.Within fun v => ∃ k : Nat, k ≤ limit ∧ v = .int k := by
  induction lines generalizing lineNumber with
  | nil =>
    intro a made
    cases made
  | cons raw rest ih =>
    intro a made
    rw [List.length_cons] at small
    rcases List.mem_append.mp made with here | later
    · exact ofLine_within (by omega) a here
    · exact ih (by omega) a later

end Act

namespace Call

theorem acts_within {call : Call} {limit : Nat} (small : call.size ≤ limit) :
    ∀ a ∈ call.acts, a.Within fun v => ∃ k : Nat, k ≤ limit ∧ v = .int k := by
  intro a made
  cases call with
  | readStream lines verbose =>
    rcases List.mem_append.mp made with word | last
    · exact Act.ofLines_within (by simp only [size] at small; omega) a word
    · cases List.mem_singleton.mp last
      trivial
  | entry newline name =>
    have named := (Act.ofName_within (fun v => ∃ k : Nat, k ≤ limit ∧ v = .int k) name).1
    cases newline with
    | false =>
      cases List.mem_singleton.mp made
      exact named
    | true =>
      rcases List.mem_cons.mp made with rfl | last
      · trivial
      · cases List.mem_singleton.mp last
        exact named
  | _ =>
    cases List.mem_singleton.mp made
    trivial

theorem acts_commits (call : Call) : (call.acts.map Act.commits).sum ≤ call.size := by
  cases call with
  | readStream lines verbose =>
    have committed := Act.ofLines_commits 1 lines
    simp only [acts, size, List.map_append, List.sum_append, List.map_cons, List.map_nil,
      List.sum_cons, List.sum_nil, Act.commits]
    omega
  | entry newline name =>
    have named := (Act.ofName_within (fun _ => True) name).2
    have ended : Act.endLine.commits = 1 := rfl
    cases newline <;> simp [acts, size, named, ended]
  | _ => simp [acts, size, Act.commits]

end Call

namespace Builder

variable {layout : Layout}

theorem committed_labels (b : Builder) : b.committed.labels = b.labels := by
  unfold committed
  split <;> rfl

theorem committed_length_le (b : Builder) : b.committed.lines.length ≤ b.lines.length + 1 := by
  unfold committed
  split
  · exact Nat.le_succ _
  · simp

theorem resolveBranches_length (b : Builder) :
    b.resolveBranches.builder.lines.length = b.lines.length :=
  (resolve_settles b.labels b.lines).length_eq.symm

theorem act_frame [Machine] (b : Builder) (a : Act) :
    (b.act a).builder.lines.length ≤ b.lines.length + a.commits ∧
    ((b.act a).builder.labels = b.labels ∨
      ∃ label, a = .declare label ∧ (b.declareLabel label).result = .ok () ∧
        (b.act a).builder.labels = b.labels.put label (.int b.lines.length)) := by
  cases a with
  | mark line => exact ⟨Nat.le_refl _, .inl rfl⟩
  | declare label =>
    simp only [act, declareLabel]
    split
    · exact ⟨Nat.le_refl _, .inl rfl⟩
    · rename_i allowed
      exact ⟨Nat.le_refl _, .inr ⟨label, rfl, by rw [allowed], rfl⟩⟩
  | branch label =>
    simp only [act]
    cases check : b.checkReference label with
    | error e =>
      simp only [referenceLabel, check]
      exact ⟨Nat.le_refl _, .inl rfl⟩
    | ok u =>
      rw [(referenceLabel_ok check).2]
      exact ⟨Nat.le_refl _, .inl rfl⟩
  | assign name =>
    simp only [act, assign]
    split
    · exact ⟨Nat.le_refl _, .inl rfl⟩
    · rw [store_builder]
      exact ⟨Nat.le_refl _, .inl rfl⟩
  | value stem datum =>
    simp only [act, assignValue]
    split
    · exact ⟨Nat.le_refl _, .inl rfl⟩
    · rw [store_builder]
      exact ⟨Nat.le_refl _, .inl rfl⟩
  | unreadable lineNumber word stem text => exact ⟨Nat.le_refl _, .inl rfl⟩
  | endLine =>
    simp only [act, endLine]
    split
    · exact ⟨Nat.le_succ _, .inl rfl⟩
    · exact ⟨committed_length_le b, .inl (committed_labels b)⟩
  | resolve => exact ⟨Nat.le_of_eq (resolveBranches_length b), .inl rfl⟩
  | finalize =>
    simp only [act, finalize]
    split
    · exact ⟨Nat.le_succ _, .inl rfl⟩
    · have flushed := committed_length_le b
      have kept := resolveBranches_length b.committed
      simp only [Outcome.map, Outcome.andThen]
      split <;> exact ⟨kept ▸ flushed, .inl (committed_labels b)⟩
  | define name value =>
    simp only [act, defineValue]
    split <;> exact ⟨Nat.le_refl _, .inl rfl⟩

theorem acts_length_le [Machine] (b : Builder) (acts : List Act) :
    (b.acts acts).builder.lines.length ≤ b.lines.length + (acts.map Act.commits).sum := by
  induction acts generalizing b with
  | nil => exact Nat.le_refl _
  | cons a rest ih =>
    have step := (act_frame b a).1
    rw [List.map_cons, List.sum_cons]
    cases result : (b.act a).result with
    | error e =>
      rw [Builder.acts, (Outcome.andThen_error result _).2]
      omega
    | ok u =>
      rw [Builder.acts, (Outcome.andThen_ok result _).2]
      have later := ih (b.act a).builder
      omega

theorem afterCalls_length_le [Machine] {b : Builder} (given : b.layout = some layout)
    (calls : List Call) :
    (b.afterCalls calls).lines.length ≤ b.lines.length + sessionSize calls := by
  induction calls generalizing b with
  | nil => exact Nat.le_refl _
  | cons call rest ih =>
    have here : (b.perform call).builder.lines.length ≤ b.lines.length + call.size := by
      rw [perform_builder given call]
      exact Nat.le_trans (acts_length_le b call.acts) (Nat.add_le_add_left call.acts_commits _)
    have later := ih (perform_layout given call)
    rw [afterCalls_cons]
    simp only [sessionSize, List.map_cons, List.sum_cons] at later ⊢
    omega

end Builder

end Microcode
