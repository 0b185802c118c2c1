import Microcode.Proofs.Layout
import Microcode.Proofs.Parallel
import Mathlib.Algebra.Ring.Int.Defs

/-!
Debug mode. A builder in debug mode tells about every label and every token it stores; it does this
after the change, so a literal too long to be told is stored all the same. Until the first such
literal a session shows the same in either mode, debug messages apart.
-/
namespace Microcode

def spoken (events : List Event) : List Event :=
  events.filter fun
    | .notice n => n.level != .debug
    | .panel _ => true

def Token.isLong (token : Token) : Bool := !token.numbers.all Numeral.fits

def Line.longLiterals (line : Line) : Nat := line.tokens.countP fun entry => entry.2.isLong

namespace Builder

def quiet (b : Builder) : Builder := { b with debug := false }

def traced (b : Builder) : Builder := { b with debug := true }

def Watched (b c : Builder) : Prop := b.debug = false ∧ c = b.traced

/-- How many literals too long to print the lines of a builder hold, the pending one included. -/
def longLiterals (b : Builder) : Nat :=
  (b.lines.map Line.longLiterals).sum + b.current.longLiterals

def StoresLong [Machine] (b : Builder) (call : Call) : Prop :=
  b.longLiterals < (b.perform call).builder.longLiterals

instance [Machine] (b : Builder) (call : Call) : Decidable (b.StoresLong call) := Nat.decLt _ _

/-- The calls of a session before the first one that stores a literal too long to print. -/
def untilLong [Machine] (b : Builder) : List Call → List Call
  | [] => []
  | call :: rest =>
    if b.StoresLong call then [] else call :: (b.perform call).builder.untilLong rest

/-- What a session shows call by call, debug messages apart: the result, the builder after the call
and what is told. -/
def account [Machine] (b : Builder) : List Call → List (Except Error Reply × Builder × List Event)
  | [] => []
  | call :: rest =>
    ((b.perform call).result, (b.perform call).builder.quiet, spoken (b.perform call).events) ::
      (b.perform call).builder.account rest

end Builder

/-- What a call comes to without and with debug mode, if `held` long literals were there before. -/
inductive Outcome.Traces {α : Type} (held : Nat) (plain traced : Outcome α) : Prop where
  | along (off : plain.builder.debug = false) (same : traced.builder = plain.builder.traced)
      (result : traced.result = plain.result) (told : spoken traced.events = spoken plain.events)
      (kept : plain.builder.longLiterals = held)
  | apart (off : plain.builder.debug = false) (failed : traced.result = .error .tooLongToPrint)
      (stored : held < plain.builder.longLiterals) (stored' : held < traced.builder.longLiterals)

/-! Long literals. -/

theorem countP_put_new {p : String × Token → Bool} {tokens : Assoc Token} {stem : String}
    (token : Token) (free : tokens.lookup stem = none) :
    (tokens.put stem token).countP p = tokens.countP p + if p (stem, token) then 1 else 0 := by
  rw [Assoc.put_new token free, List.countP_append, List.countP_singleton]

theorem countP_put_old {p : String × Token → Bool} {tokens : Assoc Token} {stem : String}
    {old new : Token} (held : tokens.lookup stem = some old)
    (alike : p (stem, new) = p (stem, old)) :
    (tokens.put stem new).countP p = tokens.countP p := by
  induction tokens with
  | nil => cases held
  | cons entry rest ih =>
    obtain ⟨k, t⟩ := entry
    by_cases same : k = stem
    · subst same
      rw [List.lookup_cons_self] at held
      cases held
      rw [Assoc.put, if_pos rfl, List.countP_cons, List.countP_cons, alike]
    · have other : (stem == k) = false := beq_eq_false_iff_ne.mpr (Ne.symm same)
      rw [List.lookup_cons, other] at held
      rw [Assoc.put, if_neg same, List.countP_cons, List.countP_cons, ih held]

theorem Line.Settles.longLiterals {labels : Labels} {line line' : Line}
    (step : line.Settles labels line') : line'.longLiterals = line.longLiterals := by
  cases step with
  | same => rfl
  | @branch label d pending reached =>
    obtain ⟨_, _, _, ahead, near⟩ := distance_ok reached
    unfold maxBranch at near
    -- a distance is short, and so is the label whose place it takes
    have short : Numeral.fits d = true := fits_of_small (by omega)
    refine countP_put_old (Line.pendingLabel_eq_some.mp pending) ?_
    simp [Token.isLong, Token.numbers, Value.numbers, short]

namespace Builder

variable {b : Builder}

theorem committed_longLiterals (b : Builder) : b.committed.longLiterals = b.longLiterals := by
  unfold committed
  split
  · rfl
  · simp [longLiterals, Line.fresh, Line.longLiterals]

theorem resolveBranches_longLiterals (b : Builder) :
    b.resolveBranches.builder.longLiterals = b.longLiterals := by
  have same : (resolve b.labels b.lines).1.map Line.longLiterals =
      b.lines.map Line.longLiterals := by
    have settles := resolve_settles b.labels b.lines
    generalize (resolve b.labels b.lines).1 = lines' at settles
    generalize b.lines = lines at settles
    induction settles with
    | nil => rfl
    | cons step _ ih => rw [List.map_cons, List.map_cons, step.longLiterals, ih]
  exact congrArg (fun counts => counts.sum + b.current.longLiterals) same

theorem withToken_longLiterals {stem : String} (token : Token)
    (free : b.current.tokens.lookup stem = none) :
    (b.withToken stem token).longLiterals =
      b.longLiterals + if token.isLong then 1 else 0 := by
  simp only [longLiterals, withToken, Line.longLiterals, countP_put_new token free]
  omega

end Builder

/-! Outcomes. -/

namespace Outcome.Traces

variable {α β : Type} {held : Nat} {plain traced : Outcome α}

theorem andThen {next next' : α → Builder → Outcome β} (first : plain.Traces held traced)
    (later : ∀ a (b : Builder), b.debug = false →
      (next a b).Traces b.longLiterals (next' a b.traced)) :
    (plain.andThen next).Traces held (traced.andThen next') := by
  cases first with
  | along off same result told kept =>
    cases done : plain.result with
    | error e =>
      rw [done] at result
      simp only [Outcome.andThen, done, result]
      exact .along off same rfl told kept
    | ok a =>
      rw [done] at result
      simp only [Outcome.andThen, done, result, same]
      cases later a plain.builder off with
      | along off' same' result' told' kept' =>
        refine .along off' same' result' ?_ (kept'.trans kept)
        simp only [spoken, List.filter_append] at told told' ⊢
        rw [told, told']
      | apart off' failed' stored stored' =>
        exact .apart off' failed' (kept ▸ stored) (kept ▸ stored')
  | apart off failed stored stored' =>
    -- the builder without debug mode goes on, and keeps what it has stored
    simp only [Outcome.andThen, failed]
    cases done : plain.result with
    | error e => exact .apart off rfl stored stored'
    | ok a =>
      cases later a plain.builder off with
      | along off' _ _ _ kept' => exact .apart off' rfl (kept'.symm ▸ stored) stored'
      | apart off' _ grown _ => exact .apart off' rfl (Nat.lt_trans stored grown) stored'

end Outcome.Traces

/-! Calls. -/

namespace Builder

variable {b : Builder}

theorem quiet_of_off (off : b.debug = false) : b.quiet = b := by
  cases b
  cases off
  rfl

theorem store_traces {stem : String} (off : b.debug = false) (token : Token)
    (free : b.current.tokens.lookup stem = none) :
    (b.store stem token).Traces b.longLiterals (b.traced.store stem token) := by
  have count := withToken_longLiterals token free
  unfold Token.isLong at count
  have plain : b.store stem token = ⟨.ok (), b.withToken stem token, []⟩ := by
    simp [store, off]
  rw [plain]
  cases short : token.numbers.all Numeral.fits with
  | true =>
    have told : b.traced.store stem token =
        ⟨.ok (), b.traced.withToken stem token,
          [.notice (.tokenStored b.lines.length stem token)]⟩ := by
      simp [store, traced, short]
    rw [told]
    exact .along off rfl rfl rfl (by simpa [short] using count)
  | false =>
    have failed : b.traced.store stem token =
        ⟨.error .tooLongToPrint, b.traced.withToken stem token, []⟩ := by
      simp [store, traced, short]
    have grown : b.longLiterals < (b.withToken stem token).longLiterals := by
      simp [count, short]
    rw [failed]
    exact .apart off rfl grown grown

theorem committed_debug (b : Builder) (mode : Bool) :
    { b with debug := mode }.committed = { b.committed with debug := mode } := by
  unfold committed
  split <;> rfl

theorem committed_mode (b : Builder) : b.committed.debug = b.debug := by
  unfold committed
  split <;> rfl

/-- Closing a builder tells nothing, in either mode. -/
theorem finalize_debug [Machine] (b : Builder) (mode : Bool) :
    { b with debug := mode }.finalize =
      { b.finalize with builder := { b.finalize.builder with debug := mode } } := by
  have check : { b with debug := mode }.checkFinalize = b.checkFinalize := rfl
  unfold finalize
  rw [check, committed_debug]
  cases b.checkFinalize with
  | error e => rfl
  | ok layout =>
    have resolved : { b.committed with debug := mode }.resolveBranches =
        { b.committed.resolveBranches with
          builder := { b.committed.resolveBranches.builder with debug := mode } } := rfl
    dsimp only
    rw [resolved]
    cases done : b.committed.resolveBranches.result with
    | error e => simp only [Outcome.andThen, done]
    | ok n =>
      simp only [Outcome.andThen, done]
      rfl

theorem finalize_mode [Machine] (b : Builder) : b.finalize.builder.debug = b.debug := by
  have same := congrArg (fun outcome => outcome.builder.debug) (finalize_debug b b.debug)
  exact same

end Builder

namespace Outcome.Traces

/-- Debug mode changes nothing about a call but that it is told, which may fail. -/
theorem parallel :
    Parallel Eq Builder.Watched fun b plain traced => plain.Traces b.longLiterals traced where
  concurs := by
    rintro b _ ⟨_, rfl⟩
    exact ⟨rfl, rfl, rfl, rfl, rfl, rfl, rfl⟩
  told := by
    rintro _ b _ s _ r _ ⟨off, rfl⟩ rfl same events
    exact .along off rfl same.eq.symm rfl rfl
  andThen first later := first.andThen fun a b off => later a b b.traced ⟨off, rfl⟩
  declared := by
    rintro b _ label ⟨off, rfl⟩ _
    exact .along off rfl rfl (by rw [off]; rfl) rfl
  stored := by
    rintro b _ stem ⟨off, rfl⟩ free token
    exact Builder.store_traces off token free
  branched := by
    rintro b _ ⟨off, rfl⟩ label
    exact .along off rfl rfl rfl rfl
  committed := by
    rintro b _ ⟨off, rfl⟩
    refine .along ((Builder.committed_mode b).trans off) ?_ rfl rfl
      (Builder.committed_longLiterals b)
    exact Builder.committed_debug b true
  defined := by
    rintro b _ ⟨off, rfl⟩ table events
    exact .along off rfl rfl rfl rfl

end Outcome.Traces

namespace Builder

variable {b : Builder}

theorem resolveBranches_traces (off : b.debug = false) :
    b.resolveBranches.Traces b.longLiterals b.traced.resolveBranches :=
  .along off rfl rfl rfl (resolveBranches_longLiterals b)

theorem finalize_longLiterals [Machine] (b : Builder) :
    b.finalize.builder.longLiterals = b.longLiterals := by
  unfold finalize
  split
  · rfl
  · have kept := (resolveBranches_longLiterals b.committed).trans (committed_longLiterals b)
    simp only [Outcome.andThen]
    split <;> exact kept

theorem finalize_traces [Machine] (off : b.debug = false) :
    b.finalize.Traces b.longLiterals b.traced.finalize := by
  have same : b.traced.finalize = { b.finalize with builder := b.finalize.builder.traced } :=
    finalize_debug b true
  rw [same]
  exact .along ((finalize_mode b).trans off) rfl rfl rfl (finalize_longLiterals b)

theorem readFrom_traces (off : b.debug = false) (lineNumber : Nat) (lines : List String) :
    (b.readFrom lineNumber lines).Traces b.longLiterals (b.traced.readFrom lineNumber lines) := by
  rw [readFrom_written, readFrom_written]
  exact Outcome.Traces.parallel.readWritten (List.forall₂_same.mpr fun _ _ => ⟨rfl, rfl⟩)
    ⟨off, rfl⟩

theorem perform_traces [Machine] (off : b.debug = false) (call : Call) :
    (b.perform call).Traces b.longLiterals (b.traced.perform call) :=
  Outcome.Traces.parallel.perform ⟨off, rfl⟩ call (fun _ => finalize_traces off)
    fun _ => resolveBranches_traces off

/-! Sessions. -/

theorem session_traces [Machine] (off : b.debug = false) (calls : List Call) :
    b.traced.untilLong calls = b.untilLong calls ∧
    b.traced.account (b.untilLong calls) = b.account (b.untilLong calls) ∧
    b.traced.afterCalls (b.untilLong calls) = (b.afterCalls (b.untilLong calls)).traced ∧
    (b.afterCalls (b.untilLong calls)).debug = false := by
  induction calls generalizing b with
  | nil => exact ⟨rfl, rfl, rfl, off⟩
  | cons call rest ih =>
    rw [untilLong, untilLong]
    cases perform_traces off call with
    | apart _ _ stored stored' =>
      have long : b.StoresLong call := stored
      have long' : b.traced.StoresLong call := stored'
      rw [if_pos long, if_pos long']
      exact ⟨rfl, rfl, rfl, off⟩
    | along off' same result told kept =>
      have short : ¬ b.StoresLong call := Nat.not_lt.mpr (Nat.le_of_eq kept)
      have short' : ¬ b.traced.StoresLong call := by
        unfold StoresLong
        rw [same]
        exact short
      obtain ⟨cut, shown, left, off''⟩ := ih off'
      rw [if_neg short, if_neg short', same, cut]
      refine ⟨rfl, ?_, ?_, off''⟩
      · rw [account, account, same, result, told, shown]
        rfl
      · rw [afterCalls_cons, afterCalls_cons, same, left]

theorem untilLong_stops [Machine] {calls rest : List Call} {call : Call}
    (stopped : calls = b.untilLong calls ++ call :: rest) :
    (b.afterCalls (b.untilLong calls)).StoresLong call := by
  induction calls generalizing b with
  | nil => simp [untilLong] at stopped
  | cons first later ih =>
    rw [untilLong] at stopped ⊢
    split at stopped
    · rename_i long
      cases stopped
      rw [if_pos long]
      exact long
    · rename_i short
      rw [if_neg short, afterCalls_cons]
      exact ih (List.cons.inj stopped).2

/-- A literal too long to be told is stored in either mode. -/
theorem assignValue_long [Machine] {stem : String} {datum : Datum} (off : b.debug = false)
    (long : b.StoresLong (.assignValue stem datum)) :
    ∃ n : Int, datum = .value (.int n) ∧ 10 ^ Numeral.maxDigits ≤ n.natAbs ∧
      (b.assignValue stem datum).result = .ok () ∧
      (b.assignValue stem datum).builder = b.withToken stem (.literal (.int n)) ∧
      (b.traced.assignValue stem datum).builder =
        (b.withToken stem (.literal (.int n))).traced := by
  have check : b.traced.checkValue stem datum = b.checkValue stem datum := rfl
  have grown : b.longLiterals < (b.assignValue stem datum).builder.longLiterals := long
  unfold assignValue at grown ⊢
  rw [check]
  cases passed : b.checkValue stem datum with
  | error e =>
    rw [passed] at grown
    exact absurd grown (Nat.lt_irrefl _)
  | ok v =>
    rw [passed] at grown
    simp only [store_builder] at grown ⊢
    rw [withToken_longLiterals _ (checkValue_free passed)] at grown
    have unprintable : (Token.literal v).isLong = true := by
      by_contra short
      rw [if_neg short] at grown
      exact absurd grown (Nat.lt_irrefl _)
    cases v with
    | flag _ => cases unprintable
    | int n =>
      have digits : ¬ Numeral.fits n = true := by
        simpa [Token.isLong, Token.numbers, Value.numbers] using unprintable
      rw [fits_iff] at digits
      refine ⟨n, ?_, Nat.le_of_not_lt digits, ?_, rfl, rfl⟩
      · cases given : b.layout with
        | none => simp [checkValue, needLayout, given] at passed
        | some layout => exact ((checkValue_ok_iff given).mp passed).2.1
      · simp [store_ok_iff, off]

end Builder

/-- Debug mode only watches: up to the first call that stores a literal of more than `maxDigits`
digits, every call gives the same, leaves the same and tells the same, debug messages apart. That
call fails in debug mode, and if it assigns a value, both builders have stored it. -/
theorem debug_mode_observes [Machine] (b : Builder) (calls : List Call) :
    let plain := b.quiet
    let same := plain.untilLong calls
    b.traced.untilLong calls = same ∧ b.traced.account same = plain.account same ∧
    ∀ call rest, calls = same ++ call :: rest →
      let one := (plain.afterCalls same).perform call
      let two := (b.traced.afterCalls same).perform call
      two.result = .error .tooLongToPrint ∧
      ∀ stem datum, call = .assignValue stem datum →
        one.result = .ok .done ∧ two.builder.quiet = one.builder ∧
        ∃ n : Int, datum = .value (.int n) ∧ 10 ^ Numeral.maxDigits ≤ n.natAbs ∧
          one.builder.current.tokens.lookup stem = some (.literal (.int n)) := by
  intro plain same
  obtain ⟨cut, shown, left, off⟩ := Builder.session_traces (b := plain) rfl calls
  refine ⟨cut, shown, ?_⟩
  intro call rest stopped one two
  have long : (plain.afterCalls same).StoresLong call := Builder.untilLong_stops stopped
  have resumed : b.traced.afterCalls same = (plain.afterCalls same).traced := left
  constructor
  · cases Builder.perform_traces off call with
    | along _ _ _ _ kept => exact absurd long (Nat.not_lt.mpr (Nat.le_of_eq kept))
    | apart _ failed _ _ => rw [← failed, ← resumed]
  · rintro stem datum rfl
    obtain ⟨n, value, digits, done, stored, stored'⟩ := Builder.assignValue_long off long
    have after : one.builder = (plain.afterCalls same).withToken stem (.literal (.int n)) := stored
    have after' : two.builder =
        ((plain.afterCalls same).withToken stem (.literal (.int n))).traced := by
      rw [← stored', ← resumed]
      rfl
    refine ⟨congrArg (Except.map fun _ => Reply.done) done, ?_, n, value, digits, ?_⟩
    · have off' : one.builder.debug = false := after ▸ off
      rw [after', ← after]
      exact Builder.quiet_of_off off'
    · rw [after, Builder.withToken, Assoc.lookup_put, if_pos rfl]

/-- A stream and a refused name come before the long literal. -/
theorem debug_mode_observes_long_literal :
    let b := Builder.fresh (some Layout.small) [] false
    let text : Call := .readStream ["label_a OP_=0x5 offset_a"] true
    let long : Call := .assignValue "OP_" (.value (.int (10 ^ 4300)))
    let same : List Call := [text, .assign "X"]
    let one := (b.quiet.afterCalls same).perform long
    let two := (b.traced.afterCalls same).perform long
    b.quiet.untilLong [text, .assign "X", long, .finalize] = same ∧
      b.traced.account same = b.quiet.account same ∧
      one.result = .ok .done ∧ two.result = .error .tooLongToPrint ∧
      two.builder.quiet = one.builder := by
  intro b text long same one two
  have cut : b.quiet.untilLong [text, .assign "X", long, .finalize] = same := by
    have first : ¬ b.quiet.StoresLong text := by decide +kernel
    have second : ¬ (b.quiet.perform text).builder.StoresLong (.assign "X") := by decide +kernel
    have third :
        ((b.quiet.perform text).builder.perform (.assign "X")).builder.StoresLong long := by
      decide +kernel
    simp only [Builder.untilLong, if_neg first, if_neg second, if_pos third]
    rfl
  obtain ⟨_, shown, stopped⟩ := debug_mode_observes b [text, .assign "X", long, .finalize]
  rw [cut] at shown stopped
  obtain ⟨failed, stored⟩ := stopped long [.finalize] rfl
  obtain ⟨done, left, _⟩ := stored "OP_" _ rfl
  exact ⟨cut, shown, done, failed, left⟩

end Microcode
