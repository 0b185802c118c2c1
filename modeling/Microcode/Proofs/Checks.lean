import Microcode.Session
import Mathlib.Algebra.GroupWithZero.Nat

/-!
When the checks of the builder pass. Each check is one chain of tests, so that what it lets through
is said once here and the changes behind it are never looked at together with it. The first part
says what it takes for a chain of steps to succeed.
-/
namespace Microcode

section Except

variable {ε α β : Type}

@[simp] theorem ok_bind (a : α) (f : α → Except ε β) : (Except.ok a >>= f) = f a := rfl

@[simp] theorem error_bind (e : ε) (f : α → Except ε β) :
    (Except.error e >>= f) = Except.error e := rfl

@[simp] theorem throw_eq_error (e : ε) : (throw e : Except ε α) = Except.error e := rfl

@[simp] theorem pure_eq_ok (a : α) : (pure a : Except ε α) = Except.ok a := rfl

@[simp] theorem ok_mapError {δ : Type} (f : ε → δ) (a : α) :
    (Except.ok a : Except ε α).mapError f = .ok a := rfl

@[simp] theorem error_mapError {δ : Type} (f : ε → δ) (e : ε) :
    (Except.error e : Except ε α).mapError f = .error (f e) := rfl

theorem bind_ok_iff {step : Except ε α} {next : α → Except ε β} {r : β} :
    (step >>= next) = Except.ok r ↔ ∃ a, step = Except.ok a ∧ next a = Except.ok r := by
  cases step <;> simp

theorem bind_error_iff {step : Except ε α} {next : α → Except ε β} {e : ε} :
    (step >>= next) = Except.error e ↔
      step = Except.error e ∨ ∃ a, step = Except.ok a ∧ next a = Except.error e := by
  cases step <;> simp

theorem toOption_eq_some {step : Except ε α} {a : α} : step.toOption = some a ↔ step = .ok a := by
  cases step <;> simp [Except.toOption]

theorem mapError_ok {δ : Type} {f : ε → δ} {step : Except ε α} {a : α} :
    step.mapError f = .ok a ↔ step = .ok a := by
  cases step <;> simp

theorem mapM_ok_iff {f : α → Except ε β} {xs : List α} :
    (∃ ys, xs.mapM f = .ok ys) ↔ ∀ x ∈ xs, ∃ y, f x = .ok y := by
  induction xs with
  | nil => simp
  | cons x rest ih =>
    rw [List.forall_mem_cons, ← ih]
    simp only [List.mapM_cons, bind_ok_iff]
    constructor
    · rintro ⟨_, y, here, ys, later, _⟩
      exact ⟨⟨y, here⟩, ys, later⟩
    · rintro ⟨⟨y, here⟩, ys, later⟩
      exact ⟨y :: ys, y, here, ys, later, rfl⟩

end Except

theorem Machine.memoryLimit_lt [Machine] : Machine.memoryLimit < 2 ^ 63 := Machine.counted

/-- The bound is stated as a power and never computed. -/
theorem fits_iff {n : Int} : Numeral.fits n = true ↔ n.natAbs < 10 ^ Numeral.maxDigits := by
  unfold Numeral.fits
  generalize Numeral.maxDigits = digits
  exact decide_eq_true_iff

theorem fits_of_small {n : Int} (small : n.natAbs < 10 ^ 20) : Numeral.fits n = true := by
  have digits : 20 ≤ Numeral.maxDigits := by decide
  unfold Numeral.fits
  generalize Numeral.maxDigits = most at digits ⊢
  exact decide_eq_true (Nat.lt_of_lt_of_le small (Nat.pow_le_pow_right (by decide) digits))

theorem printable_ok_iff {numbers : List Int} :
    printable numbers = .ok () ↔ ∀ n ∈ numbers, Numeral.fits n = true := by
  unfold printable
  rw [← List.all_eq_true]
  split <;> simp_all

theorem Value.mem_numbers {v : Value} {n : Int} (member : n ∈ v.numbers) : v.toInt = n := by
  cases v with
  | int m => exact (List.mem_singleton.mp member).symm
  | flag b => cases member

theorem Value.printable_pair {v w : Value} (first : Numeral.fits v.toInt = true)
    (second : Numeral.fits w.toInt = true) : printable (v.numbers ++ w.numbers) = .ok () := by
  apply printable_ok_iff.mpr
  intro n member
  rcases List.mem_append.mp member with here | here
  · exact Value.mem_numbers here ▸ first
  · exact Value.mem_numbers here ▸ second

theorem Fault.eq_of_report {fault reported : Fault} (failed : fault.report = .fault reported) :
    reported = fault := by
  unfold Fault.report at failed
  split at failed
  · exact (Error.fault.inj failed).symm
  · cases failed

namespace Logged

variable {ε α β : Type}

theorem bind_ok_iff {step : Logged ε α} {next : α → Logged ε β} {r : β} :
    (step >>= next).result = .ok r ↔ ∃ a, step.result = .ok a ∧ (next a).result = .ok r := by
  simp only [bind, Logged.bind]
  cases step.result <;> simp

theorem bind_error_iff {step : Logged ε α} {next : α → Logged ε β} {e : ε} :
    (step >>= next).result = .error e ↔
      step.result = .error e ∨ ∃ a, step.result = .ok a ∧ (next a).result = .error e := by
  simp only [bind, Logged.bind]
  cases step.result <;> simp

@[simp] theorem pure_result (a : α) : (pure a : Logged ε α).result = .ok a := rfl

@[simp] theorem fail_result (e : ε) : (fail e : Logged ε α).result = .error e := rfl

@[simp] theorem ofExcept_result (result : Except ε α) : (ofExcept result).result = result := rfl

@[simp] theorem tell_result (events : List Event) :
    (tell events : Logged ε Unit).result = .ok () := rfl

theorem mapError_result {δ : Type} (f : ε → δ) (step : Logged ε α) :
    (step.mapError f).result = step.result.mapError f := rfl

theorem optional_ok {c : Prop} [Decidable c] {step : Logged ε α}
    {shown : α → List Event} {rest : Logged ε β} {r : β}
    (done : (if c then (do let a ← step; tell (shown a); rest) else rest).result = .ok r) :
    (c → ∃ a, step.result = .ok a) ∧ rest.result = .ok r := by
  split at done
  · simp only [Logged.bind_ok_iff, tell_result] at done
    obtain ⟨a, stepped, _, _, done⟩ := done
    exact ⟨fun _ => ⟨a, stepped⟩, done⟩
  · rename_i skipped
    exact ⟨fun asked => absurd asked skipped, done⟩

end Logged

namespace Builder

variable {b : Builder} {layout : Layout}

theorem needLayout_some (given : b.layout = some layout) (call : String) :
    b.needLayout call = .ok layout := by
  simp only [needLayout, given]

theorem checkDeclaration_ok_iff {label : String} (given : b.layout = some layout) :
    b.checkDeclaration label = .ok () ↔
      b.resolved = false ∧ label ≠ "" ∧ Text.isAscii label = true ∧
        b.labels.lookup label = none := by
  unfold checkDeclaration
  rw [needLayout_some given, ok_bind]
  cases b.resolved <;> by_cases named : label = "" <;> cases Text.isAscii label <;>
    cases b.labels.lookup label <;> simp [named]

theorem checkStore_ok_iff {stem : String} {token : Token} :
    b.checkStore stem token = .ok () ↔
      b.resolved = false ∧ b.current.tokens.lookup stem = none := by
  unfold checkStore
  cases b.resolved <;> cases b.current.tokens.lookup stem <;> simp

theorem checkReference_ok_iff {label : String} (given : b.layout = some layout) :
    b.checkReference label = .ok () ↔
      label ≠ "" ∧ Text.isAscii label = true ∧ (layout.field? branchStem).isSome ∧
        b.resolved = false ∧ b.current.tokens.lookup branchStem = none := by
  unfold checkReference
  rw [needLayout_some given, ok_bind, ← @checkStore_ok_iff b branchStem (.label label)]
  by_cases named : label = "" <;> cases Text.isAscii label <;>
    cases layout.field? branchStem <;> simp [named]

theorem checkName_ok_iff {name stem : String} (given : b.layout = some layout) :
    b.checkName name = .ok stem ↔
      (∃ field, layout.owner? name = some field ∧ field.stem = stem) ∧
        b.resolved = false ∧ b.current.tokens.lookup stem = none := by
  unfold checkName
  rw [needLayout_some given, ok_bind]
  cases layout.owner? name with
  | none => simp
  | some field =>
    simp only [bind_ok_iff, pure_eq_ok, Except.ok.injEq, Option.some.injEq, exists_eq_left']
    constructor
    · rintro ⟨_, stored, rfl⟩
      exact ⟨rfl, checkStore_ok_iff.mp stored⟩
    · rintro ⟨rfl, free⟩
      exact ⟨(), checkStore_ok_iff.mpr free, rfl⟩

theorem checkValue_ok_iff {stem : String} {datum : Datum} {v : Value}
    (given : b.layout = some layout) :
    b.checkValue stem datum = .ok v ↔
      (layout.field? stem).isSome ∧ datum = .value v ∧
        b.resolved = false ∧ b.current.tokens.lookup stem = none := by
  unfold checkValue
  rw [needLayout_some given, ok_bind]
  cases layout.field? stem with
  | none => simp
  | some field =>
    cases datum with
    | value w =>
      simp only [bind_ok_iff, pure_eq_ok, Except.ok.injEq, Datum.value.injEq, Option.isSome_some,
        true_and]
      constructor
      · rintro ⟨_, stored, rfl⟩
        exact ⟨rfl, checkStore_ok_iff.mp stored⟩
      · rintro ⟨rfl, free⟩
        exact ⟨(), checkStore_ok_iff.mpr free, rfl⟩
    | _ => simp [bind_ok_iff]

theorem checkOpen_ok_iff (given : b.layout = some layout) :
    b.checkOpen = .ok () ↔ b.resolved = false := by
  unfold checkOpen
  rw [needLayout_some given, ok_bind]
  cases b.resolved <;> simp

theorem checkFinalize_ok_iff {l : Layout} (given : b.layout = some layout) :
    b.checkFinalize = .ok l ↔ l = layout ∧ b.resolved = false := by
  unfold checkFinalize
  rw [needLayout_some given, ok_bind]
  cases b.resolved <;> simp [eq_comm]

end Builder

end Microcode
