import Microcode.Notice

/-!
What a run tells its user: notices, which become log entries, and panels that hold text and
tables. A `Logged` result keeps what was told before a failure.
-/
namespace Microcode

structure Table where
  title : String
  columns : List String
  rows : List (List String)
  deriving DecidableEq, Repr

inductive PanelItem where
  | text (s : String)
  | table (t : Table)
  deriving DecidableEq, Repr

structure Panel where
  title : String
  subtitle : Option String
  items : List PanelItem
  deriving DecidableEq, Repr

inductive Event where
  | notice (n : Notice)
  | panel (p : Panel)
  deriving DecidableEq, Repr

/-- A result together with everything told on the way to it. -/
structure Logged (ε α : Type) where
  events : List Event
  result : Except ε α

namespace Logged

variable {ε α β : Type}

protected def pure (a : α) : Logged ε α := ⟨[], .ok a⟩

protected def bind (step : Logged ε α) (next : α → Logged ε β) : Logged ε β :=
  match step.result with
  | .ok a => ⟨step.events ++ (next a).events, (next a).result⟩
  | .error e => ⟨step.events, .error e⟩

instance : Monad (Logged ε) where
  pure := Logged.pure
  bind := Logged.bind

def tell (events : List Event) : Logged ε Unit := ⟨events, .ok ()⟩

def fail (e : ε) : Logged ε α := ⟨[], .error e⟩

def ofExcept (result : Except ε α) : Logged ε α := ⟨[], result⟩

def mapError {δ : Type} (f : ε → δ) (step : Logged ε α) : Logged δ α :=
  ⟨step.events, step.result.mapError f⟩

end Logged

def notices (events : List Event) : List Notice :=
  events.filterMap fun
    | .notice n => some n
    | .panel _ => none

def entries (events : List Event) : List (Level × String) :=
  (notices events).map fun n => (n.level, n.message)

def panels (events : List Event) : List Panel :=
  events.filterMap fun
    | .notice _ => none
    | .panel p => some p

end Microcode
