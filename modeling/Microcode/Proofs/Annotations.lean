import Microcode.Layout.Reader
import Microcode.Proofs.Comments
import Microcode.Proofs.FrontEnds

/-!
Comments and blank lines in layout and stream files. A reader looks at nothing but the written lines
of a text and their numbers, and what it makes of a line does not depend on the number. So a text
with comments added is read as the text without them, as long as `T` lets the numbers of one and the
same line stand for each other.
-/
namespace Microcode

variable {α β : Type} {T : Option Value → Option Value → Prop}

/-- A text to which comments were added, behind its lines and on lines of their own, and blank
lines. -/
inductive Annotated : List String → List String → Prop where
  | nil : Annotated [] []
  | keep {old new : List String} (raw : String) (rest : Annotated old new) :
      Annotated (raw :: old) (raw :: new)
  /-- The comment takes the place of the line end, which may be part of it. -/
  | comment {old new : List String} (line note : String) {ending : String}
      (blank : Text.Blank ending.toList) (rest : Annotated old new) :
      Annotated ((line ++ ending) :: old) ((line ++ " //" ++ note) :: new)
  | insert {old new : List String} {raw : String} (idle : Text.Idle raw.toList)
      (rest : Annotated old new) : Annotated old (raw :: new)

/-- Source lines that stand for each other when one text is read in place of another: the lines at
the same place among the written ones. The lines in `held` are of neither text and stay. -/
inductive Replaces (held : List (Option Value)) (old new : List String) :
    Option Value → Option Value → Prop where
  | held {source : Option Value} (older : source ∈ held) : Replaces held old new source source
  | moved {k i j : Nat} {line : String} (before : (written 1 old)[k]? = some (i, line))
      (after : (written 1 new)[k]? = some (j, line)) :
      Replaces held old new (some (i : Value)) (some (j : Value))

structure Logged.Renumbers (T : Option Value → Option Value → Prop) (one two : Logged Error α) :
    Prop where
  result : Same T one.result two.result
  events : one.events = two.events

structure Builder.Renumbers (T : Option Value → Option Value → Prop) (b c : Builder) : Prop where
  layout : b.layout = c.layout
  symbols : b.symbols = c.symbols
  debug : b.debug = c.debug
  resolved : b.resolved = c.resolved
  labels : b.labels = c.labels
  lines : List.Forall₂ (Line.Matches T) b.lines c.lines
  current : b.current.Matches T c.current
  sourceLine : T b.sourceLine c.sourceLine

/-- The same result, builder and notices, up to source lines. -/
structure Outcome.Renumbers (T : Option Value → Option Value → Prop) (one two : Outcome α) : Prop
    where
  result : Same T one.result two.result
  builder : one.builder.Renumbers T two.builder
  events : one.events = two.events

def Builder.sources (b : Builder) : List (Option Value) :=
  none :: b.sourceLine :: b.current.source :: b.lines.map Line.source

theorem Same.unsourced {r r' : Except Error α} (same : Same T r r')
    (fits : ∀ s s', T s s' → sourceFits s = sourceFits s') :
    r.mapError Error.unsourced = r'.mapError Error.unsourced := by
  cases same with
  | ok a => rfl
  | error alike => exact congrArg Except.error (alike.unsourced_of_fits fits)

/-! Written lines. -/

theorem written_cons {old new : List String} {raw raw' : String} {n m : Nat}
    (same : Text.stripComment raw = Text.stripComment raw')
    (rest : (written (n + 1) old).map Prod.snd = (written (m + 1) new).map Prod.snd) :
    (written n (raw :: old)).map Prod.snd = (written m (raw' :: new)).map Prod.snd := by
  rw [written, written, same]
  split
  · exact rest
  · rw [List.map_cons, List.map_cons, rest]

/-- Comments change only the numbers of written lines. -/
theorem Annotated.texts {old new : List String} (annotated : Annotated old new) (n m : Nat) :
    (written n old).map Prod.snd = (written m new).map Prod.snd := by
  induction annotated generalizing n m with
  | nil => rfl
  | keep raw _ ih => exact written_cons rfl (ih _ _)
  | comment line note blank _ ih =>
    apply written_cons _ (ih _ _)
    rw [Text.stripComment_ending blank, Text.stripComment_note]
  | insert idle _ ih =>
    rw [written, if_pos (Text.stripComment_idle idle)]
    exact ih _ _

theorem Annotated.sameLines {old new : List String} (annotated : Annotated old new)
    (held : List (Option Value)) :
    List.Forall₂ (SameLine (Replaces held old new)) (written 1 old) (written 1 new) := by
  have texts := annotated.texts 1 1
  apply List.forall₂_iff_get.mpr
  refine ⟨by simpa using congrArg List.length texts, ?_⟩
  intro k inside inside'
  have same : ((written 1 old)[k]).2 = ((written 1 new)[k]).2 := by
    have at_k := congrArg (·[k]?) texts
    simpa [inside, inside'] using at_k
  refine ⟨same, .moved (List.getElem?_eq_getElem inside) ?_⟩
  rw [List.getElem?_eq_getElem inside']
  exact congrArg some (Prod.ext rfl same.symm)

theorem Annotated.length_le {old new : List String} (annotated : Annotated old new) :
    old.length ≤ new.length := by
  induction annotated with
  | nil => exact Nat.le_refl _
  | keep raw _ ih => exact Nat.succ_le_succ ih
  | comment line note blank _ ih => exact Nat.succ_le_succ ih
  | insert idle _ ih => exact Nat.le_succ_of_le ih

theorem written_lt {number : Nat} {lines : List String} {p : Nat × String}
    (member : p ∈ written number lines) : p.1 < number + lines.length := by
  induction lines generalizing number with
  | nil => cases member
  | cons raw rest ih =>
    have later : p ∈ written (number + 1) rest → p.1 < number + (rest.length + 1) := by
      intro inside
      have bound := ih inside
      omega
    rw [written] at member
    split at member
    · exact later member
    · rcases List.mem_cons.mp member with rfl | inside
      · simp
      · exact later inside

theorem Replaces.fits {held : List (Option Value)} {old new : List String} {s s' : Option Value}
    (short : old.length < 10 ^ Numeral.maxDigits) (short' : new.length < 10 ^ Numeral.maxDigits)
    (replaces : Replaces held old new s s') : sourceFits s = sourceFits s' := by
  cases replaces with
  | held older => rfl
  | @moved k i j line before after =>
    have fits := lineNumber_fits old short i (written_lt (List.mem_of_getElem? before))
    have fits' := lineNumber_fits new short' j (written_lt (List.mem_of_getElem? after))
    simp [sourceFits, Value.numbers, fits, fits']

/-! Layout files. -/

namespace Logged.Renumbers

theorem refl (step : Logged Error α) : step.Renumbers T step := ⟨Same.refl _, rfl⟩

theorem fail {e e' : Error} (alike : e.Matches T e') :
    (Logged.fail e : Logged Error α).Renumbers T (Logged.fail e') := ⟨.error alike, rfl⟩

theorem ofExcept {r r' : Except Error α} (same : Same T r r') :
    (Logged.ofExcept r).Renumbers T (Logged.ofExcept r') := ⟨same, rfl⟩

theorem bind {one two : Logged Error α} {next next' : α → Logged Error β}
    (first : one.Renumbers T two) (later : ∀ a, (next a).Renumbers T (next' a)) :
    (one >>= next).Renumbers T (two >>= next') := by
  obtain ⟨events, result⟩ := one
  obtain ⟨events', result'⟩ := two
  obtain ⟨same, told⟩ := first
  cases told
  cases same with
  | ok a => exact ⟨(later a).result, congrArg (events ++ ·) (later a).events⟩
  | error alike => exact ⟨.error alike, rfl⟩

end Logged.Renumbers

theorem SymbolTable.define_renumbers {s s' : Option Value} (moved : T s s') (table : SymbolTable)
    (name : String) (value : Option Value) :
    (table.define name value s).Renumbers T (table.define name value s') := by
  unfold define
  split
  · exact .refl _
  · exact .refl _
  · split
    · exact .refl _
    · exact .fail (.report _ _ moved)

namespace LayoutDraft

variable {i j : Nat}

theorem number_renumbers (moved : T (some (i : Value)) (some (j : Value))) (line text : String) :
    (Logged.ofExcept (number i line text)).Renumbers T (Logged.ofExcept (number j line text)) :=
  .ofExcept (badNumeral_matches (.report _ _ moved) _)

theorem refuse_renumbers (moved : T (some (i : Value)) (some (j : Value))) (cause : Cause) :
    (refuse i cause).Renumbers T (refuse j cause) :=
  .fail (.report cause none moved)

/-- The number of a line is used in the errors about it alone. -/
theorem declare_renumbers (moved : T (some (i : Value)) (some (j : Value))) (draft : LayoutDraft)
    (line : String) (words : List String) :
    (draft.declare i line words).Renumbers T (draft.declare j line words) := by
  unfold declare
  split
  · split
    · split
      · exact refuse_renumbers moved _
      · apply (number_renumbers moved line _).bind
        intro low
        exact (number_renumbers moved line _).bind fun high => .refl _
    · exact refuse_renumbers moved _
  · split
    · apply (number_renumbers moved line _).bind
      intro value
      exact (draft.symbols.define_renumbers moved _ _).bind fun symbols => .refl _
    · exact refuse_renumbers moved _
  · split
    · exact (number_renumbers moved line _).bind fun width => .refl _
    · exact refuse_renumbers moved _
  · exact refuse_renumbers moved _
  · exact .refl _

def declareAll (draft : LayoutDraft) : List (Nat × String) → Logged Error LayoutDraft
  | [] => return draft
  | (number, line) :: rest => do
    let next ← draft.declare number line (Text.wordsOf line)
    next.declareAll rest

theorem readFrom_written (draft : LayoutDraft) (number : Nat) (lines : List String) :
    draft.readFrom number lines = draft.declareAll (written number lines) := by
  induction lines generalizing draft number with
  | nil => rfl
  | cons raw rest ih =>
    simp only [readFrom, written, ih]
    split
    · rename_i blank
      rw [blank]
      rfl
    · rfl

theorem declareAll_renumbers {lines lines' : List (Nat × String)}
    (same : List.Forall₂ (SameLine T) lines lines') (draft : LayoutDraft) :
    (draft.declareAll lines).Renumbers T (draft.declareAll lines') := by
  induction same generalizing draft with
  | nil => exact .refl _
  | @cons p q _ _ here _ ih =>
    obtain ⟨i, line⟩ := p
    obtain ⟨j, line'⟩ := q
    obtain ⟨rfl, moved⟩ := here
    exact (declare_renumbers moved draft line _).bind ih

end LayoutDraft

theorem readLayout_renumbers [Machine] {old new : List String}
    (same : List.Forall₂ (SameLine T) (written 1 old) (written 1 new)) (verbose : Bool) :
    (readLayout old verbose).Renumbers T (readLayout new verbose) := by
  unfold readLayout
  rw [LayoutDraft.readFrom_written, LayoutDraft.readFrom_written]
  exact (LayoutDraft.declareAll_renumbers same _).bind fun draft => .refl _

/-! Stream files. -/

namespace Builder.Renumbers

variable {b c : Builder}

theorem behind (alike : b.Renumbers T c) : b.Behind T c :=
  { alike with lines := alike.lines.imp fun _ _ line => line.behind }

theorem withToken (alike : b.Renumbers T c) (stem : String) (token : Token) :
    (b.withToken stem token).Renumbers T (c.withToken stem token) :=
  { alike with current := (alike.behind.withToken stem token).current }

theorem committed (alike : b.Renumbers T c) (nowhere : T none none) :
    b.committed.Renumbers T c.committed := by
  unfold Builder.committed
  rw [alike.current.tokens, alike.lines.length_eq]
  split
  · exact alike
  · exact { alike with
      lines := List.rel_append alike.lines (.cons alike.current .nil)
      current := ⟨rfl, rfl, rfl, nowhere⟩ }

theorem self (b : Builder) (old new : List String) :
    b.Renumbers (Replaces b.sources old new) b where
  layout := rfl
  symbols := rfl
  debug := rfl
  resolved := rfl
  labels := rfl
  lines := by
    apply List.forall₂_same.mpr
    intro line member
    have known : line.source ∈ b.lines.map Line.source := List.mem_map_of_mem member
    exact ⟨rfl, rfl, rfl, .held (by simp [sources, known])⟩
  current := ⟨rfl, rfl, rfl, .held (by simp [sources])⟩
  sourceLine := .held (by simp [sources])

end Builder.Renumbers

namespace Outcome.Renumbers

theorem andThen {one two : Outcome α} {next next' : α → Builder → Outcome β}
    (first : one.Renumbers T two)
    (later : ∀ a, (next a one.builder).Renumbers T (next' a two.builder)) :
    (one.andThen next).Renumbers T (two.andThen next') := by
  obtain ⟨result, builder, events⟩ := one
  obtain ⟨result', builder', events'⟩ := two
  obtain ⟨same, alike, told⟩ := first
  cases told
  cases same with
  | ok a =>
    exact ⟨(later a).result, (later a).builder, congrArg (events ++ ·) (later a).events⟩
  | error why => exact ⟨.error why, alike, rfl⟩

/-- Builders that take the same calls stay the same up to source lines. -/
theorem parallel (nowhere : T none none) :
    Parallel T (Builder.Renumbers T) fun _ one two => one.Renumbers T two where
  concurs alike := alike.behind.concurs
  told alike source same _ := ⟨same, { alike with sourceLine := source }, rfl⟩
  andThen first later := first.andThen fun a => later a _ _ first.builder
  declared {b c label} alike _ := by
    rw [alike.lines.length_eq, alike.debug]
    have labels := congrArg (Assoc.put label (Value.int c.lines.length)) alike.labels
    exact ⟨.ok (), { alike with debug := rfl, labels := labels }, rfl⟩
  stored {b c stem} alike _ token := by
    have after := alike.withToken stem token
    unfold Builder.store
    rw [alike.lines.length_eq, alike.debug]
    split
    · split
      · exact ⟨.ok (), after, rfl⟩
      · exact ⟨.error (.same _), after, rfl⟩
    · exact ⟨.ok (), after, rfl⟩
  branched alike _ := ⟨.ok (), { alike with current := { alike.current with branch := rfl } }, rfl⟩
  committed alike := ⟨.ok (), alike.committed nowhere, rfl⟩
  defined alike _ _ := ⟨.ok (), { alike with symbols := rfl }, rfl⟩

end Outcome.Renumbers

/-- What is left of a line is the part before its first pair of slashes, without the blanks around
it. A comment at the end of a line, a line with nothing but a comment and a blank line change
nothing in what is read from a layout or a stream file but the numbers of source lines: the layout
and the symbols, the builder, the notices and the causes of errors stay. Up to `10 ^ maxDigits`
lines, where each number can be printed, errors are the same but for the source line they tell. -/
theorem comments_change_only_line_numbers [Machine] :
    (∀ s t : String, Text.stripComment s = t ↔
      ∃ part, Text.Uncommented s.toList part ∧ Text.Trimmed part t.toList) ∧
    (∀ s : String, ¬ Text.slashes <:+: (Text.stripComment s).toList) ∧
    (∀ s : String, Text.stripComment (Text.stripComment s) = Text.stripComment s) ∧
    (∀ s note : String, Text.stripComment (s ++ " //" ++ note) = Text.stripComment s) ∧
    ∀ old new : List String, Annotated old new → ∀ (b : Builder) (verbose : Bool),
      (readLayout old verbose).Renumbers (Replaces [] old new) (readLayout new verbose) ∧
      (b.readStream old verbose).Renumbers (Replaces b.sources old new)
        (b.readStream new verbose) ∧
      (new.length < 10 ^ Numeral.maxDigits →
        (readLayout old verbose).result.mapError Error.unsourced =
          (readLayout new verbose).result.mapError Error.unsourced ∧
        (b.readStream old verbose).result.mapError Error.unsourced =
          (b.readStream new verbose).result.mapError Error.unsourced) := by
  refine ⟨fun s t => Text.stripComment_eq_iff, Text.stripComment_plain,
    Text.stripComment_idempotent, Text.stripComment_note, ?_⟩
  intro old new annotated b verbose
  have layout := readLayout_renumbers (annotated.sameLines []) verbose
  have nowhere : Replaces b.sources old new none none := .held List.mem_cons_self
  have stream := (Outcome.Renumbers.parallel nowhere).readStream nowhere
    (annotated.sameLines b.sources) (.self b old new) verbose
  refine ⟨layout, stream, fun short => ?_⟩
  have short' := Nat.lt_of_le_of_lt annotated.length_le short
  exact ⟨layout.result.unsourced fun _ _ => Replaces.fits short' short,
    stream.result.unsourced fun _ _ => Replaces.fits short' short⟩

/-- The first line is no declaration, and the second assigns one field twice. Behind a blank line
and a comment on a line of its own they are the second and the fourth line, and are refused as
such. -/
theorem comments_change_only_line_numbers_refused :
    let old := ["OP_=1" ++ "\n", "OP_=2 OP_=3"]
    let new := ["\t\n", "OP_=1" ++ " //" ++ " one/\n", "  /// two\n", "OP_=2 OP_=3"]
    let b := Builder.fresh (some Layout.small) [] false
    let noDirective (line : Int) : Error :=
      .fault ⟨.unknownDirective "OP_=1", none, some (.int line)⟩
    let twice (line : Int) : Error :=
      .fault ⟨.fieldTwice "OP_" (.literal (.int 2)) (.literal (.int 3)), some (.int 1),
        some (.int line)⟩
    Annotated old new ∧ new.length < 10 ^ Numeral.maxDigits ∧
    (readLayout old true).result = .error (noDirective 1) ∧
    (readLayout new true).result = .error (noDirective 2) ∧
    (noDirective 1).unsourced = (noDirective 2).unsourced ∧
    (b.readStream old true).result = .error (twice 2) ∧
    (b.readStream new true).result = .error (twice 4) ∧
    (twice 2).unsourced = (twice 4).unsourced ∧
    (b.readStream old true).Renumbers (Replaces b.sources old new) (b.readStream new true) := by
  intro old new b noDirective twice
  have comment : "  /// two\n".toList = [' ', ' '] ++ (Text.slashes ++ "/ two\n".toList) := by
    decide
  have annotated : Annotated old new := by
    apply Annotated.insert (.blank (by decide))
    apply Annotated.comment "OP_=1" " one/\n" (by decide)
    apply Annotated.insert (comment ▸ .comment (by decide) _)
    exact .keep _ .nil
  have short : new.length < 10 ^ Numeral.maxDigits :=
    Nat.lt_of_le_of_lt (show new.length ≤ 4 by decide) (by decide +kernel)
  have unlaid : (readLayout old true).result = .error (noDirective 1) := by decide +kernel
  have unlaid' : (readLayout new true).result = .error (noDirective 2) := by decide +kernel
  have unread : (b.readStream old true).result = .error (twice 2) := by decide +kernel
  have unread' : (b.readStream new true).result = .error (twice 4) := by decide +kernel
  obtain ⟨_, stream, told⟩ := comments_change_only_line_numbers.2.2.2.2 old new annotated b true
  obtain ⟨layouts, streams⟩ := told short
  rw [unlaid, unlaid'] at layouts
  rw [unread, unread'] at streams
  exact ⟨annotated, short, unlaid, unlaid', Except.error.inj layouts, unread, unread',
    Except.error.inj streams, stream⟩

end Microcode
