import Microcode.Proofs.Declarations
import Microcode.Proofs.StreamGrammar

/-!
Where errors say they were met. The reader of a layout file and the builder that a stream file is
read into name the line of text in every fault of their own. The reader of numerals knows of no
lines, and its faults about numerals without digits pass through as they are.
-/
namespace Microcode

namespace Numeral

def bare (s : List Char) : List Char :=
  match compact s with
  | '-' :: rest => rest
  | rest => rest

/-- A numeral that has no digits: there is nothing in it, or only the mark of a base. -/
inductive Digitless : List Char → Cause → Prop where
  | empty : Digitless [] .emptyNumber
  | binary {mark : Char} (marked : mark = 'b' ∨ mark = 'B') :
      Digitless ['0', mark] .noBinaryDigits
  | hex {mark : Char} (marked : mark = 'x' ∨ mark = 'X') : Digitless ['0', mark] .noHexDigits

theorem ofDigits_error {base : Nat} {s : List Char} {e : Error}
    (failed : ofDigits base s = .error e) : e.isBadNumeral = true := by
  unfold ofDigits at failed
  dsimp only at failed
  split at failed
  · cases failed
    rfl
  · split at failed
    · cases failed
      rfl
    · cases failed

theorem unsigned_error {s : List Char} {e : Error} (failed : unsigned s = .error e) :
    e.isBadNumeral = true ∨ ∃ cause, Digitless s cause ∧ e = .fault ⟨cause, none, none⟩ := by
  unfold unsigned at failed
  split at failed
  · cases failed
    exact .inr ⟨_, .empty, rfl⟩
  · rename_i mark rest
    split at failed
    · rename_i binary
      cases rest with
      | nil =>
        cases failed
        exact .inr ⟨_, .binary (by simpa using binary), rfl⟩
      | cons _ _ =>
        rw [List.isEmpty_cons, if_neg Bool.false_ne_true] at failed
        exact .inl (ofDigits_error failed)
    · split at failed
      · rename_i hex
        cases rest with
        | nil =>
          cases failed
          exact .inr ⟨_, .hex (by simpa using hex), rfl⟩
        | cons _ _ =>
          rw [List.isEmpty_cons, if_neg Bool.false_ne_true] at failed
          exact .inl (ofDigits_error failed)
      · exact .inl (ofDigits_error failed)
  · exact .inl (ofDigits_error failed)

theorem bare_plain {s : List Char} (plain : ∀ rest, compact s ≠ '-' :: rest) :
    bare s = compact s := by
  unfold bare
  split
  · rename_i rest signed
    exact absurd signed (plain rest)
  · rfl

theorem readChars_eq (s : List Char) :
    readChars s = unsigned (bare s) ∨ readChars s = (unsigned (bare s)).map fun n => -n := by
  unfold readChars
  split
  · rename_i rest signed
    have behind : bare s = rest := by simp only [bare, signed]
    rw [behind]
    exact .inr rfl
  · rename_i plain
    rw [bare_plain plain]
    exact .inl rfl

theorem read_error {text : String} {e : Error} (failed : read text = .error e) :
    e.isBadNumeral = true ∨
      ∃ cause, Digitless (bare text.toList) cause ∧ e = .fault ⟨cause, none, none⟩ := by
  apply unsigned_error
  rcases readChars_eq text.toList with same | same
  · exact same.symm.trans failed
  · have mapped := same.symm.trans failed
    cases number : unsigned (bare text.toList) with
    | error e' =>
      rw [number] at mapped
      exact mapped
    | ok n =>
      rw [number] at mapped
      cases mapped

end Numeral

/-- A fault that tells where it was met, or one about a numeral without digits, which does not. -/
inductive Fault.Placed (numerals : List String) (index : Option Value) (line : Nat) (f : Fault) :
    Prop where
  | told (index_told : f.lineIndex = index) (line_told : f.sourceLine = some (line : Value))
  | untold {text : String} {cause : Cause} (among : text ∈ numerals)
      (bare : Numeral.Digitless (Numeral.bare text.toList) cause)
      (nowhere : f = ⟨cause, none, none⟩)

/-! Layout files. -/

def Declaration.numerals : List String → List String
  | ["#field", _, low, high] => [low, high]
  | ["#value", _, text] => [text]
  | ["#width", text] => [text]
  | _ => []

namespace LayoutDraft

/-- The errors of a line of a layout file. No number is shown in decimal by any of them. -/
inductive Refuses (lineNumber : Nat) (words : List String) : Error → Prop where
  | placed {cause : Cause} (silent : cause.numbers = []) (kind : cause.kind = .parse) :
      Refuses lineNumber words (Fault.report ⟨cause, none, some lineNumber⟩)
  | digitless {text : String} {cause : Cause} (among : text ∈ Declaration.numerals words)
      (bare : Numeral.Digitless (Numeral.bare text.toList) cause) :
      Refuses lineNumber words (.fault ⟨cause, none, none⟩)

theorem number_refuses {lineNumber : Nat} {line text : String} {words : List String} {e : Error}
    (failed : number lineNumber line text = .error e)
    (among : text ∈ Declaration.numerals words) : Refuses lineNumber words e := by
  unfold number at failed
  cases read : Numeral.read text with
  | ok n =>
    rw [read] at failed
    cases failed
  | error e' =>
    rw [read, error_mapError] at failed
    rw [← Except.error.inj failed]
    rcases Numeral.read_error read with bad | ⟨cause, bare, rfl⟩
    · rw [if_pos bad]
      exact .placed rfl rfl
    · exact .digitless among bare

theorem define_error {table : SymbolTable} {name : String} {n : Int} {line : Option Value}
    {e : Error} (failed : (table.define name (some (.int n)) line).result = .error e) :
    ∃ old new, e = Fault.report ⟨.valueRedefined name old new, none, line⟩ := by
  unfold SymbolTable.define at failed
  split at failed
  · cases failed
  · rename_i impossible
    cases impossible
  · rename_i old new _ _
    split at failed
    · cases failed
    · exact ⟨old, new, (Except.error.inj failed).symm⟩

theorem declare_refuses {draft : LayoutDraft} {lineNumber : Nat} {line : String}
    {words : List String} {e : Error}
    (failed : (draft.declare lineNumber line words).result = .error e) :
    Refuses lineNumber words e := by
  have refused : ∀ {cause : Cause}, (refuse lineNumber cause).result = .error e →
      cause.numbers = [] → cause.kind = .parse → Refuses lineNumber words e := by
    intro cause same silent kind
    rw [refuse, Logged.fail_result] at same
    rw [← Except.error.inj same]
    exact .placed silent kind
  unfold declare at failed
  split at failed
  · split at failed
    · rename_i stem low high
      split at failed
      · exact refused failed rfl rfl
      · rcases Logged.bind_error_iff.mp failed with first | ⟨_, _, failed⟩
        · exact number_refuses first (by simp [Declaration.numerals])
        · rcases Logged.bind_error_iff.mp failed with second | ⟨_, _, impossible⟩
          · exact number_refuses second (by simp [Declaration.numerals])
          · cases impossible
    · exact refused failed rfl rfl
  · split at failed
    · rename_i name value
      rcases Logged.bind_error_iff.mp failed with first | ⟨n, _, failed⟩
      · exact number_refuses first (by simp [Declaration.numerals])
      · rcases Logged.bind_error_iff.mp failed with second | ⟨_, _, impossible⟩
        · obtain ⟨old, new, conflict⟩ := define_error second
          rw [conflict]
          exact .placed rfl rfl
        · cases impossible
    · exact refused failed rfl rfl
  · split at failed
    · rename_i width
      rcases Logged.bind_error_iff.mp failed with first | ⟨_, _, impossible⟩
      · exact number_refuses first (by simp [Declaration.numerals])
      · cases impossible
    · exact refused failed rfl rfl
  · exact refused failed rfl rfl
  · cases failed

/-- A file that is not read fails at some line, after the ones before it were read. -/
theorem readFrom_error {draft : LayoutDraft} {lineNumber : Nat} {lines : List String} {e : Error}
    (failed : (draft.readFrom lineNumber lines).result = .error e) :
    ∃ before raw after next, lines = before ++ raw :: after ∧
      (draft.readFrom lineNumber before).result = .ok next ∧
      (next.declare (lineNumber + before.length) (Text.stripComment raw)
        (Text.wordsOf (Text.stripComment raw))).result = .error e := by
  induction lines generalizing draft lineNumber with
  | nil => cases failed
  | cons raw rest ih =>
    rw [readFrom] at failed
    rcases Logged.bind_error_iff.mp failed with here | ⟨next, here, later⟩
    · exact ⟨[], raw, rest, draft, rfl, rfl, here⟩
    · obtain ⟨before, raw', after, last, rfl, read, there⟩ := ih later
      refine ⟨raw :: before, raw', after, last, rfl, ?_, ?_⟩
      · exact Logged.bind_ok_iff.mpr ⟨next, here, read⟩
      · rwa [List.length_cons, Nat.add_comm before.length 1, ← Nat.add_assoc]

end LayoutDraft

/-! Stream files. -/

def Phrase.numeral? : Phrase → Option String
  | .immediate _ text => some text
  | _ => none

inductive Phrase.Defect (layout : Layout) : Phrase → Cause → Prop where
  | emptyLabel : Defect layout (.label "") .emptyLabel
  | labelNotAscii {label : String} (foreign : Text.isAscii label = false) :
      Defect layout (.label label) (.labelNotAscii label)
  | emptyTarget : Defect layout (.branch "") .emptyTarget
  | targetNotAscii {target : String} (foreign : Text.isAscii target = false) :
      Defect layout (.branch target) (.targetNotAscii target)
  | noBranchField {target : String} (absent : layout.field? branchStem = none) :
      Defect layout (.branch target) (.noBranchField target)
  | unknownName {name : String} (absent : layout.owner? name = none) :
      Defect layout (.symbol name) (.unknownName name)
  | unknownStem {stem text : String} (absent : layout.field? stem = none) :
      Defect layout (.immediate stem text) (.unknownStem stem)
  | invalidImmediate {word stem text : String} (unreadable : ∀ n, Numeral.read text ≠ .ok n) :
      Defect layout (.immediate stem text) (.invalidImmediate word stem)

theorem Phrase.Defect.silent {layout : Layout} {p : Phrase} {cause : Cause}
    (defect : p.Defect layout cause) : cause.numbers = [] := by
  cases defect <;> rfl

namespace Builder

inductive Refuses (layout : Layout) (phrases : List Phrase) (b : Builder) : Error → Prop where
  | closed {cause : Cause} (late : b.resolved = true) : Refuses layout phrases b (b.faultHere cause)
  | defect {p : Phrase} {cause : Cause} (among : p ∈ phrases) (why : p.Defect layout cause) :
      Refuses layout phrases b (b.faultHere cause)
  | labelTwice {label : String} {first : Value} (among : .label label ∈ phrases)
      (declared : b.labels.lookup label = some first) :
      Refuses layout phrases b (b.faultHere (.labelTwice label first))
  | fieldTwice {p : Phrase} {stem : String} {held now : Token} (among : p ∈ phrases)
      (assigns : p.Assigns layout (stem, now)) (there : b.current.tokens.lookup stem = some held) :
      Refuses layout phrases b (b.faultHere (.fieldTwice stem held now))
  | digitless {stem text : String} {cause : Cause} (among : .immediate stem text ∈ phrases)
      (bare : Numeral.Digitless (Numeral.bare text.toList) cause) :
      Refuses layout phrases b (.fault ⟨cause, none, none⟩)
  | untellable (on : b.debug = true) : Refuses layout phrases b .tooLongToPrint

variable {layout : Layout} {phrases : List Phrase} {b : Builder} {e : Error}

theorem Refuses.of_error {α : Type} {e' : Error} (failed : (.error e' : Except Error α) = .error e)
    (refused : b.Refuses layout phrases e') : b.Refuses layout phrases e := by
  rw [← Except.error.inj failed]
  exact refused

theorem checkDeclaration_refuses {label : String} (given : b.layout = some layout)
    (among : .label label ∈ phrases) (failed : b.checkDeclaration label = .error e) :
    b.Refuses layout phrases e := by
  unfold checkDeclaration at failed
  rw [needLayout_some given, ok_bind] at failed
  simp only [throw_eq_error, error_bind] at failed
  split at failed
  · rename_i late
    exact .of_error failed (.closed late)
  · split at failed
    · rename_i nameless
      exact .of_error failed (.defect (nameless ▸ among) .emptyLabel)
    · split at failed
      · rename_i foreign
        exact .of_error failed (.defect among (.labelNotAscii (by simpa using foreign)))
      · split at failed
        · rename_i first declared
          exact .of_error failed (.labelTwice among declared)
        · cases failed

theorem checkStore_refuses {p : Phrase} {stem : String} {token : Token} (among : p ∈ phrases)
    (assigns : p.Assigns layout (stem, token)) (failed : b.checkStore stem token = .error e) :
    b.Refuses layout phrases e := by
  unfold checkStore at failed
  simp only [throw_eq_error, error_bind] at failed
  split at failed
  · rename_i late
    exact .of_error failed (.closed late)
  · split at failed
    · rename_i held there
      exact .of_error failed (.fieldTwice among assigns there)
    · cases failed

theorem checkReference_refuses {target : String} (given : b.layout = some layout)
    (among : .branch target ∈ phrases) (failed : b.checkReference target = .error e) :
    b.Refuses layout phrases e := by
  unfold checkReference at failed
  rw [needLayout_some given, ok_bind] at failed
  simp only [throw_eq_error, error_bind] at failed
  split at failed
  · rename_i nameless
    exact .of_error failed (.defect (nameless ▸ among) .emptyTarget)
  · rename_i named
    split at failed
    · rename_i foreign
      exact .of_error failed (.defect among (.targetNotAscii (by simpa using foreign)))
    · rename_i ascii
      split at failed
      · rename_i absent
        exact .of_error failed (.defect among (.noBranchField absent))
      · rename_i field found
        have declared := Layout.field?_isSome_iff.mp (Option.isSome_of_mem found)
        exact checkStore_refuses among (.branch named (by simpa using ascii) declared) failed

theorem checkName_refuses {name : String} (given : b.layout = some layout)
    (among : .symbol name ∈ phrases) (failed : b.checkName name = .error e) :
    b.Refuses layout phrases e := by
  unfold checkName at failed
  rw [needLayout_some given, ok_bind] at failed
  split at failed
  · rename_i absent
    exact .of_error failed (.defect among (.unknownName absent))
  · rename_i field owned
    rcases bind_error_iff.mp failed with checked | ⟨_, _, impossible⟩
    · exact checkStore_refuses among (.symbol (Layout.owner?_longest owned)) checked
    · cases impossible

theorem checkValue_refuses {stem text : String} {n : Int} (given : b.layout = some layout)
    (among : .immediate stem text ∈ phrases) (read : Numeral.read text = .ok n)
    (failed : b.checkValue stem (.value (.int n)) = .error e) : b.Refuses layout phrases e := by
  unfold checkValue at failed
  rw [needLayout_some given, ok_bind] at failed
  split at failed
  · rename_i absent
    exact .of_error failed (.defect among (.unknownStem absent))
  · rename_i field found
    have declared := Layout.field?_isSome_iff.mp (Option.isSome_of_mem found)
    rcases bind_error_iff.mp failed with checked | ⟨_, _, impossible⟩
    · exact checkStore_refuses among (.immediate declared read) checked
    · cases impossible

theorem immediate_refuses {lineNumber : Nat} {word stem text : String}
    (marked : b.sourceLine = some (lineNumber : Value)) (among : .immediate stem text ∈ phrases)
    (failed : b.immediate lineNumber word stem text = .error e) : b.Refuses layout phrases e := by
  unfold immediate at failed
  cases read : Numeral.read text with
  | ok n =>
    rw [read] at failed
    cases failed
  | error e' =>
    rw [read, error_mapError] at failed
    rw [← Except.error.inj failed]
    rcases Numeral.read_error read with bad | ⟨cause, bare, rfl⟩
    · rw [if_pos bad, ← marked]
      exact .defect among (.invalidImmediate (by simp [read]))
    · exact .digitless among bare

theorem checkOpen_refuses (given : b.layout = some layout) (failed : b.checkOpen = .error e) :
    b.Refuses layout phrases e := by
  unfold checkOpen at failed
  rw [needLayout_some given, ok_bind] at failed
  split at failed
  · rename_i late
    exact .of_error failed (.closed late)
  · cases failed

end Builder

structure Builder.Continues (b c : Builder) : Prop where
  layout : c.layout = b.layout
  debug : c.debug = b.debug
  lines : c.lines = b.lines
  sourceLine : c.sourceLine = b.sourceLine
  resolved : c.resolved = b.resolved

theorem Builder.Continues.refl (b : Builder) : b.Continues b := ⟨rfl, rfl, rfl, rfl, rfl⟩

theorem Builder.Continues.trans {b c d : Builder} (first : b.Continues c) (second : c.Continues d) :
    b.Continues d where
  layout := second.layout.trans first.layout
  debug := second.debug.trans first.debug
  lines := second.lines.trans first.lines
  sourceLine := second.sourceLine.trans first.sourceLine
  resolved := second.resolved.trans first.resolved

/-- What reading phrases comes to: no line is committed, every token of the pending line was there
before or is assigned by one of them, and an error is one of those above. -/
structure Outcome.Reads (layout : Layout) (phrases : List Phrase) (b : Builder)
    (outcome : Outcome Unit) : Prop where
  continues : b.Continues outcome.builder
  held : ∀ stem token, outcome.builder.current.tokens.lookup stem = some token →
    b.current.tokens.lookup stem = some token ∨ ∃ p ∈ phrases, p.Assigns layout (stem, token)
  refused : ∀ e, outcome.result = .error e → outcome.builder.Refuses layout phrases e

theorem Outcome.andThen_of_error {α : Type} {first : Outcome α} {e : Error}
    (failed : first.result = .error e) (next : α → Builder → Outcome α) :
    first.andThen next = first := by
  simp only [andThen, failed]
  rw [← failed]

theorem Outcome.Reads.andThen {layout : Layout} {phrases : List Phrase} {b : Builder}
    {first : Outcome Unit} {next : Unit → Builder → Outcome Unit}
    (reads : first.Reads layout phrases b)
    (goes_on : first.result = .ok () →
      (next () first.builder).Reads layout phrases first.builder) :
    (first.andThen next).Reads layout phrases b := by
  cases result : first.result with
  | error e =>
    rw [andThen_of_error result]
    exact reads
  | ok u =>
    have later := goes_on result
    obtain ⟨same, after⟩ := andThen_ok result next
    constructor
    · exact after ▸ reads.continues.trans later.continues
    · intro stem token there
      rw [after] at there
      rcases later.held stem token there with before | assigned
      · exact reads.held stem token before
      · exact .inr assigned
    · intro e failed
      rw [after]
      exact later.refused e (same.symm.trans failed)

namespace Builder

variable {layout : Layout} {phrases : List Phrase} {b : Builder}

theorem done_reads {result : Except Error Unit}
    (refused : ∀ e, result = .error e → b.Refuses layout phrases e) :
    (b.done result).Reads layout phrases b :=
  ⟨.refl b, fun _ _ there => .inl there, refused⟩

theorem withToken_held {p : Phrase} {stem : String} {token : Token} (among : p ∈ phrases)
    (assigns : p.Assigns layout (stem, token)) {other : String} {token' : Token}
    (there : (b.withToken stem token).current.tokens.lookup other = some token') :
    b.current.tokens.lookup other = some token' ∨
      ∃ p ∈ phrases, p.Assigns layout (other, token') := by
  rw [withToken, Assoc.lookup_put] at there
  split at there
  · rename_i same
    cases there
    exact .inr ⟨p, among, same ▸ assigns⟩
  · exact .inl there

theorem store_reads {p : Phrase} {stem : String} {token : Token} (among : p ∈ phrases)
    (assigns : p.Assigns layout (stem, token)) :
    (b.store stem token).Reads layout phrases b := by
  have left := store_builder b stem token
  constructor
  · rw [left]
    exact ⟨rfl, rfl, rfl, rfl, rfl⟩
  · intro other token' there
    exact withToken_held among assigns (left ▸ there)
  · intro e failed
    rw [left]
    unfold store at failed
    dsimp only at failed
    split at failed
    · rename_i on
      split at failed
      · cases failed
      · rw [← Except.error.inj failed]
        exact .untellable on
    · cases failed

theorem act_reads [Machine] {p : Phrase} {lineNumber : Nat} (given : b.layout = some layout)
    (marked : b.sourceLine = some (lineNumber : Value)) (among : p ∈ phrases) (word : String) :
    (b.act (p.act lineNumber word)).Reads layout phrases b := by
  have refused : ∀ {e}, b.Refuses layout phrases e →
      (b.done (.error e)).Reads layout phrases b := by
    intro e allowed
    apply done_reads
    rintro _ ⟨⟩
    exact allowed
  cases p with
  | label name =>
    simp only [Phrase.act, act, declareLabel]
    split
    · rename_i failed
      exact refused (checkDeclaration_refuses given among failed)
    · exact ⟨⟨rfl, rfl, rfl, rfl, rfl⟩, fun _ _ there => .inl there, by rintro e ⟨⟩⟩
  | immediate stem text =>
    cases read : Numeral.read text with
    | error e =>
      simp only [Phrase.act, read, act]
      apply done_reads
      intro e' failed
      cases number : b.immediate lineNumber word stem text with
      | ok n =>
        rw [number] at failed
        cases failed
      | error e'' =>
        rw [number] at failed
        rw [← Except.error.inj failed]
        exact immediate_refuses marked among number
    | ok n =>
      simp only [Phrase.act, read, act, assignValue]
      split
      · rename_i failed
        exact refused (checkValue_refuses given among read failed)
      · rename_i v allowed
        obtain ⟨found, same, _, _⟩ := (checkValue_ok_iff given).mp allowed
        cases same
        exact store_reads among (.immediate (Layout.field?_isSome_iff.mp found) read)
  | branch target =>
    simp only [Phrase.act, act]
    cases check : b.checkReference target with
    | error e =>
      simp only [referenceLabel, check]
      exact refused (checkReference_refuses given among check)
    | ok u =>
      obtain ⟨named, ascii, found, _, _⟩ := (checkReference_ok_iff given).mp check
      have assigns := Phrase.Assigns.branch named ascii (Layout.field?_isSome_iff.mp found)
      obtain ⟨done, after⟩ := referenceLabel_ok check
      constructor
      · rw [after]
        exact ⟨rfl, rfl, rfl, rfl, rfl⟩
      · intro other token' there
        rw [after] at there
        exact withToken_held among assigns there
      · intro e failed
        cases done.symm.trans failed
  | symbol name =>
    simp only [Phrase.act, act, assign]
    split
    · rename_i failed
      exact refused (checkName_refuses given among failed)
    · rename_i stem allowed
      obtain ⟨⟨f, owned, rfl⟩, _, _⟩ := (checkName_ok_iff given).mp allowed
      exact store_reads among (.symbol (Layout.owner?_longest owned))

theorem readWords_reads {lineNumber : Nat} {words : List String} (given : b.layout = some layout)
    (marked : b.sourceLine = some (lineNumber : Value))
    (among : ∀ word ∈ words, Phrase.ofWord word ∈ phrases) :
    (b.readWords lineNumber words).Reads layout phrases b := by
  induction words generalizing b with
  | nil => exact done_reads (by rintro e ⟨⟩)
  | cons word rest ih =>
    obtain ⟨here, later⟩ := List.forall_mem_cons.mp among
    have step : (b.readWord lineNumber word).Reads layout phrases b := by
      rw [readWord_eq_act given, ofWord_act]
      exact act_reads given marked here word
    apply step.andThen
    intro _
    exact ih (step.continues.layout.trans given) (step.continues.sourceLine.trans marked) later

theorem endLine_reads {e : Error} (given : b.layout = some layout)
    (failed : b.endLine.result = .error e) : b.endLine.Reads layout phrases b := by
  unfold endLine at failed ⊢
  split at failed
  · rename_i closed
    apply done_reads
    rintro _ ⟨⟩
    exact checkOpen_refuses given closed
  · cases failed

/-- A line of text that fails commits nothing. -/
theorem readLine_reads {lineNumber : Nat} {raw : String} {e : Error}
    (given : b.layout = some layout) (failed : (b.readLine lineNumber raw).result = .error e) :
    (b.readLine lineNumber raw).Reads layout (Phrase.ofText raw)
      { b with sourceLine := some (lineNumber : Value) } := by
  unfold readLine at failed ⊢
  dsimp only at failed ⊢
  split at failed
  · cases failed
  · rename_i full
    rw [if_neg full]
    let marked := { b with sourceLine := some (lineNumber : Value) }
    have words : (marked.readWords lineNumber (Text.wordsOf (Text.stripComment raw))).Reads layout
        (Phrase.ofText raw) marked :=
      readWords_reads given rfl fun word there => List.mem_map_of_mem there
    apply words.andThen
    intro succeeded
    have ends := (Outcome.andThen_ok succeeded fun _ after => after.endLine).1.symm.trans failed
    exact endLine_reads (words.continues.layout.trans given) ends

theorem readFrom_error {lineNumber : Nat} {lines : List String} {e : Error}
    (failed : (b.readFrom lineNumber lines).result = .error e) :
    ∃ before raw after, lines = before ++ raw :: after ∧
      (b.readFrom lineNumber before).result = .ok () ∧
      ((b.readFrom lineNumber before).builder.readLine (lineNumber + before.length) raw).result =
        .error e ∧
      (b.readFrom lineNumber lines).builder =
        ((b.readFrom lineNumber before).builder.readLine
          (lineNumber + before.length) raw).builder := by
  induction lines generalizing b lineNumber with
  | nil => cases failed
  | cons raw rest ih =>
    rw [readFrom] at failed ⊢
    cases here : (b.readLine lineNumber raw).result with
    | error e' =>
      obtain ⟨same, left⟩ := Outcome.andThen_error here
        fun _ after => after.readFrom (lineNumber + 1) rest
      exact ⟨[], raw, rest, rfl, rfl, here.trans (same.symm.trans failed), left⟩
    | ok u =>
      obtain ⟨same, left⟩ := Outcome.andThen_ok here
        fun _ after => after.readFrom (lineNumber + 1) rest
      obtain ⟨before, raw', after, rfl, read, there, leaves⟩ := ih (same.symm.trans failed)
      obtain ⟨same', left'⟩ := Outcome.andThen_ok here
        fun _ after => after.readFrom (lineNumber + 1) before
      rw [Nat.add_assoc, Nat.add_comm 1] at there leaves
      refine ⟨raw :: before, raw', after, rfl, same'.trans read, ?_, ?_⟩
      · rw [readFrom, left']
        exact there
      · rw [readFrom, left', left]
        exact leaves

theorem readStream_error {lines : List String} {verbose : Bool} {e : Error}
    (failed : (b.readStream lines verbose).result = .error e) :
    (b.readFrom 1 lines).result = .error e ∧
      (b.readStream lines verbose).builder = (b.readFrom 1 lines).builder := by
  unfold readStream at failed ⊢
  cases read : (b.readFrom 1 lines).result with
  | error e' =>
    obtain ⟨same, left⟩ := Outcome.andThen_error read fun _ after =>
      ⟨.ok after.lines.length, { after with sourceLine := none },
        if verbose then [.notice (.streamRead after.lines.length after.labels.length)] else []⟩
    cases same.symm.trans failed
    exact ⟨rfl, left⟩
  | ok u =>
    rw [(Outcome.andThen_ok read _).1] at failed
    cases failed

theorem Refuses.fault_placed {f : Fault} {lineNumber : Nat}
    (marked : b.sourceLine = some (lineNumber : Value))
    (refused : b.Refuses layout phrases (.fault f)) :
    f.Placed (phrases.filterMap Phrase.numeral?) (some (b.lines.length : Nat)) lineNumber := by
  have told : ∀ {cause : Cause}, Error.fault f = b.faultHere cause →
      f.Placed (phrases.filterMap Phrase.numeral?) (some (b.lines.length : Nat)) lineNumber := by
    intro cause same
    rw [Fault.eq_of_report same.symm]
    exact .told rfl marked
  generalize same : Error.fault f = e at refused
  cases refused with
  | closed _ => exact told same
  | defect _ _ => exact told same
  | labelTwice _ _ => exact told same
  | fieldTwice _ _ _ => exact told same
  | digitless among bare =>
    exact .untold (List.mem_filterMap.mpr ⟨_, among, rfl⟩) bare (Error.fault.inj same)
  | untellable _ => cases same

end Builder

theorem LayoutDraft.Refuses.fault_placed {f : Fault} {lineNumber : Nat} {words : List String}
    (refused : LayoutDraft.Refuses lineNumber words (.fault f)) :
    f.Placed (Declaration.numerals words) none lineNumber := by
  generalize same : Error.fault f = e at refused
  cases refused with
  | placed _ _ =>
    rw [Fault.eq_of_report same.symm]
    exact .told rfl rfl
  | digitless among bare => exact .untold among bare (Error.fault.inj same)

/-- A fault that a line of text leads to is told with the number of that line, and in a stream file
with the number of lines committed before it, unless it is about a numeral without digits. -/
theorem faults_tell_their_line [Machine] (lines : List String) (verbose : Bool) :
    (∀ f, (LayoutDraft.empty.readFrom 1 lines).result = .error (.fault f) →
      (readLayout lines verbose).result = .error (.fault f) ∧
      ∃ before raw after draft, lines = before ++ raw :: after ∧
        (LayoutDraft.empty.readFrom 1 before).result = .ok draft ∧
        (draft.declare (1 + before.length) (Text.stripComment raw)
          (Text.wordsOf (Text.stripComment raw))).result = .error (.fault f) ∧
        f.Placed (Declaration.numerals (Text.wordsOf (Text.stripComment raw))) none
          (1 + before.length)) ∧
    ∀ (b : Builder) (layout : Layout) (f : Fault), b.layout = some layout →
      (b.readStream lines verbose).result = .error (.fault f) →
      ∃ before raw after, lines = before ++ raw :: after ∧
        (b.readFrom 1 before).result = .ok () ∧
        ((b.readFrom 1 before).builder.readLine (1 + before.length) raw).result =
          .error (.fault f) ∧
        (b.readStream lines verbose).builder.lines = (b.readFrom 1 before).builder.lines ∧
        f.Placed ((Phrase.ofText raw).filterMap Phrase.numeral?)
          (some ((b.readFrom 1 before).builder.lines.length : Nat)) (1 + before.length) := by
  constructor
  · intro f failed
    obtain ⟨before, raw, after, draft, split, read, here⟩ := LayoutDraft.readFrom_error failed
    exact ⟨Logged.bind_error_iff.mpr (.inl failed), before, raw, after, draft, split, read, here,
      (LayoutDraft.declare_refuses here).fault_placed⟩
  · intro b layout f given failed
    obtain ⟨stopped, left⟩ := Builder.readStream_error failed
    obtain ⟨before, raw, after, split, read, here, leaves⟩ := Builder.readFrom_error stopped
    have given' : (b.readFrom 1 before).builder.layout = some layout := by
      rw [Builder.readFrom_eq_acts given]
      exact Builder.acts_layout given _
    have reads := Builder.readLine_reads given' here
    have placed := (reads.refused _ here).fault_placed reads.continues.sourceLine
    rw [reads.continues.lines] at placed
    refine ⟨before, raw, after, split, read, here, ?_, placed⟩
    rw [left, leaves, reads.continues.lines]

/-- The second line is no declaration, and the third assigns one field twice. -/
theorem faults_tell_their_line_met :
    (readLayout ["", "OP_ADD", "OP_ADD OP_=1"] true).result =
      .error (.fault ⟨.unknownDirective "OP_ADD", none, some (.int 2)⟩) ∧
    ∃ before raw after, ["", "OP_ADD", "OP_ADD OP_=1"] = before ++ raw :: after ∧
      Fault.Placed ((Phrase.ofText raw).filterMap Phrase.numeral?)
        (some (((Builder.fresh (some Layout.small) [] true).readFrom 1 before
          ).builder.lines.length : Nat)) (1 + before.length)
        ⟨.fieldTwice "OP_" (.symbol "OP_ADD") (.literal (.int 1)), some (.int 1),
          some (.int 3)⟩ := by
  obtain ⟨layouts, streams⟩ := faults_tell_their_line ["", "OP_ADD", "OP_ADD OP_=1"] true
  obtain ⟨read, _⟩ := layouts ⟨.unknownDirective "OP_ADD", none, some (.int 2)⟩ (by decide +kernel)
  obtain ⟨before, raw, after, split, _, _, _, placed⟩ :=
    streams (.fresh (some Layout.small) [] true) Layout.small
      ⟨.fieldTwice "OP_" (.symbol "OP_ADD") (.literal (.int 1)), some (.int 1), some (.int 3)⟩ rfl
      (by decide +kernel)
  exact ⟨read, before, raw, after, split, placed⟩

/-- Faults about numerals without digits tell no line, in either kind of file. -/
theorem digitless_numeral_untold :
    (readLayout ["#field OP_ 0 0x"] false).result =
      .error (.fault ⟨.noHexDigits, none, none⟩) ∧
    ((Builder.fresh (some Layout.small) [] false).readStream ["OP_=0b"] false).result =
      .error (.fault ⟨.noBinaryDigits, none, none⟩) := by
  constructor <;> decide +kernel

end Microcode
