import Microcode.Proofs.History
import Microcode.Proofs.Layout
import Mathlib.Data.List.TakeWhile

/-!
The grammar of stream files. A word is a phrase: it declares a label, or it says something about a
field, and what a file of phrases comes to can be told without the builder. Reading a file agrees
with that, both in what it accepts and in the lines and labels it leaves.
-/
namespace Microcode

theorem cutAtEquals_eq_none {word : String} : cutAtEquals word = none ↔ '=' ∉ word.toList := by
  simp [cutAtEquals]

theorem split_at_equals {chars : List Char} (held : '=' ∈ chars) :
    chars.takeWhile (· != '=') ++ '=' :: (chars.dropWhile (· != '=')).drop 1 = chars := by
  induction chars with
  | nil => cases held
  | cons c rest ih =>
    by_cases here : c = '='
    · subst here
      simp
    · have later : '=' ∈ rest := (List.mem_cons.mp held).resolve_left (Ne.symm here)
      simpa [here] using ih later

theorem cutAtEquals_eq_some {word stem text : String} :
    cutAtEquals word = some (stem, text) ↔ '=' ∉ stem.toList ∧ word = stem ++ "=" ++ text := by
  constructor
  · intro cut
    have held : '=' ∈ word.toList := by
      by_contra plain
      cases (cutAtEquals_eq_none.mpr plain).symm.trans cut
    rw [cutAtEquals, if_pos (List.contains_iff_mem.mpr held)] at cut
    cases cut
    refine ⟨?_, String.toList_inj.mp ?_⟩
    · intro early
      rw [String.toList_ofList] at early
      exact absurd (List.mem_takeWhile_imp early) (by decide)
    · simpa using (split_at_equals held).symm
  · rintro ⟨plain, rfl⟩
    have before : ∀ c ∈ stem.toList, (c != '=') = true := by
      rintro c member
      apply bne_iff_ne.mpr
      rintro rfl
      exact plain member
    simp [cutAtEquals, List.takeWhile_append_of_pos before, List.dropWhile_append_of_pos before]

inductive Phrase where
  | label (name : String)
  | immediate (stem text : String)
  | branch (target : String)
  | symbol (name : String)

namespace Phrase

/-- What a word says; an equals sign comes before any marker. -/
def ofWord (word : String) : Phrase :=
  match cutAtEquals word with
  | some (stem, text) => .immediate stem text
  | none =>
    if Text.startsWith labelMarker word then .label (Text.dropStart labelMarker word)
    else if Text.startsWith offsetMarker word then .branch (Text.dropStart offsetMarker word)
    else .symbol word

def label? : Phrase → Option String
  | .label name => some name
  | _ => none

def ofText (raw : String) : List Phrase := (Text.wordsOf (Text.stripComment raw)).map ofWord

def Accepted (layout : Layout) : Phrase → Prop
  | .label name => name ≠ "" ∧ Text.isAscii name = true
  | .immediate stem text =>
    (∃ f ∈ layout.fields, f.stem = stem) ∧ ∃ n, Numeral.read text = .ok n
  | .branch target =>
    target ≠ "" ∧ Text.isAscii target = true ∧ ∃ f ∈ layout.fields, f.stem = branchStem
  | .symbol name => ∃ f ∈ layout.fields, Text.startsWith f.stem name = true

inductive Assigns (layout : Layout) : Phrase → String × Token → Prop where
  | immediate {stem text : String} {n : Int} (declared : ∃ f ∈ layout.fields, f.stem = stem)
      (read : Numeral.read text = .ok n) :
      Assigns layout (.immediate stem text) (stem, .literal (.int n))
  | branch {target : String} (named : target ≠ "") (ascii : Text.isAscii target = true)
      (declared : ∃ f ∈ layout.fields, f.stem = branchStem) :
      Assigns layout (.branch target) (branchStem, .label target)
  | symbol {name stem : String} (owned : LongestStem layout name stem) :
      Assigns layout (.symbol name) (stem, .symbol name)

end Phrase

def labelsOf (phrases : List Phrase) : List String := phrases.filterMap Phrase.label?

def fieldsOf (phrases : List Phrase) : List Phrase := phrases.filter (·.label? = none)

/-- The lines of text that feed a microcode line, with their numbers from one on. -/
def feeding (texts : List String) : List (Nat × List Phrase) :=
  (texts.zipIdx 1).filterMap fun (raw, number) =>
    if fieldsOf (Phrase.ofText raw) = [] then none
    else some (number, fieldsOf (Phrase.ofText raw))

structure Readable (layout : Layout) (texts : List String) : Prop where
  accepted : ∀ raw ∈ texts, ∀ p ∈ Phrase.ofText raw, p.Accepted layout
  labels_once : (texts.flatMap fun raw => labelsOf (Phrase.ofText raw)).Nodup
  stems_once : ∀ raw ∈ texts, ∀ entries,
    List.Forall₂ (Phrase.Assigns layout) (fieldsOf (Phrase.ofText raw)) entries →
    (Assoc.keys entries).Nodup

/-- The line that a line of text feeds: its tokens are those its phrases assign, in order. -/
structure Feeds (layout : Layout) (fed : Nat × List Phrase) (line : Line) : Prop where
  source : line.source = some (.int fed.1)
  tokens : List.Forall₂ (Phrase.Assigns layout) fed.2 line.tokens
  branch : line.branch = line.pendingLabel?

/-- The lines and labels that a stream file leaves. A label stands for the number of lines fed by
the text before the one it is declared on. -/
structure Read (layout : Layout) (texts : List String) (lines : List Line) (labels : Labels) :
    Prop where
  fed : List.Forall₂ (Feeds layout) (feeding texts) lines
  numbered : ∀ (i : Nat) (line : Line), lines[i]? = some line → line.index = .int i
  declared : Assoc.keys labels = texts.flatMap fun raw => labelsOf (Phrase.ofText raw)
  placed : ∀ (k : Nat) (raw name : String), texts[k]? = some raw →
    name ∈ labelsOf (Phrase.ofText raw) →
    labels.lookup name = some (.int (feeding (texts.take k)).length)

namespace Phrase

variable {layout : Layout} {p : Phrase} {entry entry' : String × Token}

theorem ofWord_eq_immediate {word stem text : String} :
    ofWord word = .immediate stem text ↔ '=' ∉ stem.toList ∧ word = stem ++ "=" ++ text := by
  rw [← cutAtEquals_eq_some]
  unfold ofWord
  split
  · rename_i cut
    rw [cut]
    simp
  · rename_i plain
    rw [plain]
    split
    · simp
    · split <;> simp

theorem label?_eq_some {name : String} : p.label? = some name ↔ p = .label name := by
  cases p <;> simp [label?]

theorem Assigns.unique (first : Assigns layout p entry) (second : Assigns layout p entry') :
    entry = entry' := by
  cases first with
  | immediate declared read =>
    cases second with
    | immediate declared' read' =>
      cases read.symm.trans read'
      rfl
  | branch named ascii declared =>
    cases second
    rfl
  | symbol owned =>
    cases second with
    | symbol owned' => rw [owned.unique owned']

theorem assigned_unique {ps : List Phrase} {entries entries' : Assoc Token}
    (first : List.Forall₂ (Assigns layout) ps entries)
    (second : List.Forall₂ (Assigns layout) ps entries') : entries = entries' :=
  List.right_unique_forall₂' (fun _ _ _ one two => one.unique two) first second

theorem Assigns.accepted (assigns : Assigns layout p entry) :
    p.Accepted layout ∧ p.label? = none := by
  cases assigns with
  | immediate declared read => exact ⟨⟨declared, _, read⟩, rfl⟩
  | branch named ascii declared => exact ⟨⟨named, ascii, declared⟩, rfl⟩
  | symbol owned =>
    obtain ⟨f, held, rfl⟩ := owned.declared
    exact ⟨⟨f, held, owned.begins⟩, rfl⟩

theorem Accepted.assigns (accepted : p.Accepted layout) (field : p.label? = none) :
    ∃ entry, Assigns layout p entry := by
  cases p with
  | label name => cases field
  | immediate stem text =>
    obtain ⟨declared, n, read⟩ := accepted
    exact ⟨_, .immediate declared read⟩
  | branch target => exact ⟨_, .branch accepted.1 accepted.2.1 accepted.2.2⟩
  | symbol name =>
    obtain ⟨f, held, begins⟩ := accepted
    cases owned : layout.owner? name with
    | none => cases begins.symm.trans (Layout.owner?_none_iff.mp owned f held)
    | some g => exact ⟨_, .symbol (Layout.owner?_longest owned)⟩

end Phrase

/-! One word. -/

def waiting (tokens : Assoc Token) : Option String :=
  match tokens.lookup branchStem with
  | some (.label name) => some name
  | _ => none

def fedLine (index : Nat) (source : Option Value) (tokens : Assoc Token) : Line :=
  ⟨.int index, source, tokens, waiting tokens⟩

def reading (layout : Layout) (symbols : SymbolTable) (lines : List Line) (labels : Labels)
    (source : Option Value) (tokens : Assoc Token) : Builder :=
  ⟨some layout, symbols, false, lines, labels,
    fedLine lines.length (if tokens.isEmpty then none else source) tokens, source, false⟩

inductive Step (layout : Layout) (here : Nat) (labels : Labels) (tokens : Assoc Token) :
    Phrase → Labels → Assoc Token → Prop where
  | label {name : String} (named : name ≠ "") (ascii : Text.isAscii name = true)
      (new : name ∉ Assoc.keys labels) :
      Step layout here labels tokens (.label name) (labels ++ [(name, .int here)]) tokens
  | field {p : Phrase} {entry : String × Token} (assigns : p.Assigns layout entry)
      (free : entry.1 ∉ Assoc.keys tokens) :
      Step layout here labels tokens p labels (tokens ++ [entry])

def Phrase.act (lineNumber : Nat) (word : String) : Phrase → Act
  | .label name => .declare name
  | .immediate stem text =>
    match Numeral.read text with
    | .ok n => .value stem (.value (.int n))
    | .error _ => .unreadable lineNumber word stem text
  | .branch target => .branch target
  | .symbol name => .assign name

theorem ofWord_act (lineNumber : Nat) (word : String) :
    Act.ofWord lineNumber word = (Phrase.ofWord word).act lineNumber word := by
  unfold Act.ofWord Phrase.ofWord
  cases cutAtEquals word with
  | some cut => rfl
  | none =>
    simp only [Act.ofName]
    split
    · rfl
    · split <;> rfl

section

variable {layout : Layout} {symbols : SymbolTable} {lines : List Line} {labels : Labels}
  {source : Option Value} {tokens : Assoc Token}

theorem waiting_plain {stem : String} {token : Token} (plain : ∀ name, token ≠ .label name)
    (tokens : Assoc Token) : waiting (tokens ++ [(stem, token)]) = waiting tokens := by
  unfold waiting
  rw [List.lookup_append]
  cases tokens.lookup branchStem with
  | some held => rfl
  | none =>
    rw [Option.none_or, List.lookup_cons]
    cases branchStem == stem with
    | false => rfl
    | true =>
      cases token with
      | label name => exact absurd rfl (plain name)
      | _ => rfl

theorem waiting_label (target : String) (free : tokens.lookup branchStem = none) :
    waiting (tokens ++ [(branchStem, .label target)]) = some target := by
  unfold waiting
  rw [List.lookup_append, free, Option.none_or, List.lookup_cons, beq_self_eq_true]

theorem withToken_reading {stem : String} (token : Token) (free : tokens.lookup stem = none) :
    (reading layout symbols lines labels source tokens).withToken stem token =
      { reading layout symbols lines labels source (tokens ++ [(stem, token)]) with
        current := ⟨.int lines.length, source, tokens ++ [(stem, token)], waiting tokens⟩ } := by
  have stored := Assoc.put_new token free
  unfold Builder.withToken reading fedLine
  simp only [stored]
  cases tokens <;> rfl

theorem store_reading {stem : String} {token : Token} (free : tokens.lookup stem = none)
    (plain : ∀ name, token ≠ .label name) :
    (reading layout symbols lines labels source tokens).store stem token =
      ⟨.ok (), reading layout symbols lines labels source (tokens ++ [(stem, token)]), []⟩ := by
  have quiet : (reading layout symbols lines labels source tokens).debug = false := rfl
  unfold Builder.store
  simp only [quiet, withToken_reading token free]
  simp only [reading, fedLine, waiting_plain plain]
  simp

theorem Step.read [Machine] {p : Phrase} {labels' : Labels} {tokens' : Assoc Token}
    (step : Step layout lines.length labels tokens p labels' tokens') (lineNumber : Nat)
    (word : String) :
    ((reading layout symbols lines labels source tokens).act (p.act lineNumber word)).result =
      .ok () ∧
    ((reading layout symbols lines labels source tokens).act (p.act lineNumber word)).builder =
      reading layout symbols lines labels' source tokens' := by
  have given : (reading layout symbols lines labels source tokens).layout = some layout := rfl
  cases step with
  | @label name named ascii new =>
    have absent : labels.lookup name = none := Assoc.lookup_none_iff.mpr new
    have allowed := (Builder.checkDeclaration_ok_iff given).mpr ⟨rfl, named, ascii, absent⟩
    have declared : (reading layout symbols lines labels source tokens).declareLabel name =
        ⟨.ok (), reading layout symbols lines (labels ++ [(name, .int lines.length)]) source tokens,
          []⟩ := by
      simp only [Builder.declareLabel, allowed]
      simp only [reading, Assoc.put_new _ absent]
      rfl
    exact ⟨congrArg Outcome.result declared, congrArg Outcome.builder declared⟩
  | field assigns free =>
    have absent := Assoc.lookup_none_iff.mpr free
    cases assigns with
    | @immediate stem text n declared read =>
      have field := Layout.field?_isSome_iff.mpr declared
      have allowed : (reading layout symbols lines labels source tokens).checkValue stem
          (.value (.int n)) = .ok (.int n) :=
        (Builder.checkValue_ok_iff given).mpr ⟨field, rfl, rfl, absent⟩
      have stored := @store_reading layout symbols lines labels source tokens stem
        (.literal (.int n)) absent (by simp)
      simp only [Phrase.act, read, Builder.act, Builder.assignValue, allowed, stored, and_self]
    | @branch target named ascii declared =>
      have field := Layout.field?_isSome_iff.mpr declared
      have allowed := (Builder.checkReference_ok_iff given).mpr ⟨named, ascii, field, rfl, absent⟩
      obtain ⟨done, after⟩ := Builder.referenceLabel_ok allowed
      refine ⟨done, after.trans ?_⟩
      rw [withToken_reading (.label target) absent]
      simp only [Builder.withBranch, reading, fedLine, waiting_label target absent]
      simp
    | @symbol name stem owned =>
      have owner := Layout.owner?_of_longest owned
      have allowed := (Builder.checkName_ok_iff given).mpr ⟨owner, rfl, absent⟩
      have stored := @store_reading layout symbols lines labels source tokens stem
        (.symbol name) absent (by simp)
      simp only [Phrase.act, Builder.act, Builder.assign, allowed, stored, and_self]

theorem Step.of_read [Machine] {p : Phrase} {lineNumber : Nat} {word : String}
    (read : ((reading layout symbols lines labels source tokens).act
      (p.act lineNumber word)).result = .ok ()) :
    ∃ labels' tokens', Step layout lines.length labels tokens p labels' tokens' := by
  have given : (reading layout symbols lines labels source tokens).layout = some layout := rfl
  cases p with
  | label name =>
    simp only [Phrase.act, Builder.act, Builder.declareLabel] at read
    split at read
    · cases read
    · rename_i allowed
      obtain ⟨_, named, ascii, absent⟩ := (Builder.checkDeclaration_ok_iff given).mp allowed
      exact ⟨_, _, .label named ascii (Assoc.lookup_none_iff.mp absent)⟩
  | immediate stem text =>
    cases number : Numeral.read text with
    | error e =>
      simp only [Phrase.act, number, Builder.act, Builder.done, Builder.immediate,
        error_mapError, Except.map] at read
      cases read
    | ok n =>
      simp only [Phrase.act, number, Builder.act, Builder.assignValue] at read
      split at read
      · cases read
      · rename_i allowed
        obtain ⟨field, _, _, absent⟩ := (Builder.checkValue_ok_iff given).mp allowed
        have declared := Layout.field?_isSome_iff.mp field
        exact ⟨_, _, .field (.immediate declared number) (Assoc.lookup_none_iff.mp absent)⟩
  | branch target =>
    simp only [Phrase.act, Builder.act, Builder.referenceLabel] at read
    split at read
    · cases read
    · rename_i allowed
      obtain ⟨named, ascii, field, _, absent⟩ := (Builder.checkReference_ok_iff given).mp allowed
      have declared := Layout.field?_isSome_iff.mp field
      exact ⟨_, _, .field (.branch named ascii declared) (Assoc.lookup_none_iff.mp absent)⟩
  | symbol name =>
    simp only [Phrase.act, Builder.act, Builder.assign] at read
    split at read
    · cases read
    · rename_i stem allowed
      obtain ⟨⟨f, owned, rfl⟩, _, absent⟩ := (Builder.checkName_ok_iff given).mp allowed
      exact ⟨_, _, .field (.symbol (Layout.owner?_longest owned)) (Assoc.lookup_none_iff.mp absent)⟩

end

/-! The words of one line of text. -/

inductive Steps (layout : Layout) (here : Nat) :
    Labels → Assoc Token → List Phrase → Labels → Assoc Token → Prop where
  | nil {labels : Labels} {tokens : Assoc Token} : Steps layout here labels tokens [] labels tokens
  | cons {p : Phrase} {ps : List Phrase} {labels labels' labels'' : Labels}
      {tokens tokens' tokens'' : Assoc Token}
      (first : Step layout here labels tokens p labels' tokens')
      (rest : Steps layout here labels' tokens' ps labels'' tokens'') :
      Steps layout here labels tokens (p :: ps) labels'' tokens''

/-- Names that can follow others without a repetition. -/
def Joins (old new : List String) : Prop := new.Nodup ∧ ∀ key ∈ new, key ∉ old

theorem joins_cons {old new : List String} {key : String} :
    Joins old (key :: new) ↔ key ∉ old ∧ Joins (old ++ [key]) new := by
  simp only [Joins, List.nodup_cons, List.forall_mem_cons, List.mem_append, List.mem_singleton,
    not_or]
  constructor
  · rintro ⟨⟨other, once⟩, absent, apart⟩
    refine ⟨absent, once, ?_⟩
    intro k member
    exact ⟨apart k member, fun same => other (same ▸ member)⟩
  · rintro ⟨absent, once, apart⟩
    refine ⟨⟨fun member => (apart key member).2 rfl, once⟩, absent, ?_⟩
    exact fun k member => (apart k member).1

/-- What has to hold of the phrases of a line of text, and the tokens they assign. -/
structure Fits (layout : Layout) (labels : Labels) (tokens : Assoc Token) (ps : List Phrase)
    (new : Assoc Token) : Prop where
  named : ∀ name ∈ labelsOf ps, name ≠ "" ∧ Text.isAscii name = true
  labels_new : Joins (Assoc.keys labels) (labelsOf ps)
  assigned : List.Forall₂ (Phrase.Assigns layout) (fieldsOf ps) new
  stems_new : Joins (Assoc.keys tokens) (Assoc.keys new)

theorem keys_append {α : Type} (first second : Assoc α) :
    Assoc.keys (first ++ second) = Assoc.keys first ++ Assoc.keys second := List.map_append

theorem keys_concat {α : Type} (map : Assoc α) (entry : String × α) :
    Assoc.keys (map ++ [entry]) = Assoc.keys map ++ [entry.1] := keys_append map [entry]

theorem labelsOf_field {p : Phrase} (field : p.label? = none) (ps : List Phrase) :
    labelsOf (p :: ps) = labelsOf ps ∧ fieldsOf (p :: ps) = p :: fieldsOf ps := by
  simp [labelsOf, fieldsOf, field]

theorem labelsOf_label (name : String) (ps : List Phrase) :
    labelsOf (.label name :: ps) = name :: labelsOf ps ∧
      fieldsOf (.label name :: ps) = fieldsOf ps := by
  simp [labelsOf, fieldsOf, Phrase.label?]

def placedAt (here : Nat) (names : List String) : Labels := names.map (·, .int here)

theorem Steps.fits {layout : Layout} {here : Nat} {labels labels' : Labels}
    {tokens tokens' : Assoc Token} {ps : List Phrase}
    (steps : Steps layout here labels tokens ps labels' tokens') :
    ∃ new, Fits layout labels tokens ps new ∧
      labels' = labels ++ placedAt here (labelsOf ps) ∧ tokens' = tokens ++ new := by
  induction steps with
  | nil =>
    refine ⟨[], ⟨?_, ⟨List.nodup_nil, ?_⟩, .nil, ⟨List.nodup_nil, ?_⟩⟩, ?_, ?_⟩ <;>
      simp [labelsOf, placedAt, Assoc.keys]
  | @cons p ps labels labels' labels'' tokens tokens' tokens'' first rest ih =>
    obtain ⟨new, fits, rfl, rfl⟩ := ih
    cases first with
    | @label name named ascii absent =>
      obtain ⟨names, fields⟩ := labelsOf_label name ps
      refine ⟨new, ⟨?_, ?_, ?_, fits.stems_new⟩, ?_, rfl⟩
      · rw [names]
        exact List.forall_mem_cons.mpr ⟨⟨named, ascii⟩, fits.named⟩
      · rw [names, joins_cons, ← keys_concat labels (name, .int here)]
        exact ⟨absent, fits.labels_new⟩
      · rw [fields]
        exact fits.assigned
      · rw [names]
        simp [placedAt]
    | @field _ entry assigns free =>
      obtain ⟨names, fields⟩ := labelsOf_field assigns.accepted.2 ps
      refine ⟨entry :: new, ⟨?_, ?_, ?_, ?_⟩, ?_, ?_⟩
      · rw [names]
        exact fits.named
      · rw [names]
        exact fits.labels_new
      · rw [fields]
        exact .cons assigns fits.assigned
      · have later := fits.stems_new
        rw [keys_concat] at later
        exact joins_cons.mpr ⟨free, later⟩
      · rw [names]
      · simp

theorem Fits.steps {layout : Layout} {labels : Labels} {tokens new : Assoc Token} {ps : List Phrase}
    (fits : Fits layout labels tokens ps new) (here : Nat) :
    Steps layout here labels tokens ps (labels ++ placedAt here (labelsOf ps)) (tokens ++ new) := by
  induction ps generalizing labels tokens new with
  | nil =>
    have assigned := fits.assigned
    cases assigned
    rw [List.append_nil, placedAt, labelsOf, List.filterMap_nil, List.map_nil, List.append_nil]
    exact .nil
  | cons p ps ih =>
    cases kind : p.label? with
    | some name =>
      cases Phrase.label?_eq_some.mp kind
      obtain ⟨names, fields⟩ := labelsOf_label name ps
      have named := fits.named
      have labels_new := fits.labels_new
      have assigned := fits.assigned
      rw [names] at named labels_new ⊢
      rw [fields] at assigned
      obtain ⟨⟨given, ascii⟩, named'⟩ := List.forall_mem_cons.mp named
      obtain ⟨absent, joins⟩ := joins_cons.mp labels_new
      rw [← keys_concat labels (name, .int here)] at joins
      have rest := ih ⟨named', joins, assigned, fits.stems_new⟩
      rw [List.append_assoc] at rest
      exact .cons (.label given ascii absent) rest
    | none =>
      obtain ⟨names, fields⟩ := labelsOf_field kind ps
      have named := fits.named
      have labels_new := fits.labels_new
      have assigned := fits.assigned
      rw [names] at named labels_new ⊢
      rw [fields] at assigned
      cases assigned with
      | @cons _ entry _ later assigns others =>
        obtain ⟨free, joins⟩ := joins_cons.mp fits.stems_new
        rw [← keys_concat tokens entry] at joins
        have rest := ih ⟨named, labels_new, others, joins⟩
        rw [List.append_assoc] at rest
        exact .cons (.field assigns free) rest

section

variable {layout : Layout} {symbols : SymbolTable} {lines : List Line} {labels : Labels}
  {source : Option Value} {tokens : Assoc Token}

theorem readWord_reading [Machine] (lineNumber : Nat) (word : String) :
    (reading layout symbols lines labels source tokens).readWord lineNumber word =
      (reading layout symbols lines labels source tokens).act
        ((Phrase.ofWord word).act lineNumber word) := by
  rw [Builder.readWord_eq_act rfl, ofWord_act]

theorem Steps.read {words : List String} {labels' : Labels} {tokens' : Assoc Token}
    (steps : Steps layout lines.length labels tokens (words.map Phrase.ofWord) labels' tokens')
    (lineNumber : Nat) :
    ((reading layout symbols lines labels source tokens).readWords lineNumber words).result =
      .ok () ∧
    ((reading layout symbols lines labels source tokens).readWords lineNumber words).builder =
      reading layout symbols lines labels' source tokens' := by
  induction words generalizing labels tokens with
  | nil =>
    cases steps
    exact ⟨rfl, rfl⟩
  | cons word rest ih =>
    cases steps with
    | cons first later =>
      obtain ⟨done, after⟩ := @Step.read layout symbols lines labels source tokens _ _ _ _ first
        lineNumber word
      rw [← readWord_reading] at done after
      obtain ⟨result, builder⟩ :=
        Outcome.andThen_ok done fun _ next => next.readWords lineNumber rest
      rw [Builder.readWords, result, builder, after]
      exact ih later

theorem Steps.of_read {words : List String} {lineNumber : Nat}
    (read : ((reading layout symbols lines labels source tokens).readWords lineNumber
      words).result = .ok ()) :
    ∃ labels' tokens',
      Steps layout lines.length labels tokens (words.map Phrase.ofWord) labels' tokens' := by
  induction words generalizing labels tokens with
  | nil => exact ⟨labels, tokens, .nil⟩
  | cons word rest ih =>
    rw [Builder.readWords] at read
    cases done :
        ((reading layout symbols lines labels source tokens).readWord lineNumber word).result with
    | error e =>
      rw [(Outcome.andThen_error done _).1] at read
      cases read
    | ok u =>
      rw [(Outcome.andThen_ok done _).1] at read
      rw [readWord_reading] at done
      obtain ⟨labels', tokens', first⟩ := Step.of_read done
      obtain ⟨_, after⟩ := @Step.read layout symbols lines labels source tokens _ _ _ _ first
        lineNumber word
      rw [readWord_reading, after] at read
      obtain ⟨labels'', tokens'', later⟩ := ih read
      exact ⟨labels'', tokens'', .cons first later⟩

def withFed (lines : List Line) (source : Option Value) (tokens : Assoc Token) : List Line :=
  if tokens.isEmpty then lines else lines ++ [fedLine lines.length source tokens]

theorem endLine_reading :
    (reading layout symbols lines labels source tokens).endLine =
      ⟨.ok (), reading layout symbols (withFed lines source tokens) labels source [], []⟩ := by
  have given : (reading layout symbols lines labels source tokens).layout = some layout := rfl
  have allowed : (reading layout symbols lines labels source tokens).checkOpen = .ok () :=
    (Builder.checkOpen_ok_iff given).mpr rfl
  simp only [Builder.endLine, allowed]
  cases tokens with
  | nil => rfl
  | cons entry rest =>
    have index : ((lines ++ [fedLine lines.length source (entry :: rest)]).length : Int) =
        lines.length + 1 := by simp
    have fresh : fedLine (lines ++ [fedLine lines.length source (entry :: rest)]).length none [] =
        Line.fresh (.int (lines.length + 1)) := by
      rw [fedLine, index]
      rfl
    have after : reading layout symbols (withFed lines source (entry :: rest)) labels source [] =
        (reading layout symbols lines labels source (entry :: rest)).committed :=
      congrArg (fun line : Line => (⟨some layout, symbols, false,
        lines ++ [fedLine lines.length source (entry :: rest)], labels, line, source,
        false⟩ : Builder)) fresh
    rw [after]
    rfl

theorem readLine_reading (lineNumber : Nat) (raw : String) :
    (reading layout symbols lines labels source []).readLine lineNumber raw =
      if Text.stripComment raw = "" then
        (reading layout symbols lines labels source []).done (.ok ())
      else
        ((reading layout symbols lines labels (some (.int lineNumber)) []).readWords lineNumber
          (Text.wordsOf (Text.stripComment raw))).andThen fun _ after => after.endLine := rfl

theorem ofText_blank {raw : String} (blank : Text.stripComment raw = "") :
    Phrase.ofText raw = [] := by
  rw [Phrase.ofText, blank]
  rfl

/-- A line of text is read if its phrases fit, and then it feeds their tokens to a line. -/
theorem Fits.readLine {raw : String} {new : Assoc Token}
    (fits : Fits layout labels [] (Phrase.ofText raw) new) (lineNumber : Nat) :
    ∃ source',
      ((reading layout symbols lines labels source []).readLine lineNumber raw).result = .ok () ∧
      ((reading layout symbols lines labels source []).readLine lineNumber raw).builder =
        reading layout symbols (withFed lines (some (.int lineNumber)) new)
          (labels ++ placedAt lines.length (labelsOf (Phrase.ofText raw))) source' [] := by
  rw [readLine_reading]
  split
  · rename_i blank
    have assigned := fits.assigned
    rw [ofText_blank blank] at assigned ⊢
    cases assigned
    refine ⟨source, rfl, ?_⟩
    simp [withFed, placedAt, labelsOf, Builder.done]
  · have steps := fits.steps lines.length
    rw [List.nil_append] at steps
    obtain ⟨done, after⟩ :=
      @Steps.read layout symbols lines labels (some (.int lineNumber)) [] _ _ _ steps lineNumber
    have ended := Outcome.andThen_ok done fun _ next => next.endLine
    rw [after, endLine_reading] at ended
    exact ⟨_, ended⟩

theorem Fits.of_readLine {raw : String} {lineNumber : Nat}
    (read : ((reading layout symbols lines labels source []).readLine lineNumber raw).result =
      .ok ()) :
    ∃ new, Fits layout labels [] (Phrase.ofText raw) new := by
  rw [readLine_reading] at read
  split at read
  · rename_i blank
    rw [ofText_blank blank]
    obtain ⟨new, fits, _⟩ := (@Steps.nil layout 0 labels []).fits
    exact ⟨new, fits⟩
  · cases done : ((reading layout symbols lines labels (some (.int lineNumber)) []).readWords
        lineNumber (Text.wordsOf (Text.stripComment raw))).result with
    | error e =>
      rw [(Outcome.andThen_error done _).1] at read
      cases read
    | ok u =>
      obtain ⟨labels', tokens', steps⟩ := Steps.of_read done
      obtain ⟨new, fits, _⟩ := steps.fits
      exact ⟨new, fits⟩

end

/-! A whole file. -/

theorem feeding_concat (before : List String) (raw : String) :
    feeding (before ++ [raw]) =
      feeding before ++
        if fieldsOf (Phrase.ofText raw) = [] then []
        else [(before.length + 1, fieldsOf (Phrase.ofText raw))] := by
  unfold feeding
  rw [List.zipIdx_append, List.filterMap_append, Nat.add_comm 1, List.zipIdx_singleton]
  by_cases nothing : fieldsOf (Phrase.ofText raw) = []
  · simp only [List.filterMap_cons, List.filterMap_nil, if_pos nothing]
  · simp only [List.filterMap_cons, List.filterMap_nil, if_neg nothing]

section

variable {layout : Layout} {labels : Labels} {lines : List Line} {before rest : List String}
  {raw : String} {new : Assoc Token}

theorem Fits.accepted (fits : Fits layout labels [] (Phrase.ofText raw) new) :
    ∀ p ∈ Phrase.ofText raw, p.Accepted layout := by
  intro p member
  cases kind : p.label? with
  | none =>
    have field : p ∈ fieldsOf (Phrase.ofText raw) := List.mem_filter.mpr ⟨member, by simp [kind]⟩
    obtain ⟨i, here⟩ := List.mem_iff_getElem?.mp field
    obtain ⟨entry, _, assigns⟩ := along_at fits.assigned.flip here
    exact assigns.accepted.1
  | some name =>
    have named := fits.named name (List.mem_filterMap.mpr ⟨p, member, kind⟩)
    cases Phrase.label?_eq_some.mp kind
    exact named

theorem Readable.concat (readable : Readable layout before)
    (declared : Assoc.keys labels = before.flatMap fun raw => labelsOf (Phrase.ofText raw))
    (fits : Fits layout labels [] (Phrase.ofText raw) new) : Readable layout (before ++ [raw]) where
  accepted := by
    intro text member
    rcases List.mem_append.mp member with old | last
    · exact readable.accepted text old
    · rw [List.mem_singleton.mp last]
      exact fits.accepted
  labels_once := by
    rw [List.flatMap_append, List.flatMap_singleton, ← declared, List.nodup_append]
    refine ⟨declared ▸ readable.labels_once, fits.labels_new.1, ?_⟩
    rintro name old _ here rfl
    exact fits.labels_new.2 name here old
  stems_once := by
    intro text member entries assigned
    rcases List.mem_append.mp member with old | last
    · exact readable.stems_once text old entries assigned
    · -- the tokens of a line of text are unique, so they are those that fit
      rw [List.mem_singleton.mp last] at assigned
      rw [Phrase.assigned_unique assigned fits.assigned]
      exact fits.stems_new.1

theorem Readable.fits (readable : Readable layout (before ++ raw :: rest))
    (declared : Assoc.keys labels = before.flatMap fun raw => labelsOf (Phrase.ofText raw)) :
    ∃ new, Fits layout labels [] (Phrase.ofText raw) new := by
  have member : raw ∈ before ++ raw :: rest := by simp
  have accepted := readable.accepted raw member
  have each : ∀ p ∈ fieldsOf (Phrase.ofText raw), ∃ entry, p.Assigns layout entry := by
    intro p held
    obtain ⟨held, kind⟩ := List.mem_filter.mp held
    exact (accepted p held).assigns (by simpa using kind)
  obtain ⟨new, assigned⟩ := exists_along each
  have once := readable.labels_once
  rw [List.flatMap_append, List.flatMap_cons, ← declared, List.nodup_append] at once
  obtain ⟨_, later, apart⟩ := once
  refine ⟨new, ⟨?_, ⟨(List.nodup_append.mp later).1, ?_⟩, assigned,
    readable.stems_once raw member new assigned, by simp [Assoc.keys]⟩⟩
  · intro name held
    obtain ⟨p, held', kind⟩ := List.mem_filterMap.mp held
    cases Phrase.label?_eq_some.mp kind
    exact accepted _ held'
  · intro name held old
    exact apart name old name (List.mem_append_left _ held) rfl

theorem keys_placedAt (here : Nat) (names : List String) :
    Assoc.keys (placedAt here names) = names := by
  rw [Assoc.keys, placedAt, List.map_map]
  exact List.map_id names

theorem placedAt_lookup {names : List String} {name : String} (here : Nat) (once : names.Nodup)
    (held : name ∈ names) : (placedAt here names).lookup name = some (.int here) := by
  refine Assoc.lookup_of_mem ((keys_placedAt here names).symm ▸ once) ?_
  exact List.mem_map.mpr ⟨name, held, rfl⟩

theorem withFed_fed (sofar : Read layout before lines labels)
    (assigned : List.Forall₂ (Phrase.Assigns layout) (fieldsOf (Phrase.ofText raw)) new) :
    List.Forall₂ (Feeds layout) (feeding (before ++ [raw]))
      (withFed lines (some (.int (before.length + 1 : Nat))) new) := by
  rw [feeding_concat]
  generalize fieldsOf (Phrase.ofText raw) = fields at assigned ⊢
  cases assigned with
  | nil =>
    rw [if_pos rfl, List.append_nil]
    exact sofar.fed
  | cons here later =>
    rw [if_neg (List.cons_ne_nil _ _)]
    exact List.rel_append sofar.fed (.cons ⟨rfl, .cons here later, rfl⟩ .nil)

theorem withFed_numbered {source : Option Value}
    (numbered : ∀ (i : Nat) (line : Line), lines[i]? = some line → line.index = .int i) (i : Nat)
    (line : Line) (here : (withFed lines source new)[i]? = some line) : line.index = .int i := by
  unfold withFed at here
  split at here
  · exact numbered i line here
  · rcases concat_at here with old | ⟨rfl, rfl⟩
    · exact numbered i line old
    · rfl

theorem Read.concat (sofar : Read layout before lines labels)
    (fits : Fits layout labels [] (Phrase.ofText raw) new) :
    Read layout (before ++ [raw]) (withFed lines (some (.int (before.length + 1 : Nat))) new)
      (labels ++ placedAt lines.length (labelsOf (Phrase.ofText raw))) where
  fed := withFed_fed sofar fits.assigned
  numbered := withFed_numbered sofar.numbered
  declared := by
    rw [keys_append, keys_placedAt, sofar.declared, List.flatMap_append, List.flatMap_singleton]
  placed := by
    intro k text name here held
    rw [List.lookup_append]
    rcases concat_at here with old | ⟨rfl, rfl⟩
    · have bound := (List.getElem?_eq_some_iff.mp old).1
      rw [sofar.placed k text name old held, List.take_append_of_le_length (Nat.le_of_lt bound)]
      rfl
    · have absent := Assoc.lookup_none_iff.mpr (fits.labels_new.2 name held)
      rw [absent, Option.none_or, placedAt_lookup lines.length fits.labels_new.1 held,
        List.take_left, sofar.fed.length_eq]

end

/-- What is left of a file is read exactly if the whole file is readable. -/
theorem readFrom_result {layout : Layout} {symbols : SymbolTable} {lines : List Line}
    {labels : Labels} {source : Option Value} {before rest : List String}
    (sofar : Read layout before lines labels) (readable : Readable layout before) :
    (((reading layout symbols lines labels source []).readFrom (before.length + 1) rest).result =
      .ok () ↔ Readable layout (before ++ rest)) ∧
    (((reading layout symbols lines labels source []).readFrom (before.length + 1) rest).result =
      .ok () → ∃ lines' labels' source',
        ((reading layout symbols lines labels source []).readFrom (before.length + 1)
          rest).builder = reading layout symbols lines' labels' source' [] ∧
        Read layout (before ++ rest) lines' labels') := by
  -- what is read so far is carried along; the file is split between it and what is left
  induction rest generalizing before lines labels source with
  | nil =>
    rw [List.append_nil]
    exact ⟨⟨fun _ => readable, fun _ => rfl⟩, fun _ => ⟨lines, labels, source, rfl, sofar⟩⟩
  | cons raw rest ih =>
    rw [Builder.readFrom]
    cases done : ((reading layout symbols lines labels source []).readLine (before.length + 1)
        raw).result with
    | error e =>
      rw [(Outcome.andThen_error done _).1]
      have failed : (Except.error e : Except Error Unit) ≠ .ok () := by simp
      refine ⟨⟨fun read => absurd read failed, ?_⟩, fun read => absurd read failed⟩
      -- a readable file has no line of text that fails
      intro whole
      obtain ⟨new, fits⟩ := whole.fits sofar.declared
      obtain ⟨_, read, _⟩ := @Fits.readLine layout symbols lines labels source raw new fits
        (before.length + 1)
      cases done.symm.trans read
    | ok u =>
      obtain ⟨new, fits⟩ := Fits.of_readLine done
      obtain ⟨source', _, after⟩ := @Fits.readLine layout symbols lines labels source raw new fits
        (before.length + 1)
      have next := @ih _ _ source' (before ++ [raw]) (sofar.concat fits)
        (readable.concat sofar.declared fits)
      rw [(Outcome.andThen_ok done _).1, (Outcome.andThen_ok done _).2, after]
      rwa [List.append_assoc, List.singleton_append, List.length_append,
        List.length_singleton] at next

theorem Read.nothing (layout : Layout) : Read layout [] [] [] where
  fed := .nil
  numbered := by
    intro i line here
    cases here
  declared := rfl
  placed := by
    intro k raw name here
    cases here

theorem Readable.nothing (layout : Layout) : Readable layout [] where
  accepted := by
    intro raw member
    cases member
  labels_once := List.nodup_nil
  stems_once := by
    intro raw member
    cases member

/-- A new builder reads exactly the readable files. It is left with the lines and labels that the
grammar gives, their number is what is told, and nothing is pending. -/
theorem stream_grammar (layout : Layout) (symbols : SymbolTable) (texts : List String)
    (verbose : Bool) :
    let outcome := (Builder.fresh (some layout) symbols false).readStream texts verbose
    (∀ word stem text, Phrase.ofWord word = .immediate stem text ↔
      '=' ∉ stem.toList ∧ word = stem ++ "=" ++ text) ∧
    ((∃ n, outcome.result = .ok n) ↔ Readable layout texts) ∧
    ∀ n, outcome.result = .ok n →
      outcome.builder.lines.length = n ∧
      Read layout texts outcome.builder.lines outcome.builder.labels ∧
      outcome.builder.current = Line.fresh (.int n) ∧ outcome.builder.sourceLine = none ∧
      outcome.builder.resolved = false := by
  intro outcome
  obtain ⟨iff, left⟩ := @readFrom_result layout symbols [] [] none [] texts (Read.nothing layout)
    (Readable.nothing layout)
  rw [List.nil_append, List.length_nil, Nat.zero_add] at iff left
  rw [← iff]
  cases done : ((reading layout symbols [] [] none []).readFrom 1 texts).result with
  | error e =>
    have failed : outcome.result = .error e := (Outcome.andThen_error done _).1
    simp [failed, Phrase.ofWord_eq_immediate]
  | ok u =>
    obtain ⟨lines, labels, source, after, read⟩ := left done
    have told : outcome.result = .ok _ := (Outcome.andThen_ok done _).1
    have builder : outcome.builder = _ := (Outcome.andThen_ok done _).2
    rw [after] at told builder
    refine ⟨fun _ _ _ => Phrase.ofWord_eq_immediate, ⟨fun _ => rfl, fun _ => ⟨_, told⟩⟩, ?_⟩
    intro n count
    cases told.symm.trans count
    rw [builder]
    exact ⟨rfl, read, rfl, rfl, rfl⟩

/-- Two lines of text that feed a line, a blank one between them, and a label after a field. -/
theorem stream_grammar_two_lines :
    let texts := ["label_start OP_=0b101 offset_end // first", "", "OP_ADD label_end"]
    let first : Line := ⟨.int 0, some (.int 1),
      [("OP_", .literal (.int 5)), ("PROCEDURE_", .label "end")], some "end"⟩
    let second : Line := ⟨.int 1, some (.int 3), [("OP_", .symbol "OP_ADD")], none⟩
    Readable Layout.small texts ∧ Phrase.ofWord "OP_=0b101" = .immediate "OP_" "0b101" ∧
      Read Layout.small texts [first, second] [("start", .int 0), ("end", .int 1)] := by
  intro texts first second
  obtain ⟨said, iff, left⟩ := stream_grammar Layout.small [] texts false
  have read :
      ((Builder.fresh (some Layout.small) [] false).readStream texts false).result = .ok 2 := by
    decide +kernel
  have lines : ((Builder.fresh (some Layout.small) [] false).readStream texts false).builder.lines =
      [first, second] := by
    decide +kernel
  have labels :
      ((Builder.fresh (some Layout.small) [] false).readStream texts false).builder.labels =
        [("start", .int 0), ("end", .int 1)] := by
    decide +kernel
  obtain ⟨_, files, _⟩ := left 2 read
  rw [lines, labels] at files
  exact ⟨iff.mp ⟨2, read⟩, (said _ _ _).mpr ⟨by decide, by decide⟩, files⟩

end Microcode
