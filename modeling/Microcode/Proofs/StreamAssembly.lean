import Microcode.Proofs.Finalize
import Microcode.Proofs.StreamGrammar
import Microcode.Proofs.Tracing

/-!
Assembling a stream file: a new builder reads it and is closed. Debug mode logs every value that is
stored, which fails for a number too long to print and changes nothing else. So what a file comes to
is told by its grammar in either mode, and `Assembles` is that account.
-/
namespace Microcode

def Phrase.Printable : Phrase → Prop
  | .immediate _ text => ∀ n, Numeral.read text = .ok n → Numeral.fits n = true
  | _ => True

def PrintableTexts (texts : List String) : Prop :=
  ∀ raw ∈ texts, ∀ p ∈ Phrase.ofText raw, p.Printable

/-! Debug mode. -/

theorem Phrase.Assigns.isLong_iff {layout : Layout} {p : Phrase} {entry : String × Token}
    (assigns : p.Assigns layout entry) : entry.2.isLong = false ↔ p.Printable := by
  cases assigns with
  | immediate declared read =>
    simp [Token.isLong, Token.numbers, Value.numbers, Phrase.Printable, read]
  | branch named ascii declared => simp [Token.isLong, Token.numbers, Phrase.Printable]
  | symbol owned => simp [Token.isLong, Token.numbers, Phrase.Printable]

/-- A line holds no literal too long to print if the text it comes from has none. -/
theorem Feeds.longLiterals {layout : Layout} {fed : Nat × List Phrase} {line : Line}
    (feeds : Feeds layout fed line) :
    line.longLiterals = 0 ↔ ∀ p ∈ fed.2, p.Printable := by
  have tokens := feeds.tokens
  unfold Line.longLiterals
  generalize line.tokens = entries at tokens
  generalize fed.2 = phrases at tokens
  induction tokens with
  | nil => simp
  | cons here _ ih => simp [List.countP_cons, ih, here.isLong_iff, and_comm]

theorem feeding_printable (texts : List String) :
    (∀ fed ∈ feeding texts, ∀ p ∈ fed.2, p.Printable) ↔ PrintableTexts texts := by
  have fields : ∀ phrases : List Phrase,
      (∀ p ∈ fieldsOf phrases, p.Printable) ↔ ∀ p ∈ phrases, p.Printable := by
    intro phrases
    refine ⟨fun all p member => ?_, fun all p member => all p (List.mem_filter.mp member).1⟩
    cases p with
    | label name => trivial
    | _ => exact all _ (List.mem_filter.mpr ⟨member, rfl⟩)
  induction texts using List.reverseRecOn with
  | nil => simp [feeding, PrintableTexts]
  | append_singleton before raw ih =>
    rw [feeding_concat, List.forall_mem_append, PrintableTexts, List.forall_mem_append,
      List.forall_mem_singleton]
    refine and_congr ih (Iff.trans ?_ (fields (Phrase.ofText raw)))
    split
    · rename_i nothing
      simp [nothing]
    · simp

theorem Read.longLiterals {layout : Layout} {texts : List String} {lines : List Line}
    {labels : Labels} (read : Read layout texts lines labels) :
    (lines.map Line.longLiterals).sum = 0 ↔ PrintableTexts texts := by
  have each : ∀ {fs : List (Nat × List Phrase)} {lines : List Line},
      List.Forall₂ (Feeds layout) fs lines →
      ((lines.map Line.longLiterals).sum = 0 ↔ ∀ fed ∈ fs, ∀ p ∈ fed.2, p.Printable) := by
    intro fs lines fed
    induction fed with
    | nil => simp
    | cons here _ ih =>
      rw [List.map_cons, List.sum_cons, Nat.add_eq_zero_iff, List.forall_mem_cons]
      exact and_congr here.longLiterals ih
  exact (each read.fed).trans (feeding_printable texts)

/-! Reading. -/

section

variable {layout : Layout} {symbols : SymbolTable} {debug : Bool} {texts : List String}

theorem readFrom_fresh :
    (((Builder.fresh (some layout) symbols debug).readFrom 1 texts).result = .ok () ↔
      Readable layout texts ∧ (debug = true → PrintableTexts texts)) ∧
    (((Builder.fresh (some layout) symbols debug).readFrom 1 texts).result = .ok () →
      ∃ lines labels source,
        ((Builder.fresh (some layout) symbols debug).readFrom 1 texts).builder =
          { reading layout symbols lines labels source [] with debug } ∧
        Read layout texts lines labels) := by
  obtain ⟨iff, left⟩ := @readFrom_result layout symbols [] [] none [] texts (Read.nothing layout)
    (Readable.nothing layout)
  rw [List.nil_append, List.length_nil, Nat.zero_add] at iff left
  cases debug with
  | false => exact ⟨iff.trans (by simp), left⟩
  | true =>
    have start : Builder.fresh (some layout) symbols true =
      (reading layout symbols [] [] none []).traced := rfl
    -- without debug mode, what is read holds a long literal exactly if the text does
    have count : ((reading layout symbols [] [] none []).readFrom 1 texts).result = .ok () →
        (((reading layout symbols [] [] none []).readFrom 1 texts).builder.longLiterals = 0 ↔
          PrintableTexts texts) := by
      intro done
      obtain ⟨lines, labels, source, after, read⟩ := left done
      rw [after]
      exact read.longLiterals
    have traces := Builder.readFrom_traces (b := reading layout symbols [] [] none []) rfl 1 texts
    rw [start]
    cases traces with
    | along off same result told kept =>
      rw [result, same]
      refine ⟨⟨fun done => ⟨iff.mp done, fun _ => (count done).mp kept⟩,
        fun both => iff.mpr both.1⟩, fun done => ?_⟩
      obtain ⟨lines, labels, source, after, read⟩ := left done
      exact ⟨lines, labels, source, by rw [after]; rfl, read⟩
    | apart off failed stored stored' =>
      rw [failed]
      refine ⟨⟨(by cases ·), ?_⟩, (by cases ·)⟩
      rintro ⟨readable, printable⟩
      have none := (count (iff.mpr readable)).mpr (printable rfl)
      rw [none] at stored
      exact absurd stored (Nat.not_lt_zero _)

def readBuilder (layout : Layout) (symbols : SymbolTable) (debug : Bool) (lines : List Line)
    (labels : Labels) : Builder :=
  { reading layout symbols lines labels none [] with debug }

theorem readStream_result (verbose : Bool) :
    ((∃ n, ((Builder.fresh (some layout) symbols debug).readStream texts verbose).result = .ok n) ↔
      Readable layout texts ∧ (debug = true → PrintableTexts texts)) ∧
    ∀ n, ((Builder.fresh (some layout) symbols debug).readStream texts verbose).result = .ok n →
      ∃ lines labels,
        ((Builder.fresh (some layout) symbols debug).readStream texts verbose).builder =
          readBuilder layout symbols debug lines labels ∧
        Read layout texts lines labels := by
  obtain ⟨iff, left⟩ := @readFrom_fresh layout symbols debug texts
  rw [← iff, Builder.readStream]
  cases done : ((Builder.fresh (some layout) symbols debug).readFrom 1 texts).result with
  | error e =>
    rw [(Outcome.andThen_error done _).1]
    simp
  | ok u =>
    obtain ⟨lines, labels, source, after, read⟩ := left done
    rw [(Outcome.andThen_ok done _).1, (Outcome.andThen_ok done _).2, after]
    exact ⟨⟨fun _ => rfl, fun _ => ⟨_, rfl⟩⟩, fun n _ => ⟨lines, labels, rfl, read⟩⟩

theorem Readable.read (readable : Readable layout texts) :
    ∃ lines labels, Read layout texts lines labels := by
  obtain ⟨iff, left⟩ := @readStream_result layout [] false texts false
  obtain ⟨n, done⟩ := iff.mpr ⟨readable, fun impossible => by cases impossible⟩
  obtain ⟨lines, labels, _, read⟩ := left n done
  exact ⟨lines, labels, read⟩

theorem Feeds.unique {fed : Nat × List Phrase} {line line' : Line} (feeds : Feeds layout fed line)
    (feeds' : Feeds layout fed line') (index : line.index = line'.index) : line = line' := by
  have tokens := Phrase.assigned_unique feeds.tokens feeds'.tokens
  have branch : line.branch = line'.branch := by
    rw [feeds.branch, feeds'.branch, Line.pendingLabel?, Line.pendingLabel?, tokens]
  have source := feeds.source.trans feeds'.source.symm
  cases line
  cases line'
  simp_all

theorem along_numbered {P : Line → Line → Prop} {lines lines' : List Line}
    (numbered : ∀ (i : Nat) (line : Line), lines[i]? = some line → line.index = .int i)
    (numbered' : ∀ (i : Nat) (line : Line), lines'[i]? = some line → line.index = .int i)
    (both : List.Forall₂ P lines lines') :
    List.Forall₂ (fun line line' => P line line' ∧ line.index = line'.index) lines lines' := by
  obtain ⟨length, each⟩ := List.forall₂_iff_get.mp both
  refine List.forall₂_iff_get.mpr ⟨length, ?_⟩
  intro i inside inside'
  refine ⟨each i inside inside', ?_⟩
  exact (numbered i _ (List.getElem?_eq_getElem inside)).trans
    (numbered' i _ (List.getElem?_eq_getElem inside')).symm

/-- The grammar leaves no choice. -/
theorem Read.unique {lines lines' : List Line} {labels labels' : Labels}
    (readable : Readable layout texts) (read : Read layout texts lines labels)
    (read' : Read layout texts lines' labels') : lines = lines' ∧ labels = labels' := by
  constructor
  · have both := along_numbered read.numbered read'.numbered (along_join read.fed read'.fed)
    refine List.forall₂_eq_eq_eq ▸ both.imp ?_
    rintro line line' ⟨⟨fed, feeds, feeds'⟩, index⟩
    exact feeds.unique feeds' index
  · have keys := read.declared.trans read'.declared.symm
    refine Assoc.ext keys (read.declared.symm ▸ readable.labels_once) ?_
    intro name held
    rw [read.declared] at held
    obtain ⟨raw, member, declares⟩ := List.mem_flatMap.mp held
    obtain ⟨k, here⟩ := List.mem_iff_getElem?.mp member
    rw [read.placed k raw name here declares, read'.placed k raw name here declares]

end

/-! Closing. -/

inductive Line.Resolves (labels : Labels) (line : Line) : Line → Prop where
  | plain (settled : line.pendingLabel? = none) : Resolves labels line line
  | branch {label : String} {d : Int} (pending : line.pendingLabel? = some label)
      (reached : line.distance labels label = .ok d) :
      Resolves labels line (line.setBranch label d)

theorem resolve_resolves {labels : Labels} {lines : List Line} {n : Nat}
    (done : (resolve labels lines).2 = .ok n) :
    List.Forall₂ (Line.Resolves labels) lines (resolve labels lines).1 := by
  rcases resolve_result labels lines with ⟨_, _, _, settled⟩ | ⟨_, fault, _, _, failed⟩
  · have both := (List.forall₂_and_left _ _).mpr ⟨settled, (resolve_settles labels lines).flip⟩
    refine both.flip.imp ?_
    rintro line line' ⟨clear, step⟩
    cases step with
    | same => exact .plain clear
    | branch pending reached => exact .branch pending reached
  · cases failed.symm.trans done

theorem resolve_of_resolves {labels : Labels} {lines lines' : List Line}
    (all : List.Forall₂ (Line.Resolves labels) lines lines') :
    ∃ n, resolve labels lines = (lines', .ok n) := by
  induction all with
  | nil => exact ⟨0, rfl⟩
  | cons here _ ih =>
    obtain ⟨n, done⟩ := ih
    cases here with
    | plain settled => exact ⟨n, by simp only [resolve, settled, done]⟩
    | branch pending reached => exact ⟨n + 1, by simp only [resolve, pending, reached, done]; rfl⟩

def assembleStream [Machine] (layout : Layout) (symbols : SymbolTable) (debug verbose : Bool)
    (texts : List String) : Outcome Image :=
  ((Builder.fresh (some layout) symbols debug).readStream texts verbose).andThen
    fun _ builder => builder.finalize

/-- What a stream file comes to: the lines as they are read and the labels, the lines with their
branches resolved, and the words of these. -/
structure Assembles [Machine] (layout : Layout) (symbols : SymbolTable) (debug : Bool)
    (texts : List String) (before : List Line) (labels : Labels) (lines : List Line)
    (words : List String) : Prop where
  readable : Readable layout texts
  printable : debug = true → PrintableTexts texts
  read : Read layout texts before labels
  resolved : List.Forall₂ (Line.Resolves labels) before lines
  packed : packLines layout symbols lines = .ok words

section

variable {layout : Layout} {symbols : SymbolTable} {debug : Bool} {texts : List String}
  {before lines : List Line} {labels : Labels} {words : List String}

theorem finalize_readBuilder [Machine] :
    (readBuilder layout symbols debug before labels).finalize =
      (readBuilder layout symbols debug before labels).resolveBranches.andThen fun _ after =>
        { after with resolved := true }.done
          ((packLines layout symbols after.lines).map (Image.ofWords layout.size)) := rfl

theorem Assembles.result [Machine]
    (assembles : Assembles layout symbols debug texts before labels lines words) (verbose : Bool) :
    let outcome := assembleStream layout symbols debug verbose texts
    outcome.result = .ok (Image.ofWords layout.size words) ∧
      outcome.builder.lines = lines ∧ outcome.builder.labels = labels := by
  intro outcome
  obtain ⟨iff, left⟩ := @readStream_result layout symbols debug texts verbose
  obtain ⟨n, done⟩ := iff.mpr ⟨assembles.readable, assembles.printable⟩
  obtain ⟨before', labels', builder, read⟩ := left n done
  obtain ⟨rfl, rfl⟩ := assembles.read.unique assembles.readable read
  obtain ⟨count, resolved⟩ := resolve_of_resolves assembles.resolved
  have settled : (readBuilder layout symbols debug before labels).resolveBranches =
      ⟨.ok count, { readBuilder layout symbols debug before labels with lines := lines }, []⟩ := by
    simp only [Builder.resolveBranches, readBuilder, reading, resolved]
  have closed := Outcome.andThen_ok done fun _ next => next.finalize
  rw [builder, finalize_readBuilder, settled] at closed
  simp only [Outcome.andThen, Builder.done, assembles.packed] at closed
  rw [show outcome.result = _ from closed.1, show outcome.builder = _ from closed.2]
  exact ⟨rfl, rfl, rfl⟩

theorem finalize_readBuilder_ok [Machine] {image : Image}
    (accepted : (readBuilder layout symbols debug before labels).finalize.result = .ok image) :
    let after := (readBuilder layout symbols debug before labels).finalize.builder
    List.Forall₂ (Line.Resolves labels) before after.lines ∧ after.labels = labels ∧
      after.layout = some layout ∧
      ∃ words, packLines layout symbols after.lines = .ok words ∧
        image = Image.ofWords layout.size words := by
  rw [finalize_readBuilder] at accepted ⊢
  cases resolved : (resolve labels before).2 with
  | error e =>
    have failed : (readBuilder layout symbols debug before labels).resolveBranches.result =
      .error e := resolved
    rw [(Outcome.andThen_error failed _).1] at accepted
    cases accepted
  | ok count =>
    have settled : (readBuilder layout symbols debug before labels).resolveBranches.result =
      .ok count := resolved
    rw [(Outcome.andThen_ok settled _).1] at accepted
    rw [(Outcome.andThen_ok settled _).2]
    refine ⟨resolve_resolves resolved, rfl, rfl, ?_⟩
    simp only [Builder.done, Builder.resolveBranches, readBuilder, reading] at accepted ⊢
    cases packed : packLines layout symbols (resolve labels before).1 with
    | error e =>
      rw [packed] at accepted
      cases accepted
    | ok words =>
      rw [packed] at accepted
      cases accepted
      exact ⟨words, rfl, rfl⟩

theorem assembles_of_ok [Machine] {verbose : Bool} {image : Image}
    (accepted : (assembleStream layout symbols debug verbose texts).result = .ok image) :
    ∃ before words,
      Assembles layout symbols debug texts before
        (assembleStream layout symbols debug verbose texts).builder.labels
        (assembleStream layout symbols debug verbose texts).builder.lines words ∧
      image = Image.ofWords layout.size words := by
  obtain ⟨iff, left⟩ := @readStream_result layout symbols debug texts verbose
  cases done : ((Builder.fresh (some layout) symbols debug).readStream texts verbose).result with
  | error e =>
    rw [assembleStream, (Outcome.andThen_error done _).1] at accepted
    cases accepted
  | ok n =>
    obtain ⟨before, labels, builder, read⟩ := left n done
    obtain ⟨readable, printable⟩ := iff.mp ⟨n, done⟩
    have closed := Outcome.andThen_ok done fun _ next => next.finalize
    rw [builder] at closed
    rw [assembleStream, closed.1] at accepted
    obtain ⟨resolved, kept, _, words, packed, shape⟩ := finalize_readBuilder_ok accepted
    rw [assembleStream, closed.2, kept]
    exact ⟨before, words, ⟨readable, printable, read, resolved, packed⟩, shape⟩

end

end Microcode
