import Microcode.Proofs.StreamAssembly
import Mathlib.Data.List.Perm.Basic

/-!
Horizontal microcode. The words of a line of text say what goes into one control word, and no field
is said twice, so they may stand in any order. Labels on the same line of text stand for the same
address wherever they are on it.
-/
namespace Microcode

/-- Files that say the same on each line of text, in some order. -/
def Reworded (texts texts' : List String) : Prop :=
  List.Forall₂ (fun raw raw' => (Phrase.ofText raw).Perm (Phrase.ofText raw')) texts texts'

/-- Lines at the same address and from the same line of text that hold the same tokens. -/
structure Line.Twin (line line' : Line) : Prop extends line.Alike line' where
  index : line.index = line'.index
  source : line.source = line'.source

theorem fieldsOf_perm {ps ps' : List Phrase} (perm : ps.Perm ps') :
    (fieldsOf ps).Perm (fieldsOf ps') := by
  unfold fieldsOf
  exact perm.filter _

theorem labelsOf_perm {ps ps' : List Phrase} (perm : ps.Perm ps') :
    (labelsOf ps).Perm (labelsOf ps') := by
  unfold labelsOf
  exact perm.filterMap _

namespace Reworded

variable {layout : Layout} {texts texts' : List String}

theorem symm (same : Reworded texts texts') : Reworded texts' texts :=
  same.flip.imp fun _ _ perm => perm.symm

theorem take (same : Reworded texts texts') (k : Nat) : Reworded (texts.take k) (texts'.take k) :=
  List.forall₂_take k same

theorem labels (same : Reworded texts texts') :
    (texts.flatMap fun raw => labelsOf (Phrase.ofText raw)).Perm
      (texts'.flatMap fun raw => labelsOf (Phrase.ofText raw)) := by
  induction same with
  | nil => exact .nil
  | cons perm _ ih =>
    rw [List.flatMap_cons, List.flatMap_cons]
    exact (labelsOf_perm perm).append ih

theorem printable (same : Reworded texts texts') (printable : PrintableTexts texts) :
    PrintableTexts texts' := by
  intro raw' member p held
  obtain ⟨raw, member', perm⟩ := along_mem same member
  exact printable raw member' p (perm.symm.subset held)

theorem assigned {ps ps' : List Phrase} {entries' : Assoc Token} (perm : ps.Perm ps')
    (assigned : List.Forall₂ (Phrase.Assigns layout) ps' entries') :
    ∃ entries, List.Forall₂ (Phrase.Assigns layout) ps entries ∧ entries.Perm entries' :=
  List.perm_comp_forall₂ perm assigned

theorem readable (same : Reworded texts texts') (readable : Readable layout texts) :
    Readable layout texts' where
  accepted := by
    intro raw' member p held
    obtain ⟨raw, member', perm⟩ := along_mem same member
    exact readable.accepted raw member' p (perm.symm.subset held)
  labels_once := same.labels.nodup_iff.mp readable.labels_once
  stems_once := by
    intro raw' member entries' assigned'
    obtain ⟨raw, member', perm⟩ := along_mem same member
    obtain ⟨entries, assigned, perm'⟩ := assigned (fieldsOf_perm perm) assigned'
    exact (perm'.map Prod.fst).nodup_iff.mp (readable.stems_once raw member' entries assigned)

theorem numbered (same : Reworded texts texts') :
    List.Forall₂ (fun entry entry' =>
      (Phrase.ofText entry.1).Perm (Phrase.ofText entry'.1) ∧ entry.2 = entry'.2)
      (texts.zipIdx 1) (texts'.zipIdx 1) := by
  generalize 1 = number
  induction same generalizing number with
  | nil => exact .nil
  | cons perm _ ih => exact .cons ⟨perm, rfl⟩ (ih (number + 1))

theorem feeding (same : Reworded texts texts') :
    List.Forall₂ (fun fed fed' => fed.1 = fed'.1 ∧ fed.2.Perm fed'.2)
      (feeding texts) (feeding texts') := by
  refine along_filterMap same.numbered ?_
  rintro ⟨raw, number⟩ ⟨raw', _⟩ ⟨perm, rfl⟩
  have fields := fieldsOf_perm perm
  dsimp only at fields
  by_cases nothing : fieldsOf (Phrase.ofText raw) = []
  · have nothing' : fieldsOf (Phrase.ofText raw') = [] :=
      List.perm_nil.mp (nothing ▸ fields.symm)
    exact .inl ⟨if_pos nothing, if_pos nothing'⟩
  · have something : fieldsOf (Phrase.ofText raw') ≠ [] :=
      fun empty => nothing (List.perm_nil.mp (empty ▸ fields))
    refine .inr ⟨_, _, if_neg nothing, if_neg something, rfl, ?_⟩
    dsimp only
    exact fields

end Reworded

/-! Reading. -/

section

variable {layout : Layout} {texts texts' : List String} {lines lines' : List Line}
  {labels labels' : Labels}

theorem Feeds.alike {fed fed' : Nat × List Phrase} {line line' : Line}
    (feeds : Feeds layout fed line) (feeds' : Feeds layout fed' line') (perm : fed.2.Perm fed'.2)
    (once : (Assoc.keys line.tokens).Nodup) : line.Alike line' := by
  obtain ⟨entries, assigned, perm'⟩ := Reworded.assigned perm feeds'.tokens
  cases Phrase.assigned_unique assigned feeds.tokens
  have tokens := Assoc.lookup_perm perm' once
  refine ⟨tokens, ?_⟩
  rw [feeds.branch, feeds'.branch, Line.pendingLabel?, Line.pendingLabel?, tokens branchStem]

theorem Read.stems_once (read : Read layout texts lines labels) (readable : Readable layout texts)
    {line : Line} (member : line ∈ lines) : (Assoc.keys line.tokens).Nodup := by
  obtain ⟨fed, held, feeds⟩ := along_mem read.fed member
  obtain ⟨⟨raw, number⟩, numbered, feeding⟩ := List.mem_filterMap.mp held
  dsimp only at feeding
  split at feeding
  · cases feeding
  · cases feeding
    have written : raw ∈ texts := List.fst_mem_of_mem_zipIdx numbered
    have tokens := feeds.tokens
    dsimp only at tokens
    exact readable.stems_once raw written line.tokens tokens

theorem Read.twins (same : Reworded texts texts') (readable : Readable layout texts)
    (read : Read layout texts lines labels) (read' : Read layout texts' lines' labels') :
    List.Forall₂ Line.Twin lines lines' := by
  -- each line goes along with what feeds it, and that with what feeds its twin
  have fed := along_join (along_join read.fed same.feeding).flip read'.fed
  have once := (List.forall₂_and_left _ _).mpr
    ⟨fun _ member => read.stems_once readable member,
      along_numbered read.numbered read'.numbered fed⟩
  refine once.imp ?_
  rintro line line' ⟨once, ⟨fed', ⟨fed, feeds, number, perm⟩, feeds'⟩, index⟩
  refine ⟨feeds.alike feeds' perm once, index, ?_⟩
  rw [feeds.source, feeds'.source, number]

theorem Read.same_labels (same : Reworded texts texts') (read : Read layout texts lines labels)
    (read' : Read layout texts' lines' labels') (label : String) :
    labels.lookup label = labels'.lookup label := by
  have keys : (Assoc.keys labels).Perm (Assoc.keys labels') := by
    rw [read.declared, read'.declared]
    exact same.labels
  by_cases held : label ∈ Assoc.keys labels
  · rw [read.declared] at held
    obtain ⟨raw, member, declares⟩ := List.mem_flatMap.mp held
    obtain ⟨k, here⟩ := List.mem_iff_getElem?.mp member
    obtain ⟨raw', here', perm⟩ := along_at same.flip here
    have declares' : label ∈ labelsOf (Phrase.ofText raw') :=
      (labelsOf_perm perm).subset declares
    rw [read.placed k raw label here declares, read'.placed k raw' label here' declares',
      (same.take k).feeding.length_eq]
  · rw [Assoc.lookup_none_iff.mpr held,
      Assoc.lookup_none_iff.mpr fun there => held (keys.symm.subset there)]

end

/-! Closing. -/

section

variable {labels labels' : Labels}

theorem Line.Twin.resolves {line line' after : Line} (twin : line.Twin line')
    (same : ∀ label, labels.lookup label = labels'.lookup label)
    (resolves : line.Resolves labels after) :
    ∃ after', line'.Resolves labels' after' ∧ after.Twin after' := by
  have pending : line.pendingLabel? = line'.pendingLabel? := by
    rw [pendingLabel?, pendingLabel?, twin.tokens]
  cases resolves with
  | plain settled => exact ⟨line', .plain (pending ▸ settled), twin⟩
  | @branch label d waits reached =>
    have reached' : line'.distance labels' label = .ok d := by
      rwa [distance, ← same, ← twin.index, ← twin.source]
    refine ⟨line'.setBranch label d, .branch (pending ▸ waits) reached', ?_⟩
    refine ⟨⟨?_, rfl⟩, twin.index, twin.source⟩
    intro stem
    simp only [setBranch, Assoc.lookup_put, twin.tokens]

theorem twins_resolve {lines lines' after : List Line} (twins : List.Forall₂ Line.Twin lines lines')
    (same : ∀ label, labels.lookup label = labels'.lookup label)
    (resolved : List.Forall₂ (Line.Resolves labels) lines after) :
    ∃ after', List.Forall₂ (Line.Resolves labels') lines' after' ∧
      List.Forall₂ Line.Twin after after' := by
  induction twins generalizing after with
  | nil =>
    cases resolved
    exact ⟨[], .nil, .nil⟩
  | cons twin _ ih =>
    cases resolved with
    | cons here later =>
      obtain ⟨line, resolves, twin'⟩ := twin.resolves same here
      obtain ⟨rest, all, twins'⟩ := ih later
      exact ⟨line :: rest, .cons resolves all, .cons twin' twins'⟩

end

section

variable {layout : Layout} {symbols : SymbolTable} {debug : Bool} {texts texts' : List String}
  {before lines : List Line} {labels : Labels} {words : List String}

theorem Assembles.reworded [Machine]
    (assembles : Assembles layout symbols debug texts before labels lines words)
    (same : Reworded texts texts') :
    ∃ before' labels' lines', Assembles layout symbols debug texts' before' labels' lines' words ∧
      List.Forall₂ Line.Twin lines lines' ∧
      ∀ label, labels.lookup label = labels'.lookup label := by
  have readable := same.readable assembles.readable
  obtain ⟨before', labels', read⟩ := readable.read
  have twins := Read.twins same assembles.readable assembles.read read
  have places := Read.same_labels same assembles.read read
  obtain ⟨lines', resolved, twins'⟩ := twins_resolve twins places assembles.resolved
  have packed := packLines_alike (twins'.imp fun _ _ twin => twin.toAlike) assembles.packed
  exact ⟨before', labels', lines',
    ⟨readable, fun on => same.printable (assembles.printable on), read, resolved, packed⟩, twins',
    places⟩

theorem Reworded.assembles [Machine] {verbose : Bool} {image : Image} (same : Reworded texts texts')
    (done : (assembleStream layout symbols debug verbose texts).result = .ok image) :
    (assembleStream layout symbols debug verbose texts').result = .ok image := by
  obtain ⟨_, words, assembles, rfl⟩ := assembles_of_ok done
  obtain ⟨_, _, _, assembles', _⟩ := assembles.reworded same
  exact (assembles'.result verbose).1

end

/-- The words of each line of text may be put in any order: the file assembles or not as before, to
the same image, with every label at the same address and every line with the same tokens. -/
theorem word_order_irrelevant [Machine] (layout : Layout) (symbols : SymbolTable)
    (debug verbose : Bool) {texts texts' : List String}
    (same : List.Forall₂ (fun raw raw' =>
      (Text.wordsOf (Text.stripComment raw)).Perm (Text.wordsOf (Text.stripComment raw')))
      texts texts') :
    let one := assembleStream layout symbols debug verbose texts
    let two := assembleStream layout symbols debug verbose texts'
    (∀ image, one.result = .ok image ↔ two.result = .ok image) ∧
    ∀ image, one.result = .ok image →
      (∀ label, one.builder.labels.lookup label = two.builder.labels.lookup label) ∧
      List.Forall₂ (fun line line' => line.index = line'.index ∧ line.source = line'.source ∧
        line.branch = line'.branch ∧ ∀ stem, line.tokens.lookup stem = line'.tokens.lookup stem)
        one.builder.lines two.builder.lines := by
  intro one two
  have reworded : Reworded texts texts' := same.imp fun _ _ perm => perm.map Phrase.ofWord
  refine ⟨fun image => ⟨reworded.assembles, reworded.symm.assembles⟩, ?_⟩
  intro image done
  obtain ⟨_, words, assembles, rfl⟩ := assembles_of_ok done
  obtain ⟨_, labels, lines, assembles', twins, places⟩ := assembles.reworded reworded
  obtain ⟨_, same_lines, same_labels⟩ := assembles'.result verbose
  rw [same_lines, same_labels]
  refine ⟨places, twins.imp ?_⟩
  intro line line' twin
  exact ⟨twin.index, twin.source, twin.branch, twin.tokens⟩

/-- A label, a symbol, a branch and an immediate value change places. -/
theorem word_order_irrelevant_two_lines :
    let symbols : SymbolTable := [("OP_ADD", some (.int 5))]
    let texts := ["label_start OP_ADD offset_end // first", "", "OP_=2 label_end"]
    let texts' := ["offset_end  label_start OP_ADD", "// nothing", "label_end OP_=2"]
    let one := assembleStream Layout.small symbols true true texts
    let two := assembleStream Layout.small symbols true true texts'
    one.result = .ok ⟨.int 2, .int 7, ["0001101", "0000010"]⟩ ∧ two.result = one.result ∧
      two.builder.labels.lookup "end" = some (.int 1) ∧ two.builder.lines.length = 2 := by
  intro symbols texts texts' one two
  have same : List.Forall₂ (fun raw raw' =>
      (Text.wordsOf (Text.stripComment raw)).Perm (Text.wordsOf (Text.stripComment raw')))
      texts texts' :=
    .cons (by decide +kernel) (.cons (by decide +kernel) (.cons (by decide +kernel) .nil))
  have done : (assembleStream Layout.small symbols true true texts).result =
      .ok ⟨.int 2, .int 7, ["0001101", "0000010"]⟩ := by decide +kernel
  have place : (assembleStream Layout.small symbols true true texts).builder.labels.lookup "end" =
      some (.int 1) := by decide +kernel
  have count : (assembleStream Layout.small symbols true true texts).builder.lines.length = 2 := by
    decide +kernel
  obtain ⟨iff, left⟩ := word_order_irrelevant Layout.small symbols true true same
  obtain ⟨labels, lines⟩ := left _ done
  refine ⟨done, ((iff _).mp done).trans done.symm, ?_, ?_⟩
  · rw [← labels "end"]
    exact place
  · rw [← lines.length_eq]
    exact count

end Microcode
