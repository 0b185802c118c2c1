import Microcode.Proofs.StreamAssembly
import Mathlib.Data.List.Induction

/-!
Two stream files one after the other. The lines of the second file move down by the lines of the
first and by its lines of text, its labels move with them, and no distance between the two changes.
So the whole assembles to the words of both.
-/
namespace Microcode

def Line.moved (lines texts : Nat) (line : Line) : Line :=
  { line with
    index := .int (line.index.toInt + lines)
    source := line.source.map fun v => .int (v.toInt + texts) }

def Labels.moved (lines : Nat) (labels : Labels) : Labels :=
  labels.map fun entry => (entry.1, .int (entry.2.toInt + lines))

theorem Line.moved_alike (lines texts : Nat) (line : Line) : line.Alike (line.moved lines texts) :=
  ⟨fun _ => rfl, rfl⟩

theorem keys_moved (lines : Nat) (labels : Labels) :
    Assoc.keys (labels.moved lines) = Assoc.keys labels := by
  simp [Assoc.keys, Labels.moved]

theorem lookup_moved (lines : Nat) (labels : Labels) (name : String) :
    (labels.moved lines).lookup name =
      (labels.lookup name).map fun v => .int (v.toInt + lines) := by
  induction labels with
  | nil => rfl
  | cons entry rest ih =>
    rw [Labels.moved, List.map_cons, List.lookup_cons, List.lookup_cons]
    split
    · rfl
    · exact ih

/-! Reading both files. -/

theorem feeding_append (first second : List String) :
    feeding (first ++ second) =
      feeding first ++ (feeding second).map fun fed => (fed.1 + first.length, fed.2) := by
  induction second using List.reverseRecOn with
  | nil => simp [feeding]
  | append_singleton second raw ih =>
    rw [← List.append_assoc, feeding_concat, feeding_concat, ih, List.map_append, List.append_assoc,
      List.length_append]
    have number : first.length + second.length + 1 = second.length + 1 + first.length := by omega
    split
    · rfl
    · rw [List.map_singleton, number]

section

variable {layout : Layout} {first second : List String} {lines lines' : List Line}
  {labels labels' : Labels}

theorem Feeds.moved {fed : Nat × List Phrase} {line : Line} (feeds : Feeds layout fed line)
    (down texts : Nat) : Feeds layout (fed.1 + texts, fed.2) (line.moved down texts) where
  source := by
    simp only [Line.moved, feeds.source, Option.map_some, Value.toInt]
    norm_cast
  tokens := feeds.tokens
  branch := feeds.branch

theorem Read.append (read : Read layout first lines labels)
    (read' : Read layout second lines' labels')
    (apart : ∀ name ∈ Assoc.keys labels', name ∉ Assoc.keys labels) :
    Read layout (first ++ second) (lines ++ lines'.map (Line.moved lines.length first.length))
      (labels ++ labels'.moved lines.length) where
  fed := by
    rw [feeding_append]
    refine List.rel_append read.fed ?_
    rw [List.forall₂_map_left_iff, List.forall₂_map_right_iff]
    exact read'.fed.imp fun _ _ feeds => feeds.moved lines.length first.length
  numbered := by
    intro i line here
    rcases Nat.lt_or_ge i lines.length with early | late
    · rw [List.getElem?_append_left early] at here
      exact read.numbered i line here
    · rw [List.getElem?_append_right late, List.getElem?_map] at here
      obtain ⟨line', here', rfl⟩ := Option.map_eq_some_iff.mp here
      simp only [Line.moved, read'.numbered _ line' here', Value.toInt, Value.int.injEq]
      omega
  declared := by
    rw [keys_append, keys_moved, read.declared, read'.declared, List.flatMap_append]
  placed := by
    intro k raw name here held
    rw [List.lookup_append]
    -- the files share no label, so looking one up passes over the labels of the other file
    rcases Nat.lt_or_ge k first.length with early | late
    · rw [List.getElem?_append_left early] at here
      rw [read.placed k raw name here held, List.take_append_of_le_length (Nat.le_of_lt early)]
      rfl
    · rw [List.getElem?_append_right late] at here
      have place := read'.placed _ raw name here held
      have absent : labels.lookup name = none :=
        Assoc.lookup_none_iff.mpr (apart name (List.mem_map_of_mem (Assoc.mem_of_lookup place)))
      rw [absent, Option.none_or, lookup_moved, place, List.take_append,
        List.take_of_length_le late, feeding_append, List.length_append, List.length_map,
        ← read.fed.length_eq, Option.map_some, Value.toInt]
      push_cast
      rw [Int.add_comm]

theorem Readable.append (readable : Readable layout first) (readable' : Readable layout second)
    (apart : ∀ name ∈ first.flatMap fun raw => labelsOf (Phrase.ofText raw),
      name ∉ second.flatMap fun raw => labelsOf (Phrase.ofText raw)) :
    Readable layout (first ++ second) where
  accepted := List.forall_mem_append.mpr ⟨readable.accepted, readable'.accepted⟩
  labels_once := by
    rw [List.flatMap_append, List.nodup_append]
    refine ⟨readable.labels_once, readable'.labels_once, ?_⟩
    rintro name here _ there rfl
    exact apart name here there
  stems_once := List.forall_mem_append.mpr ⟨readable.stems_once, readable'.stems_once⟩

end

/-! Resolving both files. -/

namespace Line

variable {labels labels' : Labels} {line after : Line} {label : String} {d : Int}

theorem distance_of_reached (target : Value) (declared : labels.lookup label = some target)
    (distance : d = target.toInt - line.index.toInt) (ahead : 0 ≤ d) (near : d ≤ maxBranch) :
    line.distance labels label = .ok d := by
  unfold Line.distance
  simp only [declared, ← distance]
  exact if_neg (by omega)

theorem Resolves.labels_append (resolves : line.Resolves labels after) (later : Labels) :
    line.Resolves (labels ++ later) after := by
  cases resolves with
  | plain settled => exact .plain settled
  | branch pending reached =>
    obtain ⟨target, declared, distance, ahead, near⟩ := distance_ok reached
    refine .branch pending (distance_of_reached target ?_ distance ahead near)
    rw [List.lookup_append, declared]
    rfl

theorem Resolves.moved {earlier : Labels} (resolves : line.Resolves labels after)
    (apart : ∀ name ∈ Assoc.keys labels, name ∉ Assoc.keys earlier) (lines texts : Nat) :
    (line.moved lines texts).Resolves (earlier ++ labels.moved lines)
      (after.moved lines texts) := by
  cases resolves with
  | plain settled => exact .plain settled
  | @branch label d pending reached =>
    obtain ⟨target, declared, distance, ahead, near⟩ := distance_ok reached
    have absent : earlier.lookup label = none :=
      Assoc.lookup_none_iff.mpr (apart label (List.mem_map_of_mem (Assoc.mem_of_lookup declared)))
    have reached' : (line.moved lines texts).distance (earlier ++ labels.moved lines) label =
        .ok d := by
      refine distance_of_reached (.int (target.toInt + lines)) ?_ ?_ ahead near
      · rw [List.lookup_append, absent, Option.none_or, lookup_moved, declared]
        rfl
      · have index : (line.moved lines texts).index.toInt = line.index.toInt + lines := rfl
        have there : (Value.int (target.toInt + lines)).toInt = target.toInt + lines := rfl
        omega
    exact .branch pending reached'

end Line

section

variable {layout : Layout} {symbols : SymbolTable} {debug : Bool} {first second : List String}
  {before before' lines lines' : List Line} {labels labels' : Labels} {words words' : List String}

theorem Assembles.append [Machine]
    (one : Assembles layout symbols debug first before labels lines words)
    (two : Assembles layout symbols debug second before' labels' lines' words')
    (apart : ∀ name ∈ Assoc.keys labels, name ∉ Assoc.keys labels') :
    Assembles layout symbols debug (first ++ second)
      (before ++ before'.map (Line.moved before.length first.length))
      (labels ++ labels'.moved before.length)
      (lines ++ lines'.map (Line.moved before.length first.length)) (words ++ words') := by
  have apart' : ∀ name ∈ Assoc.keys labels', name ∉ Assoc.keys labels :=
    fun name there here => apart name here there
  obtain ⟨room, all⟩ := packLines_each.mp one.packed
  obtain ⟨_, all'⟩ := packLines_each.mp two.packed
  refine ⟨?_, ?_, one.read.append two.read apart', ?_, packLines_each.mpr ⟨room, ?_⟩⟩
  · refine one.readable.append two.readable ?_
    rwa [← one.read.declared, ← two.read.declared]
  · intro on
    exact List.forall_mem_append.mpr ⟨one.printable on, two.printable on⟩
  · refine List.rel_append (one.resolved.imp fun _ _ resolves => resolves.labels_append _) ?_
    rw [List.forall₂_map_left_iff, List.forall₂_map_right_iff]
    exact two.resolved.imp fun _ _ resolves => resolves.moved apart' before.length first.length
  · refine List.rel_append all ?_
    rw [List.forall₂_map_left_iff]
    exact all'.imp fun line _ packs => (line.moved_alike before.length first.length).word packs

end

/-- Files that assemble on their own and share no label assemble one after the other: to the words
of both, with the labels of the second moved down by the lines of the first. -/
theorem assembly_relocatable [Machine] (layout : Layout) (symbols : SymbolTable)
    (debug verbose : Bool) {first second : List String} {one two : Image}
    (done : (assembleStream layout symbols debug verbose first).result = .ok one)
    (done' : (assembleStream layout symbols debug verbose second).result = .ok two)
    (apart : ∀ label ∈
      Assoc.keys (assembleStream layout symbols debug verbose first).builder.labels,
      label ∉ Assoc.keys (assembleStream layout symbols debug verbose second).builder.labels) :
    let above := (assembleStream layout symbols debug verbose first).builder
    let below := (assembleStream layout symbols debug verbose second).builder
    let outcome := assembleStream layout symbols debug verbose (first ++ second)
    ∃ whole, outcome.result = .ok whole ∧ whole.words = one.words ++ two.words ∧
      outcome.builder.labels = above.labels ++
        below.labels.map fun entry => (entry.1, .int (entry.2.toInt + above.lines.length)) := by
  intro above below outcome
  obtain ⟨before, words, assembles, rfl⟩ := assembles_of_ok done
  obtain ⟨before', words', assembles', rfl⟩ := assembles_of_ok done'
  obtain ⟨result, _, labels⟩ := (assembles.append assembles' apart).result verbose
  refine ⟨_, result, rfl, ?_⟩
  rw [← assembles.resolved.length_eq]
  exact labels

/-- Each file branches forward to a label of its own, across a blank line in the first. -/
theorem assembly_relocatable_two_branches :
    let symbols : SymbolTable := [("OP_ADD", some (.int 5))]
    let first := ["label_start OP_=0b101 offset_end", "", "OP_ADD label_end"]
    let second := ["OP_=1 offset_last", "OP_ADD", "label_last OP_=2"]
    ∃ whole,
      (assembleStream Layout.small symbols true false (first ++ second)).result = .ok whole ∧
      whole.words = ["0001101", "0000101", "0010001", "0000101", "0000010"] ∧
      (assembleStream Layout.small symbols true false (first ++ second)).builder.labels =
        [("start", .int 0), ("end", .int 1), ("last", .int 4)] := by
  intro symbols first second
  have done : (assembleStream Layout.small symbols true false first).result =
      .ok ⟨.int 2, .int 7, ["0001101", "0000101"]⟩ := by decide +kernel
  have done' : (assembleStream Layout.small symbols true false second).result =
      .ok ⟨.int 4, .int 7, ["0010001", "0000101", "0000010"]⟩ := by decide +kernel
  have labels : (assembleStream Layout.small symbols true false first).builder.labels =
      [("start", .int 0), ("end", .int 1)] := by decide +kernel
  have labels' : (assembleStream Layout.small symbols true false second).builder.labels =
      [("last", .int 2)] := by decide +kernel
  have lines : (assembleStream Layout.small symbols true false first).builder.lines.length = 2 := by
    decide +kernel
  have apart : ∀ label ∈
      Assoc.keys (assembleStream Layout.small symbols true false first).builder.labels,
      label ∉
        Assoc.keys (assembleStream Layout.small symbols true false second).builder.labels := by
    rw [labels, labels']
    decide
  obtain ⟨whole, result, words, table⟩ :=
    assembly_relocatable Layout.small symbols true false done done' apart
  rw [labels, labels', lines] at table
  exact ⟨whole, result, words, table⟩

end Microcode
