import Microcode.Proofs.Consistency
import Microcode.Proofs.Packing
import Mathlib.Algebra.Order.BigOperators.Group.List
import Mathlib.Algebra.Order.Group.Nat

/-!
What `finalize` gives. A branch that cannot be resolved comes first, then a word too wide for any
memory, then a symbol without a value; otherwise there is an image. The conditions are read off the
lines as they were built, since resolving changes no symbol and leaves no label.
-/
namespace Microcode

/-- The lines that are packed: those committed, and the pending one unless it is empty. -/
def Builder.flushed (b : Builder) : List Line :=
  if b.current.tokens = [] then b.lines else b.lines ++ [b.current]

inductive BadBranch (labels : Labels) (line : Line) : Fault → Prop where
  | undeclared {stem name : String} (held : (stem, Token.label name) ∈ line.tokens)
      (absent : labels.lookup name = none) :
      BadBranch labels line ⟨.unresolvedLabel name, line.index, line.source⟩
  | outOfReach {stem name : String} {target : Value} {d : Int}
      (held : (stem, Token.label name) ∈ line.tokens)
      (declared : labels.lookup name = some target)
      (distance : target.toInt - line.index.toInt = d) (far : d < 0 ∨ 15 < d) :
      BadBranch labels line ⟨.labelOutOfRange name d target, line.index, line.source⟩

inductive MissingSymbol (symbols : SymbolTable) (line : Line) (f : Field) : Fault → Prop where
  | mk {name : String} (held : line.tokens.lookup f.stem = some (.symbol name))
      (absent : symbols.value? name = none) :
      MissingSymbol symbols line f ⟨.unknownSymbol name, line.index, line.source⟩

/-- The least power of two that is not below a count. -/
def LeastPower (count : Nat) (depth : Value) : Prop :=
  ∃ k : Nat, depth = .int (2 ^ k : Nat) ∧ count ≤ 2 ^ k ∧ ∀ j : Nat, count ≤ 2 ^ j → 2 ^ k ≤ 2 ^ j

/-- What closing a builder gives; the conditions of any two cases exclude each other. -/
inductive Finalized [Machine] (layout : Layout) (b : Builder) : Except Error Image → Prop where
  | badBranch {line : Line} {fault : Fault}
      (first : First (fun l => ∃ f, BadBranch b.labels l f) b.flushed line)
      (why : BadBranch b.labels line fault) :
      Finalized layout b (.error fault.report)
  | noMemory {e : Error}
      (reached : ∀ line ∈ b.flushed, ∀ fault, ¬ BadBranch b.labels line fault)
      (full : Machine.memoryLimit < layout.width * 8)
      (why : Capacity.buffer layout.width = .error e) :
      Finalized layout b (.error e)
  | missingSymbol {line : Line} {f : Field} {fault : Fault}
      (reached : ∀ line ∈ b.flushed, ∀ fault, ¬ BadBranch b.labels line fault)
      (room : layout.width * 8 ≤ Machine.memoryLimit)
      (first : First (fun l => ∃ g ∈ layout.fields, ∃ e, MissingSymbol b.symbols l g e)
        b.flushed line)
      (field : First (fun g => ∃ e, MissingSymbol b.symbols line g e) layout.fields f)
      (why : MissingSymbol b.symbols line f fault) :
      Finalized layout b (.error fault.report)
  | packed {image : Image}
      (reached : ∀ line ∈ b.flushed, ∀ fault, ¬ BadBranch b.labels line fault)
      (room : layout.width * 8 ≤ Machine.memoryLimit)
      (known : ∀ line ∈ b.flushed, ∀ f ∈ layout.fields, ∀ e, ¬ MissingSymbol b.symbols line f e)
      (count : image.words.length = b.flushed.length)
      (digits : ∀ word ∈ image.words,
        word.toList.length = layout.width ∧ ∀ c ∈ word.toList, c = '0' ∨ c = '1')
      (width : image.width = layout.size)
      (depth : LeastPower image.words.length image.depth) :
      Finalized layout b (.ok image)

/-! The depth of a memory. -/

theorem doubleUntil_power (count k : Nat) (positive : 0 < 2 ^ k)
    (needed : ∀ j : Nat, count ≤ 2 ^ j → k ≤ j) :
    ∃ m : Nat, doubleUntil count (2 ^ k) positive = 2 ^ m ∧ count ≤ 2 ^ m ∧
      ∀ j : Nat, count ≤ 2 ^ j → m ≤ j := by
  -- every doubling brings the depth nearer to the count
  induction left : count - 2 ^ k using Nat.strongRecOn generalizing k with
  | ind n ih =>
    rw [doubleUntil]
    split
    · rename_i short
      have next : ∀ j : Nat, count ≤ 2 ^ j → k + 1 ≤ j := by
        intro j enough
        have apart : k ≠ j := by
          rintro rfl
          omega
        have above := needed j enough
        omega
      have same : 2 ^ k * 2 = 2 ^ (k + 1) := (Nat.pow_succ 2 k).symm
      simp only [same]
      exact ih (count - 2 ^ (k + 1)) (by omega) (k + 1) _ next rfl
    · rename_i enough
      exact ⟨k, rfl, Nat.le_of_not_lt enough, needed⟩

theorem romDepth_least (count : Nat) : LeastPower count (romDepth count) := by
  obtain ⟨m, depth, enough, least⟩ :=
    doubleUntil_power count 0 (by decide) fun j _ => Nat.zero_le j
  refine ⟨m, congrArg (fun n : Nat => Value.int n) depth, enough, ?_⟩
  intro j reached
  exact Nat.pow_le_pow_right (by decide) (least j reached)

/-! The room for a word. -/

namespace Capacity

theorem buffer_ok_iff [Machine] {width : Nat} :
    buffer width = .ok () ↔ width * 8 ≤ Machine.memoryLimit := by
  unfold buffer cells fitsBytes
  have low : ¬ (width : Int) < -countLimit := by
    unfold countLimit
    omega
  by_cases huge : countLimit ≤ (width : Int)
  · rw [if_pos (.inr huge)]
    have count : countLimit = 9223372036854775808 := rfl
    have bytes := Machine.memoryLimit_lt
    constructor
    · intro impossible
      cases impossible
    · omega
  · rw [if_neg (not_or.mpr ⟨low, huge⟩), Int.toNat_natCast]
    split
    · rename_i full
      constructor
      · intro impossible
        cases impossible
      · omega
    · rename_i room
      exact ⟨fun _ => Nat.le_of_not_lt room, fun _ => rfl⟩

theorem word_ok [Machine] {width : Int} (positive : 0 ≤ width)
    (room : width.toNat * 8 ≤ Machine.memoryLimit) : word width = .ok () := by
  have count : countLimit = 9223372036854775808 := rfl
  have bytes := Machine.memoryLimit_lt
  unfold word cells fitsBytes
  rw [if_neg (by omega), if_neg (by omega)]

theorem buffer_error [Machine] {width : Int} {e : Error} (full : buffer width = .error e) :
    e = .countTooLarge ∨ e = .outOfMemory := by
  unfold buffer cells fitsBytes at full
  split at full
  · exact .inl (Except.error.inj full).symm
  · split at full
    · exact .inr (Except.error.inj full).symm
    · cases full

end Capacity

/-! Bad branches and missing symbols, before and after resolving. -/

namespace Line.Sound

variable {layout : Layout} {labels : Labels} {line line' : Line}

theorem branchFault?_iff (sound : line.Sound layout labels) {fault : Fault} :
    line.branchFault? labels = some fault ↔ BadBranch labels line fault := by
  constructor
  · intro bad
    unfold Line.branchFault? at bad
    split at bad
    · cases bad
    · rename_i name pending
      have held := Assoc.mem_of_lookup (Line.pendingLabel_eq_some.mp pending)
      split at bad
      · rename_i absent
        cases bad
        exact .undeclared held absent
      · rename_i target declared
        dsimp only at bad
        split at bad
        · rename_i far
          cases bad
          exact .outOfReach held declared rfl far
        · cases bad
  · intro bad
    have pending : ∀ {stem name}, (stem, Token.label name) ∈ line.tokens →
        line.pendingLabel? = some name := by
      intro stem name held
      have there := Assoc.lookup_of_mem sound.stems_once held
      rw [(sound.labels_branch stem name held).1] at there
      exact Line.pendingLabel_eq_some.mpr there
    unfold Line.branchFault?
    cases bad with
    | undeclared held absent => simp only [pending held, absent]
    | outOfReach held declared distance far =>
      subst distance
      simp only [pending held, declared]
      exact if_pos far

/-- A token of a resolved line stands for no number only if it is a symbol without a value. -/
theorem number_error {symbols : SymbolTable} {stem : String} {token : Token} {e : Error}
    (sound : line.Sound layout labels) (settled : line.pendingLabel? = none)
    (held : line.tokens.lookup stem = some token)
    (failed : token.number symbols line stem = .error e) :
    ∃ name, token = .symbol name ∧ symbols.value? name = none ∧
      e = Fault.report ⟨.unknownSymbol name, line.index, line.source⟩ := by
  cases token with
  | literal v => cases failed
  | symbol name =>
    simp only [Token.number] at failed
    split at failed
    · cases failed
    · rename_i absent
      cases failed
      exact ⟨name, rfl, absent, rfl⟩
  | label name =>
    exact absurd (Assoc.mem_of_lookup held) (sound.no_label_of_settled settled stem name)

end Line.Sound

theorem Line.Settles.lookup_symbol {labels : Labels} {line line' : Line}
    (step : line.Settles labels line') (stem name : String) :
    line'.tokens.lookup stem = some (.symbol name) ↔
      line.tokens.lookup stem = some (.symbol name) := by
  cases step with
  | same => exact Iff.rfl
  | branch pending reached =>
    simp only [Line.setBranch, Assoc.lookup_put]
    split
    · rename_i here
      subst here
      rw [Line.pendingLabel_eq_some.mp pending]
      simp
    · exact Iff.rfl

theorem unpackable_iff_missing {layout : Layout} {labels : Labels} {line line' : Line}
    (symbols : SymbolTable) (step : line.Settles labels line') (sound : line'.Sound layout labels)
    (settled : line'.pendingLabel? = none) (f : Field) :
    Unpackable symbols line' f ↔ ∃ fault, MissingSymbol symbols line f fault := by
  constructor
  · rintro ⟨token, e, held, failed⟩
    obtain ⟨name, rfl, absent, _⟩ := sound.number_error settled held failed
    exact ⟨_, .mk ((step.lookup_symbol f.stem name).mp held) absent⟩
  · rintro ⟨_, @⟨name, held, absent⟩⟩
    have stands : (Token.symbol name).number symbols line' f.stem =
        .error (Fault.report ⟨.unknownSymbol name, line'.index, line'.source⟩) := by
      simp only [Token.number, absent]
    exact ⟨.symbol name, _, (step.lookup_symbol f.stem name).mpr held, stands⟩

/-! Packing the lines that a run of `resolve` leaves. -/

theorem committed_lines (b : Builder) : b.committed.lines = b.flushed := by
  unfold Builder.committed Builder.flushed
  simp only [List.isEmpty_iff]
  split <;> rfl

theorem committed_symbols (b : Builder) : b.committed.symbols = b.symbols := by
  unfold Builder.committed
  split <;> rfl

theorem packLines_resolved [Machine] {layout : Layout} {labels : Labels} {lines : List Line}
    (sound : layout.Sound) (symbols : SymbolTable) (room : layout.width * 8 ≤ Machine.memoryLimit)
    (each : ∀ line ∈ (resolve labels lines).1,
      line.Sound layout labels ∧ line.pendingLabel? = none) :
    (∃ words, packLines layout symbols (resolve labels lines).1 = .ok words ∧
      List.Forall₂ (Packs layout symbols) (resolve labels lines).1 words ∧
      ∀ line ∈ lines, ∀ f ∈ layout.fields, ∀ fault, ¬ MissingSymbol symbols line f fault) ∨
    ∃ line f fault,
      First (fun l => ∃ g ∈ layout.fields, ∃ e, MissingSymbol symbols l g e) lines line ∧
      First (fun g => ∃ e, MissingSymbol symbols line g e) layout.fields f ∧
      MissingSymbol symbols line f fault ∧
      packLines layout symbols (resolve labels lines).1 = .error fault.report := by
  have buffer := Capacity.buffer_ok_iff.mpr room
  have same : List.Forall₂
      (fun l l' => l.Settles labels l' ∧ l'.Sound layout labels ∧ l'.pendingLabel? = none)
      lines (resolve labels lines).1 := by
    have settles := resolve_settles labels lines
    generalize (resolve labels lines).1 = lines' at settles each
    induction settles with
    | nil => exact .nil
    | cons step _ ih =>
      obtain ⟨here, later⟩ := List.forall_mem_cons.mp each
      exact .cons ⟨step, here⟩ (ih later)
  have missing : ∀ l l', (l.Settles labels l' ∧ l'.Sound layout labels ∧ l'.pendingLabel? = none) →
      ((∃ g ∈ layout.fields, ∃ e, MissingSymbol symbols l g e) ↔
        ∃ g ∈ layout.fields, Unpackable symbols l' g) := by
    rintro l l' ⟨step, sound', settled⟩
    simp only [unpackable_iff_missing symbols step sound' settled]
  have cleared : (Bits.zeros layout.width).size = layout.width := Array.size_replicate
  have packed := packFrom_result sound symbols (resolve labels lines).1 cleared
  simp only [packLines, buffer, ok_bind]
  rcases packed with ⟨words, done, all⟩ | ⟨line', f, token, e, first, first', held, why, failed⟩
  · refine .inl ⟨words, done, all, ?_⟩
    intro line member f declared fault absent
    obtain ⟨i, here⟩ := List.mem_iff_getElem?.mp member
    obtain ⟨line', here', step, sound', settled⟩ := along_at same.flip here
    obtain ⟨token, e, held, why⟩ :=
      (unpackable_iff_missing symbols step sound' settled f).mpr ⟨fault, absent⟩
    obtain ⟨word, _, after, packs, _⟩ := along_at all.flip here'
    obtain ⟨v, number, _⟩ := packs.written f declared token held
    cases number.symm.trans why
  · obtain ⟨line, found, step, sound', settled⟩ := First.along missing same first
    obtain ⟨name, rfl, absent, rfl⟩ := sound'.number_error settled held why
    refine .inr ⟨line, f, ⟨.unknownSymbol name, line.index, line.source⟩, found, ?_, ?_, ?_⟩
    · exact first'.congr fun g _ => unpackable_iff_missing symbols step sound' settled g
    · exact .mk ((step.lookup_symbol f.stem name).mp held) absent
    · rw [failed, step.index_eq, step.source_eq]

/-! Every case of `finalize`. -/

section

variable {layout : Layout} {b : Builder}

def Builder.settled (b : Builder) : List Line := (resolve b.labels b.flushed).1

theorem settled_eq (b : Builder) : b.committed.resolveBranches.builder.lines = b.settled := by
  unfold Builder.settled
  rw [← Builder.committed_labels, ← committed_lines]
  rfl

theorem finalize_result [Machine] (given : b.layout = some layout)
    (unresolved : b.resolved = false) :
    b.finalize.result =
      match (resolve b.labels b.flushed).2 with
      | .ok _ => (packLines layout b.symbols b.settled).map (Image.ofWords layout.size)
      | .error e => .error e := by
  have check : b.checkFinalize = .ok layout :=
    (Builder.checkFinalize_ok_iff given).mpr ⟨rfl, unresolved⟩
  have result : b.committed.resolveBranches.result = (resolve b.labels b.flushed).2 := by
    rw [← Builder.committed_labels, ← committed_lines]
    rfl
  have symbols : b.committed.resolveBranches.builder.symbols = b.symbols := committed_symbols b
  simp only [Builder.finalize, check, Outcome.andThen, result]
  split <;> rename_i outcome <;> rw [outcome]
  simp only [Builder.done, settled_eq, symbols]

theorem settled_sound (sound : b.Sound layout) (unresolved : b.resolved = false) :
    ∀ line ∈ b.settled, line.Sound layout b.labels := by
  rw [← settled_eq, ← Builder.committed_labels]
  exact (sound.committed unresolved).resolve.lines_sound

theorem flushed_sound (sound : b.Sound layout) (unresolved : b.resolved = false) :
    ∀ line ∈ b.flushed, line.Sound layout b.labels := by
  rw [← committed_lines, ← Builder.committed_labels]
  exact (sound.committed unresolved).lines_sound

theorem finalize_finalized [Machine] (laid : layout.Sound) (sound : b.Sound layout)
    (unresolved : b.resolved = false) : Finalized layout b b.finalize.result := by
  have iff : ∀ line ∈ b.flushed, ∀ {fault},
      line.branchFault? b.labels = some fault ↔ BadBranch b.labels line fault :=
    fun line member => (flushed_sound sound unresolved line member).branchFault?_iff
  rw [finalize_result sound.layout_given unresolved]
  rcases resolve_result b.labels b.flushed with
    ⟨count, done, clear, settled⟩ | ⟨line, fault, first, why, failed⟩
  · have reached : ∀ line ∈ b.flushed, ∀ fault, ¬ BadBranch b.labels line fault := by
      intro line member fault bad
      cases (clear line member).symm.trans ((iff line member).mpr bad)
    simp only [done]
    by_cases room : layout.width * 8 ≤ Machine.memoryLimit
    · have packing := packLines_resolved laid b.symbols room
        fun line member => ⟨settled_sound sound unresolved line member, settled line member⟩
      rcases packing with ⟨words, packed, all, known⟩ | ⟨line, f, fault, first, field, why, failed⟩
      · rw [Builder.settled, packed]
        have length : words.length = b.flushed.length := by
          rw [← all.length_eq, ← (resolve_settles b.labels b.flushed).length_eq]
        refine .packed reached room known length ?_ rfl (romDepth_least words.length)
        intro word member
        obtain ⟨i, here⟩ := List.mem_iff_getElem?.mp member
        obtain ⟨line, _, packs⟩ := along_at all here
        exact packs.digits
      · rw [Builder.settled, failed]
        exact .missingSymbol reached room first field why
    · cases full : Capacity.buffer layout.width with
      | ok u => exact absurd (Capacity.buffer_ok_iff.mp full) room
      | error e =>
        simp only [packLines, full, error_bind]
        exact .noMemory reached (Nat.lt_of_not_le room) full
  · simp only [failed]
    refine .badBranch (first.congr ?_) ((iff line first.mem).mp why)
    intro l member
    rw [Option.isSome_iff_exists]
    exact exists_congr fun f => iff l member

theorem finalize_image [Machine] {image : Image} (given : b.layout = some layout)
    (accepted : b.finalize.result = .ok image) :
    b.resolved = false ∧ (∀ line ∈ b.settled, line.pendingLabel? = none) ∧
      ∃ words, packLines layout b.symbols b.settled = .ok words ∧
        image = Image.ofWords layout.size words := by
  have unresolved : b.resolved = false := by
    cases check : b.checkFinalize with
    | error e =>
      rw [Builder.finalize, check] at accepted
      cases accepted
    | ok l => exact ((Builder.checkFinalize_ok_iff given).mp check).2
  rw [finalize_result given unresolved] at accepted
  rcases resolve_result b.labels b.flushed with
    ⟨count, done, clear, settled⟩ | ⟨line, fault, first, why, failed⟩
  · simp only [done] at accepted
    cases packed : packLines layout b.symbols b.settled with
    | error e =>
      rw [packed] at accepted
      cases accepted
    | ok words =>
      rw [packed] at accepted
      exact ⟨unresolved, settled, words, rfl, (Except.ok.inj accepted).symm⟩
  · rw [failed] at accepted
    cases accepted

theorem finalize_packs [Machine] {image : Image} (laid : layout.Sound) (sound : b.Sound layout)
    (accepted : b.finalize.result = .ok image) :
    b.resolved = false ∧ layout.width * 8 ≤ Machine.memoryLimit ∧
      (∀ line ∈ b.settled, line.pendingLabel? = none) ∧
      List.Forall₂ (Packs layout b.symbols) b.settled image.words := by
  obtain ⟨unresolved, settled, words, packed, rfl⟩ := finalize_image sound.layout_given accepted
  obtain ⟨room, all⟩ := (packLines_ok_iff laid).mp packed
  exact ⟨unresolved, Capacity.buffer_ok_iff.mp room, settled, all⟩

end

/-! Faults that can be printed: addresses and source lines are bounded by the size of a session. -/

structure Builder.SourcedBy (marks : Value → Prop) (b : Builder) : Prop where
  reading : ∀ v, b.sourceLine = some v → marks v
  pending : ∀ v, b.current.source = some v → marks v
  lines : ∀ line ∈ b.lines, ∀ v, line.source = some v → marks v

namespace Builder.SourcedBy

variable {layout : Layout} {marks : Value → Prop} {b c : Builder}

theorem withToken (sourced : b.SourcedBy marks) (stem : String) (token : Token) :
    (b.withToken stem token).SourcedBy marks := by
  refine { sourced with pending := ?_ }
  intro v here
  simp only [Builder.withToken] at here
  split at here
  · exact sourced.reading v here
  · exact sourced.pending v here

theorem committed (sourced : b.SourcedBy marks) : b.committed.SourcedBy marks := by
  unfold Builder.committed
  split
  · exact sourced
  · refine ⟨sourced.reading, ?_, ?_⟩
    · intro v impossible
      cases impossible
    · intro line member v here
      rcases List.mem_append.mp member with old | new
      · exact sourced.lines line old v here
      · rw [List.mem_singleton.mp new] at here
        exact sourced.pending v here

theorem change (step : Change layout marks b c) (sourced : b.SourcedBy marks) :
    c.SourcedBy marks := by
  cases step with
  | source line known => exact { sourced with reading := known }
  | token stem token _ _ _ => exact sourced.withToken stem token
  | branch label _ _ _ =>
    have stored := sourced.withToken branchStem (.label label)
    exact ⟨stored.reading, stored.pending, stored.lines⟩
  | commit _ => exact sourced.committed
  | resolve =>
    refine ⟨sourced.reading, sourced.pending, ?_⟩
    intro line' member v here
    obtain ⟨i, after⟩ := List.mem_iff_getElem?.mp member
    obtain ⟨line, before, step⟩ := resolve_line_at after
    rw [step.source_eq] at here
    exact sourced.lines line (List.mem_of_getElem? before) v here
  | _ => exact ⟨sourced.reading, sourced.pending, sourced.lines⟩

theorem afterCalls [Machine] {calls : List Call} (layout : Layout) (symbols : SymbolTable)
    (debug : Bool) {limit : Nat} (size : sessionSize calls ≤ limit) :
    ((fresh (some layout) symbols debug).afterCalls calls).SourcedBy
      fun v => ∃ k : Nat, k ≤ limit ∧ v = .int k := by
  have within : ∀ call ∈ calls, ∀ a ∈ call.acts,
      a.Within fun v => ∃ k : Nat, k ≤ limit ∧ v = .int k := by
    intro call made
    have small : call.size ≤ sessionSize calls :=
      List.le_sum_of_mem (List.mem_map_of_mem made)
    exact Call.acts_within (Nat.le_trans small size)
  have given : (fresh (some layout) symbols debug).layout = some layout := rfl
  refine (afterCalls_evolves given within).invariant change ⟨?_, ?_, ?_⟩
  · intro v impossible
    cases impossible
  · intro v impossible
    cases impossible
  · intro line impossible
    cases impossible

end Builder.SourcedBy

structure Line.Below (limit : Nat) (line : Line) : Prop where
  index : ∃ i : Nat, i ≤ limit ∧ line.index = .int i
  source : ∀ v, line.source = some v → ∃ k : Nat, k ≤ limit ∧ v = .int k

theorem Line.Below.numbers {limit : Nat} {line : Line} (below : line.Below limit) :
    ∀ n ∈ ((some line.index).toList ++ line.source.toList).flatMap Value.numbers,
      n.natAbs ≤ limit := by
  obtain ⟨i, small, index⟩ := below.index
  intro n member
  rw [index, List.flatMap_append] at member
  rcases List.mem_append.mp member with address | source
  · have here : n = i := by simpa [Value.numbers] using address
    omega
  · cases from_ : line.source with
    | none => simp [from_] at source
    | some v =>
      obtain ⟨k, small', rfl⟩ := below.source v from_
      have here : n = k := by simpa [from_, Value.numbers] using source
      omega

theorem report_of_fits {fault : Fault} (fit : ∀ n ∈ fault.numbers, Numeral.fits n = true) :
    fault.report = .fault fault := by
  unfold Fault.report
  rw [if_pos (List.all_eq_true.mpr fit)]

theorem report_of_small {fault : Fault} {limit : Nat}
    (small : ∀ n ∈ fault.numbers, n.natAbs ≤ limit)
    (short : limit < 10 ^ Numeral.maxDigits) : fault.report = .fault fault := by
  apply report_of_fits
  intro n member
  exact fits_iff.mpr (Nat.lt_of_le_of_lt (small n member) short)

theorem BadBranch.small {labels : Labels} {line : Line} {fault : Fault} {limit : Nat}
    (bad : BadBranch labels line fault) (below : line.Below limit)
    (targets : ∀ entry ∈ labels, ∃ n : Nat, n ≤ limit ∧ entry.2 = .int n) :
    ∀ n ∈ fault.numbers, n.natAbs ≤ limit := by
  intro n member
  cases bad with
  | undeclared held absent =>
    rcases List.mem_append.mp member with place | none
    · exact below.numbers n place
    · cases none
  | @outOfReach _ name target d held declared distance far =>
    obtain ⟨m, small, value⟩ := targets _ (Assoc.mem_of_lookup declared)
    obtain ⟨i, small', index⟩ := below.index
    have value' : target = .int m := value
    subst value'
    rw [index] at distance
    simp only [Value.toInt] at distance
    rcases List.mem_append.mp member with place | cause
    · exact below.numbers n place
    · have here : n = d ∨ n = m := by simpa [Cause.numbers, Value.numbers] using cause
      omega

theorem MissingSymbol.small {symbols : SymbolTable} {line : Line} {f : Field} {fault : Fault}
    {limit : Nat} (missing : MissingSymbol symbols line f fault) (below : line.Below limit) :
    ∀ n ∈ fault.numbers, n.natAbs ≤ limit := by
  intro n member
  cases missing with
  | mk held absent =>
    rcases List.mem_append.mp member with place | none
    · exact below.numbers n place
    · cases none

theorem Finalized.printable [Machine] {layout : Layout} {b : Builder} {result : Except Error Image}
    {limit : Nat}
    (outcome : Finalized layout b result) (below : ∀ line ∈ b.flushed, line.Below limit)
    (targets : ∀ entry ∈ b.labels, ∃ n : Nat, n ≤ limit ∧ entry.2 = .int n)
    (short : limit < 10 ^ Numeral.maxDigits) : result ≠ .error .tooLongToPrint := by
  intro impossible
  cases outcome with
  | @badBranch line fault first why =>
    rw [report_of_small (why.small (below line first.mem) targets) short] at impossible
    cases impossible
  | noMemory reached full why =>
    cases impossible
    rcases Capacity.buffer_error why with same | same <;> cases same
  | @missingSymbol line f fault reached room first field why =>
    rw [report_of_small (why.small (below line first.mem)) short] at impossible
    cases impossible
  | packed => cases impossible

theorem flushed_below {layout : Layout} {b : Builder} {limit : Nat} (sound : b.Sound layout)
    (sourced : b.SourcedBy fun v => ∃ k : Nat, k ≤ limit ∧ v = .int k)
    (length : b.lines.length ≤ limit) : ∀ line ∈ b.flushed, line.Below limit := by
  have committed : ∀ line ∈ b.lines, line.Below limit := by
    intro line member
    obtain ⟨i, here⟩ := List.mem_iff_getElem?.mp member
    have bound := (List.getElem?_eq_some_iff.mp here).1
    exact ⟨⟨i, by omega, sound.numbered i line here⟩, sourced.lines line member⟩
  intro line member
  unfold Builder.flushed at member
  split at member
  · exact committed line member
  · rcases List.mem_append.mp member with old | new
    · exact committed line old
    · rw [List.mem_singleton.mp new]
      exact ⟨⟨b.lines.length, length, sound.next⟩, sourced.pending⟩

/-- Whatever led to an open builder, closing it gives an image, one of three faults at the first
place there is one, or no memory for a word. A session of fewer than `10 ^ maxDigits` calls and
lines of text always gets the fault itself. -/
theorem finalize_outcome [Machine] {layout : Layout} (built : layout.Built) (symbols : SymbolTable)
    (debug : Bool) (calls : List Call)
    (unresolved : ((Builder.fresh (some layout) symbols debug).afterCalls calls).resolved = false) :
    let b := (Builder.fresh (some layout) symbols debug).afterCalls calls
    Finalized layout b b.finalize.result ∧
      (sessionSize calls < 10 ^ Numeral.maxDigits →
        b.finalize.result ≠ .error .tooLongToPrint) := by
  intro b
  have sound : b.Sound layout := Builder.Sound.afterCalls layout symbols debug calls
  have outcome : Finalized layout b b.finalize.result :=
    finalize_finalized built.sound sound unresolved
  refine ⟨outcome, ?_⟩
  intro short
  have length : b.lines.length ≤ sessionSize calls := by
    have given : (Builder.fresh (some layout) symbols debug).layout = some layout := rfl
    have bound := Builder.afterCalls_length_le given calls
    rwa [Builder.fresh, List.length_nil, Nat.zero_add] at bound
  have sourced :=
    Builder.SourcedBy.afterCalls layout symbols debug (Nat.le_refl (sessionSize calls))
  refine outcome.printable (flushed_below sound sourced length) ?_ short
  intro entry member
  obtain ⟨n, within, value⟩ := sound.labels_within entry member
  exact ⟨n, Nat.le_trans within length, value⟩

/-- The pending line holds a symbol that nothing defines, and an earlier line branches to it. -/
theorem finalize_outcome_pending_symbol :
    let calls : List Call :=
      [.assign "OP_ADD", .entry false "offset_end", .entry true "label_end", .assign "OP_SUB"]
    let b := (Builder.fresh (some Layout.small) [("OP_ADD", some (.int 5))] true).afterCalls calls
    Layout.small.Built ∧ b.resolved = false ∧ sessionSize calls < 10 ^ Numeral.maxDigits ∧
      b.flushed.length = 2 ∧ Finalized Layout.small b b.finalize.result ∧
      b.finalize.result ≠ .error .tooLongToPrint := by
  intro calls b
  have unresolved : b.resolved = false := by decide
  have short : sessionSize calls < 10 ^ Numeral.maxDigits :=
    Nat.lt_of_lt_of_le (by decide : sessionSize calls < 10 ^ 1)
      (Nat.pow_le_pow_right (by decide) (by decide))
  have outcome :=
    finalize_outcome Layout.small_built [("OP_ADD", some (.int 5))] true calls unresolved
  exact ⟨Layout.small_built, unresolved, short, by decide, outcome.1, outcome.2 short⟩

end Microcode
