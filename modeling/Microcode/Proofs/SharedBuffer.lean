import Microcode.Proofs.Packing

/-!
One buffer for many lines. A line is packed into a buffer that may hold anything: it is cleared
first, and whatever becomes of the line, it keeps its length. So nothing goes over from one line to
the next, not even from a line that failed in the middle of a field, and a shared buffer does what
a fresh one for each line would do.
-/
namespace Microcode

/-- A line to be packed, with the layout and the symbols it is packed by. -/
structure PackRequest where
  layout : Layout
  symbols : SymbolTable
  line : Line

namespace PackRequest

def run (request : PackRequest) (bits : Bits) : Bits × Except Error String :=
  packLine request.layout request.symbols request.line bits

/-- The outcomes of requests that share a buffer, whatever becomes of each. -/
def runEach : List PackRequest → Bits → List (Bits × Except Error String)
  | [], _ => []
  | request :: rest, bits => request.run bits :: runEach rest (request.run bits).1

end PackRequest

theorem PackRequest.run_fresh (request : PackRequest) (bits : Bits) :
    request.run bits = request.run (Bits.zeros bits.size) :=
  packLine_congr _ _ _ Array.size_replicate.symm

/-- What one request leaves behind is of the same length as what it found, and this is all that the
next one sees of it. -/
theorem PackRequest.runEach_fresh (requests : List PackRequest) (bits : Bits) :
    runEach requests bits = requests.map fun request => request.run (Bits.zeros bits.size) := by
  induction requests generalizing bits with
  | nil => rfl
  | cons request rest ih =>
    have size : (request.run bits).1.size = bits.size := packLine_size _ _ _ _
    rw [runEach, ih, size, List.map_cons, ← request.run_fresh]

section

variable (layout : Layout) (symbols : SymbolTable)

theorem packEach_runEach (lines : List Line) (bits : Bits) :
    (packEach layout symbols lines bits).2 =
      (PackRequest.runEach (lines.map fun line => ⟨layout, symbols, line⟩) bits).map Prod.snd := by
  induction lines generalizing bits with
  | nil => rfl
  | cons line rest ih => exact congrArg _ (ih (packLine layout symbols line bits).1)

theorem packFrom_mapM (lines : List Line) {bits : Bits} (size : bits.size = layout.width) :
    packFrom layout symbols lines bits = lines.mapM (Line.word layout symbols) := by
  induction lines generalizing bits with
  | nil => rfl
  | cons line rest ih =>
    obtain ⟨word, size'⟩ := packLine_word symbols line size
    rw [packFrom, List.mapM_cons, ← word]
    split <;> rename_i packed <;> rw [packed]
    · rfl
    · rw [packed] at size'
      rw [ih size']
      cases rest.mapM (Line.word layout symbols) <;> rfl

end

/-- A shared buffer carries nothing over. What it held does not matter for the word or the error of
a line nor for what is in the buffer afterwards; so of any requests that share a buffer each one
ends as it does on a buffer of zeros, and lines are packed as if each of them had a buffer of its
own. -/
theorem shared_buffer_carries_nothing [Machine] :
    (∀ (layout : Layout) (symbols : SymbolTable) (line : Line) (bits bits' : Bits),
      bits.size = bits'.size →
        packLine layout symbols line bits = packLine layout symbols line bits') ∧
    (∀ (requests : List PackRequest) (bits : Bits),
      PackRequest.runEach requests bits =
        requests.map fun request => request.run (Bits.zeros bits.size)) ∧
    (∀ (layout : Layout) (symbols : SymbolTable) (lines : List Line) (bits : Bits),
      (packEach layout symbols lines bits).2 =
        lines.map fun line => (packLine layout symbols line (Bits.zeros bits.size)).2) ∧
    ∀ (layout : Layout) (symbols : SymbolTable) (lines : List Line),
      packLines layout symbols lines = (Capacity.buffer layout.width >>= fun _ =>
        lines.mapM fun line => (packLine layout symbols line (Bits.zeros layout.width)).2) := by
  refine ⟨?_, PackRequest.runEach_fresh, ?_, ?_⟩
  · intro layout symbols line bits bits' size
    exact packLine_congr layout symbols line size
  · intro layout symbols lines bits
    rw [packEach_runEach, PackRequest.runEach_fresh, List.map_map, List.map_map]
    rfl
  · intro layout symbols lines
    have cleared : (Bits.zeros layout.width).size = layout.width := Array.size_replicate
    rw [packLines, packFrom_mapM layout symbols lines cleared]
    rfl

/-- A branch that runs over the end of a short buffer, and a symbol that is missing after another
field was written: the line behind them is packed as if they had not been. -/
theorem shared_buffer_carries_nothing_after_failures :
    let cut : Line := ⟨.int 0, none,
      [("OP_", .literal (.int 7)), ("PROCEDURE_", .literal (.int 15))], none⟩
    let missing : Line := ⟨.int 1, none,
      [("PROCEDURE_", .symbol "PROCEDURE_X"), ("OP_", .literal (.int 5))], none⟩
    let plain : Line := ⟨.int 2, none, [("OP_", .literal (.int 2))], none⟩
    let bits : Bits := #[.flag true, .int 9, .int (-1), .int 1, .int 0]
    bits.size = (Bits.zeros 5).size ∧
      packLine Layout.small [] cut bits =
        (#[.int 1, .int 1, .int 1, .int 1, .int 1], .error .bitOutOfRange) ∧
      (packEach Layout.small [] [cut, missing, plain] bits).2 =
        [.error .bitOutOfRange, .error (.fault ⟨.unknownSymbol "PROCEDURE_X", some (.int 1), none⟩),
          .ok "00010"] := by
  intro cut missing plain bits
  obtain ⟨same, _, each, _⟩ := shared_buffer_carries_nothing
  refine ⟨rfl, ?_, ?_⟩
  · rw [same Layout.small [] cut bits (Bits.zeros 5) rfl]
    decide +kernel
  · rw [each Layout.small [] [cut, missing, plain] bits]
    decide +kernel

end Microcode
