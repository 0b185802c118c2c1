import Microcode.Header
import Microcode.Layout.Reader
import Microcode.Listing
import Microcode.Stream

/-!
Assembling a program: from the lines of a layout file and of a stream file to the three output
texts.
-/
namespace Microcode

/-- The result of a call together with the builder after it; a failure keeps what was logged. -/
def Outcome.toLogged {α : Type} (outcome : Outcome α) : Logged Error (α × Builder) :=
  ⟨outcome.events, outcome.result.map fun a => (a, outcome.builder)⟩

def defaultPcWidth : Value := .int 9

structure AssemblyOptions where
  fill : Bool := false
  /-- The width of address constants, copied into the header as it was given. -/
  pcWidth : Datum := .value defaultPcWidth
  verbose : Bool := false
  debug : Bool := false

structure Assembly where
  /-- How many lines the stream file left committed. -/
  count : Nat
  builder : Builder
  image : Image
  imageText : String
  header : String
  listing : String
  deriving DecidableEq, Repr

def assemble [Machine] (layoutLines streamLines : List String) (options : AssemblyOptions) :
    Logged Error Assembly := do
  let (layout, symbols) ← readLayout layoutLines options.verbose
  let fresh := Builder.fresh (some layout) symbols options.debug
  let (count, builder) ← (fresh.readStream streamLines options.verbose).toLogged
  let (image, builder) ← builder.finalize.toLogged
  let imageText ← Logged.ofExcept (image.text options.fill)
  let header ← Logged.ofExcept (builder.header options.pcWidth)
  let listing ← Logged.ofExcept (builder.listing image)
  return { count, builder, image, imageText, header, listing }

end Microcode
