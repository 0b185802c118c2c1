import Microcode.Error

/-!
What a machine can hold. Cells are counted by signed 64-bit numbers, and no object is larger than
the machine allows. Widths are unbounded numbers, so whoever makes something as long as a width asks
here first.
-/
namespace Microcode

/-- A machine, known by the most bytes that one object may take on it. -/
class Machine where
  memoryLimit : Nat
  /-- Bytes are counted like cells. -/
  counted : memoryLimit < Nat.pow 2 63

/-- One object may take eight gigabytes. -/
instance Machine.ordinary : Machine := ⟨Nat.pow 2 33, by decide⟩

namespace Capacity

/-- Counts from here on, and those below its negative, cannot be expressed. -/
def countLimit : Int := Nat.pow 2 63

def fitsBytes [Machine] (bytes : Nat) : Except Error Unit :=
  if Machine.memoryLimit < bytes then .error .outOfMemory else .ok ()

/-- Goes on only if as many cells of the given size can be made; below zero there are none. -/
def cells [Machine] (count : Int) (cellBytes : Nat) : Except Error Unit :=
  if count < -countLimit ∨ countLimit ≤ count then .error .countTooLarge
  else fitsBytes (count.toNat * cellBytes)

def buffer [Machine] (width : Int) : Except Error Unit := cells width 8

def word [Machine] (width : Int) : Except Error Unit := cells width 1

/-- The bytes of a limb of an integer; a limb holds thirty bits. -/
def limbBytes : Nat := 4

/-- The most limbs of an integer that can be counted in bytes, next to its head of 24 bytes. -/
def maxLimbs : Nat := (Nat.pow 2 63 - 1 - 24) / limbBytes

def powerLimbs (exponent : Nat) : Nat := 1 + (exponent + 29) / 30

def powerOfTwo [Machine] (exponent : Nat) : Except Error Unit :=
  if maxLimbs < powerLimbs exponent then .error .integerTooLarge
  else fitsBytes (powerLimbs exponent * limbBytes)

end Capacity

end Microcode
