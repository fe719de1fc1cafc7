import SharedVariables.Identity

/-! Keys of shared variables. A key is made from the number of the offering processor and a running
number that never repeats, so no key is given out twice. -/
namespace SharedVariables

structure Key where
  bits : UInt64
deriving DecidableEq, Inhabited

namespace Key

def null : Key := ⟨0⟩

def isNull (k : Key) : Bool := k.bits == 0

def sequenceLimit : Nat := 4294967296

/-- The processor number sits in bits 16 to 47, the low half of the running number below it and the
high half above it. -/
def compose (proc : UInt32) (n : Nat) : Key :=
  ⟨UInt64.ofNat (n / 65536 * 281474976710656 + proc.toNat * 65536 + n % 65536)⟩

def text (k : Key) : String := Text.hexadecimal 1 k.bits.toNat

end Key
end SharedVariables
