/-! Who may use or set a shared variable. The access state says which accesses came last; the
control mask says which of them close a door. An access is refused exactly when the same bit is set
in both, so an empty mask permits everything. -/
namespace SharedVariables

inductive Side where
  | offering
  | accepting
deriving DecidableEq, Inhabited

namespace Side

def other : Side → Side
  | .offering => .accepting
  | .accepting => .offering

def label : Side → String
  | .offering => "offering"
  | .accepting => "accepting"

def both : List Side := [.offering, .accepting]

@[simp] theorem other_other (s : Side) : s.other.other = s := by cases s <;> rfl

theorem other_ne (s : Side) : s.other ≠ s := by cases s <;> decide

theorem eq_other {side z : Side} (apart : z ≠ side) : z = side.other := by
  revert apart
  cases side <;> cases z <;> decide

end Side

/-- One bit for each side and each way of access. A bit restrains its side: not to set twice
without an access by the other side in between, or not to use twice without a set by the other. -/
structure Mask where
  setByOfferer : Bool := false
  setByAcceptor : Bool := false
  useByOfferer : Bool := false
  useByAcceptor : Bool := false
deriving DecidableEq, Inhabited

namespace Mask

def empty : Mask := {}

instance : EmptyCollection Mask := ⟨empty⟩

instance : Union Mask :=
  ⟨fun a b => ⟨a.setByOfferer || b.setByOfferer, a.setByAcceptor || b.setByAcceptor,
    a.useByOfferer || b.useByOfferer, a.useByAcceptor || b.useByAcceptor⟩⟩

instance : Inter Mask :=
  ⟨fun a b => ⟨a.setByOfferer && b.setByOfferer, a.setByAcceptor && b.setByAcceptor,
    a.useByOfferer && b.useByOfferer, a.useByAcceptor && b.useByAcceptor⟩⟩

def setBit : Side → Mask
  | .offering => { setByOfferer := true }
  | .accepting => { setByAcceptor := true }

def useBit : Side → Mask
  | .offering => { useByOfferer := true }
  | .accepting => { useByAcceptor := true }

def includes (a b : Mask) : Bool := a ∩ b == b

/-- The four bits as a number, sets above uses and the offerer above the acceptor. -/
def bits (m : Mask) : UInt8 :=
  (if m.setByOfferer then 8 else 0) + (if m.setByAcceptor then 4 else 0) +
    (if m.useByOfferer then 2 else 0) + (if m.useByAcceptor then 1 else 0)

/-- Reads the low four bits of a number and drops the others. -/
def ofBits (b : UInt8) : Mask :=
  ⟨b.toNat.testBit 3, b.toNat.testBit 2, b.toNat.testBit 1, b.toNat.testBit 0⟩

def ofBits? (b : UInt8) : Option Mask := if b < 16 then some (ofBits b) else none

end Mask

inductive State where
  | notShared
  /-- No side has set a value that the other has not used. -/
  | idle
  | offererHasSet
  | acceptorHasSet
deriving DecidableEq, Inhabited

namespace State

def all : List State := [.notShared, .idle, .offererHasSet, .acceptorHasSet]

def mask : State → Mask
  | .notShared => ∅
  | .idle => { useByOfferer := true, useByAcceptor := true }
  | .offererHasSet => { setByOfferer := true, useByOfferer := true }
  | .acceptorHasSet => { setByAcceptor := true, useByAcceptor := true }

def ofBits? (b : UInt8) : Option State := all.find? fun s => s.mask.bits == b

def hasSet : Side → State
  | .offering => .offererHasSet
  | .accepting => .acceptorHasSet

def permitsUse (s : State) (control : Mask) (side : Side) : Bool :=
  !(control ∩ s.mask).includes (.useBit side)

def permitsSet (s : State) (control : Mask) (side : Side) : Bool :=
  !(control ∩ s.mask).includes (.setBit side)

def label : State → String
  | .notShared => "NOT_SHARED"
  | .idle => "IDLE"
  | .offererHasSet => "OFFERER_HAS_SET"
  | .acceptorHasSet => "ACCEPTOR_HAS_SET"

theorem ofBits?_mask_bits (s : State) : ofBits? s.mask.bits = some s := by cases s <;> decide

end State
end SharedVariables
