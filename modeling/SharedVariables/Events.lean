/-! What has happened to a partner of a shared variable since it last looked. -/
namespace SharedVariables

structure Events where
  offerMatched : Bool := false
  offerRetracted : Bool := false
  offerMade : Bool := false
  setByPartner : Bool := false
  useByPartner : Bool := false
  controlChanged : Bool := false
deriving DecidableEq, Inhabited

namespace Events

def empty : Events := {}

instance : EmptyCollection Events := ⟨empty⟩

instance : Union Events :=
  ⟨fun a b => ⟨a.offerMatched || b.offerMatched, a.offerRetracted || b.offerRetracted,
    a.offerMade || b.offerMade, a.setByPartner || b.setByPartner,
    a.useByPartner || b.useByPartner, a.controlChanged || b.controlChanged⟩⟩

def isEmpty (e : Events) : Bool := e == ∅

def bits (e : Events) : UInt32 :=
  (if e.offerMatched then 1 else 0) + (if e.offerRetracted then 2 else 0) +
    (if e.offerMade then 4 else 0) + (if e.setByPartner then 8 else 0) +
    (if e.useByPartner then 16 else 0) + (if e.controlChanged then 32 else 0)

/-- Reads the low six bits of a number and drops the others. -/
def ofBits (b : UInt32) : Events :=
  ⟨b.toNat.testBit 0, b.toNat.testBit 1, b.toNat.testBit 2, b.toNat.testBit 3, b.toNat.testBit 4,
    b.toNat.testBit 5⟩

def matched : Events := { offerMatched := true }
def retracted : Events := { offerRetracted := true }
def made : Events := { offerMade := true }
def set : Events := { setByPartner := true }
def used : Events := { useByPartner := true }
def control : Events := { controlChanged := true }

@[simp] theorem union_empty (e : Events) : e ∪ ∅ = e := by
  cases e
  simp [Union.union, EmptyCollection.emptyCollection, empty]

@[simp] theorem empty_union (e : Events) : ∅ ∪ e = e := by
  cases e
  simp [Union.union, EmptyCollection.emptyCollection, empty]

end Events
end SharedVariables
