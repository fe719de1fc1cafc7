import SharedVariables.Record

/-! The shared variables of a broker. Age is told by the serial of a record alone, so no answer
hangs on the order in which the records are kept. -/
namespace SharedVariables

structure Table where
  records : List Record := []
  capacity : Option Nat := none
  sequence : Nat := 0
  serial : Nat := 0
deriving DecidableEq

namespace Table

def new (capacity : Option Nat) : Table := { capacity }

def size (t : Table) : Nat := t.records.length

def oldestIn (p : Record → Bool) : List Record → Option Record
  | [] => none
  | r :: rest =>
    if p r then
      match oldestIn p rest with
      | some s => if s.serial < r.serial then some s else some r
      | none => some r
    else oldestIn p rest

def oldest? (t : Table) (p : Record → Bool) : Option Record := oldestIn p t.records

def byAge (t : Table) : List Record := t.records.mergeSort fun a b => a.serial ≤ b.serial

def get? (t : Table) (key : Key) : Option Record := t.records.find? fun r => r.key == key

def update (t : Table) (key : Key) (f : Record → Record) : Table :=
  { t with records := t.records.map fun r => if r.key == key then f r else r }

def erase (t : Table) (key : Key) : Table :=
  { t with records := t.records.filter fun r => r.key != key }

def isFull (t : Table) : Bool :=
  match t.capacity with
  | some bound => bound ≤ t.size
  | none => false

/-- The record with a key and the side that a caller plays in it, active or not. -/
def partnerOf (t : Table) (key : Key) (caller : Identity) : Except Fault (Record × Side) :=
  match t.get? key with
  | none => .error (.unknownKey key)
  | some r =>
    match r.sideOf? caller with
    | none => .error (.notPartner key caller)
    | some side => .ok (r, side)

def activePartnerOf (t : Table) (key : Key) (caller : Identity) : Except Fault (Record × Side) :=
  match t.partnerOf key caller with
  | .error e => .error e
  | .ok (r, side) =>
    if (r.partner side).isActive then .ok (r, side) else .error (.notPartner key caller)

end Table
end SharedVariables
