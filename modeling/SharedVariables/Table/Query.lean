import SharedVariables.Pairing
import SharedVariables.Table

/-! Questions about the shared variables, and the events that wait for a processor. -/
namespace SharedVariables

namespace Record

/-- Two records are shared between the same two identities, in either role. -/
def samePartners (r s : Record) : Bool :=
  (s.offering.id == r.offering.id && s.accepting.id == r.accepting.id) ||
    (s.offering.id == r.accepting.id && s.accepting.id == r.offering.id)

def eventsFor (r : Record) (id : Identity) : Events :=
  match r.sideOf? id with
  | some side => (r.partner side).events
  | none => ∅

/-- The events of both sides that carry an identity. -/
def drained (r : Record) (id : Identity) : Events :=
  (if r.offering.id = id then r.offering.events else ∅) ∪
    (if r.accepting.id = id then r.accepting.events else ∅)

def clear (r : Record) (id : Identity) : Record :=
  let emptied (p : Partner) : Partner := if p.id = id then { p with events := ∅ } else p
  { r with offering := emptied r.offering, accepting := emptied r.accepting }

def isOpenTo (r : Record) (proc : UInt32) : Bool :=
  r.isPending && (r.accepting.id.proc == proc || r.accepting.id.isGeneral)

end Record

namespace Table

def pairingKey? (t : Table) (key : Key) : Option Key := do
  let r ← t.get? key
  let wanted ← Pairing.paired? r.name.text
  let other ← t.oldest? fun s => s.key != key && s.name.text == wanted && r.samePartners s
  return other.key

def events? (t : Table) (id : Identity) : Option (Key × Events) :=
  (t.oldest? fun r => !(r.eventsFor id).isEmpty).map fun r => (r.key, r.eventsFor id)

def clearEvents (t : Table) (id : Identity) : Events × Table :=
  (t.records.foldl (fun e r => e ∪ r.drained id) ∅,
    { t with records := t.records.map (·.clear id) })

def addEvents (t : Table) (key : Key) (id : Identity) (e : Events) : Except Fault Table :=
  match t.partnerOf key id with
  | .error fault => .error fault
  | .ok (_, side) => .ok (t.update key (·.addEvents side e))

def offererOf? (t : Table) (key : Key) : Option Identity := (t.get? key).map (·.offering.id)

def appendNew (ids : List Identity) (id : Identity) :
    List Identity := if id ∈ ids then ids else ids ++ [id]

/-- The processors with a pending offer open to a target, each once, in the order of their oldest
such offer. -/
def offeringProcessors (t : Table) (target : Identity) : List Identity :=
  let offers := t.byAge.filter fun r => r.isOpenTo target.proc && r.offering.id != target
  offers.foldl (fun ids r => appendNew ids r.offering.id) []

def offeredVariables (t : Table) (target offerer : Identity) : List Name :=
  (t.byAge.filter fun r =>
    r.isOpenTo target.proc && r.offering.id.proc == offerer.proc).map (·.name)

end Table
end SharedVariables
