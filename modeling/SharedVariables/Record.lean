import SharedVariables.Connection
import SharedVariables.Control
import SharedVariables.Coupling
import SharedVariables.Events
import SharedVariables.Key
import SharedVariables.Name
import SharedVariables.Octets

/-! One shared variable with its two partners. A partner is active while it has a connection; the
record lives as long as one partner is active. -/
namespace SharedVariables

structure Partner where
  id : Identity
  conn : Option ConnId := none
  control : Mask := ∅
  events : Events := ∅
deriving DecidableEq

namespace Partner

def active (id : Identity) (conn : ConnId) : Partner := { id, conn := some conn }

def isActive (p : Partner) : Bool := p.conn.isSome

/-- Drops the connection and all that is tied to it. The identity stays, so that the processor can
couple again. -/
def deactivate (p : Partner) : Partner := { id := p.id }

def addEvents (p : Partner) (e : Events) : Partner := { p with events := p.events ∪ e }

end Partner

structure Record where
  key : Key
  name : Name
  offering : Partner
  accepting : Partner
  state : State := .notShared
  value : Option Octets := none
  /-- Counts the records in the order of their creation. -/
  serial : Nat
deriving DecidableEq

namespace Record

def partner (r : Record) : Side → Partner
  | .offering => r.offering
  | .accepting => r.accepting

def modify (r : Record) (f : Partner → Partner) : Side → Record
  | .offering => { r with offering := f r.offering }
  | .accepting => { r with accepting := f r.accepting }

def coupling (r : Record) : Coupling :=
  .ofActive (r.offering.isActive.toNat + r.accepting.isActive.toNat)

def isPending (r : Record) : Bool := r.offering.isActive && !r.accepting.isActive

/-- The side that an identity plays; the offering side wins where it plays both. -/
def sideOf? (r : Record) (id : Identity) : Option Side :=
  if r.offering.id = id then some .offering
  else if r.accepting.id = id then some .accepting
  else none

def activeSideOf? (r : Record) (id : Identity) : Option Side :=
  (r.sideOf? id).filter fun side => (r.partner side).isActive

/-- The control in force: what either partner imposes. -/
def control (r : Record) : Mask := r.offering.control ∪ r.accepting.control

def mayUse (r : Record) (side : Side) : Bool := r.state.permitsUse r.control side

def maySet (r : Record) (side : Side) : Bool := r.state.permitsSet r.control side

/-- The state after an access: a set names its author, a use leaves nothing unread. -/
def nextState (r : Record) (used : Bool) (side : Side) : State :=
  if used then (if r.state = .notShared then .notShared else .idle) else .hasSet side

/-- Records a finished access. The acting side has seen its events; the other side learns of a set,
and of a use that changed the state. -/
def report (r : Record) (used : Bool) (side : Side) : Record :=
  let next := r.nextState used side
  let seen := { r with state := next }.modify (fun p => { p with events := ∅ }) side
  if used then
    if r.state = next then seen else seen.modify (·.addEvents .used) side.other
  else seen.modify (·.addEvents .set) side.other

def setControl (r : Record) (side : Side) (mask : Mask) : Record :=
  (r.modify (fun p => { p with control := mask }) side).modify (·.addEvents .control) side.other

def addEvents (r : Record) (side : Side) (e : Events) : Record := r.modify (·.addEvents e) side

def couple (r : Record) (acceptor : Identity) (conn : ConnId) : Record :=
  { r with
    accepting := .active acceptor conn
    offering := r.offering.addEvents .matched
    state := if r.state = .notShared then .idle else r.state }

/-- Deactivates one side and tells the other if it is active. With one side gone the variable is not
shared. -/
def release (r : Record) (side : Side) : Record :=
  let left := { r with state := .notShared }.modify Partner.deactivate side
  if (left.partner side.other).isActive then
    left.modify (·.addEvents .retracted) side.other else left

end Record
end SharedVariables
