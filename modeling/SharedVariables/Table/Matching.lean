import SharedVariables.Table

/-! Offers and the requests that take them up. A request names the variable, the wanted partner and
the requester; it couples the oldest pending offer that fits, and becomes an offer itself if there
is none. -/
namespace SharedVariables

namespace Record

/-- Whether a pending offer fits a request of `requester` to `wanted`. A processor never couples
with itself, and an offer to anyone never meets a request to anyone. An offer to anyone is taken up
by who asks for its offerer; a request to anyone takes up an offer to the requester's number;
otherwise both name each other. -/
def fits (r : Record) (wanted requester : Identity) : Bool :=
  let target := r.accepting.id
  if r.offering.id = requester then false
  else if target.isGeneral then !wanted.isGeneral && r.offering.id == wanted
  else if wanted.isGeneral then target.proc == requester.proc
  else r.offering.id == wanted && target == requester

end Record

inductive MatchOutcome where
  | matched (key : Key) (offerer : Identity)
  | created (key : Key) (target : Identity)
  | full
deriving DecidableEq

namespace MatchOutcome

/-- The key for the requester; null when nothing was recorded. -/
def key : MatchOutcome → Key
  | .matched key _ => key
  | .created key _ => key
  | .full => .null

def coupling : MatchOutcome → Coupling
  | .matched .. => .coupled
  | .created .. => .offered
  | .full => .uncoupled

end MatchOutcome

namespace Table

def pendingOffer? (t : Table) (name : Name) (wanted requester : Identity) : Option Record :=
  t.oldest? fun r => r.isPending && r.name == name && r.fits wanted requester

def drawKey (t : Table) (proc : UInt32) : Option Key × Table :=
  if Key.sequenceLimit ≤ t.sequence then (none, t)
  else (some (.compose proc t.sequence), { t with sequence := t.sequence + 1 })

/-- The key of a new offer. Number zero of processor zero would make the null key and is passed
over. -/
def nextKey (t : Table) (proc : UInt32) : Option Key × Table :=
  match t.drawKey proc with
  | (none, t) => (none, t)
  | (some key, t) => if key.isNull then t.drawKey proc else (some key, t)

/-- Records a new offer, unless the table is full or the running numbers are used up. -/
def createOffer (t : Table) (name : Name) (wanted offerer : Identity) (conn : ConnId) :
    Option Key × Table :=
  if t.isFull then (none, t)
  else
    match t.nextKey offerer.proc with
    | (none, t) => (none, t)
    | (some key, t) =>
      let record : Record :=
        { key, name, offering := .active offerer conn
          accepting := { id := wanted, events := if wanted.isGeneral then ∅ else .made }
          serial := t.serial }
      (some key, { t with records := t.records ++ [record], serial := t.serial + 1 })

def matchOrMake (t : Table) (name : Name) (wanted requester : Identity) (conn : ConnId) :
    MatchOutcome × Table :=
  match t.pendingOffer? name wanted requester with
  | some r => (.matched r.key r.offering.id, t.update r.key (·.couple requester conn))
  | none =>
    match t.createOffer name wanted requester conn with
    | (some key, t) => (.created key wanted, t)
    | (none, t) => (.full, t)

end Table
end SharedVariables
