import SharedVariables.Table

/-! Sides that leave. A record stays while one side is active and is removed with the last. -/
namespace SharedVariables

structure Release where
  key : Key
  name : Name
  oldCoupling : Coupling
  /-- The partner that was still active when this side left. -/
  remaining : Option Identity
  removed : Bool
deriving DecidableEq

namespace Record

def departure (r : Record) (side : Side) : Release :=
  let other := r.partner side.other
  { key := r.key, name := r.name, oldCoupling := r.coupling
    remaining := if other.isActive then some other.id else none, removed := false }

/-- Releases the sides held over a connection, the offering side first. -/
def releaseHeld (r : Record) (conn : ConnId) : List Release × Record :=
  Side.both.foldl
    (fun (releases, r) side =>
      if (r.partner side).conn = some conn then (releases ++ [r.departure side], r.release side)
      else (releases, r))
    ([], r)

end Record

/-- Marks the first of the releases of one record as the one that removed it. -/
def markRemoved : List Release → List Release
  | [] => []
  | first :: rest => { first with removed := true } :: rest

namespace Table

def retract (t : Table) (key : Key) (caller : Identity) : Except Fault (Release × Table) :=
  match t.activePartnerOf key caller with
  | .error e => .error e
  | .ok (r, side) =>
    let release := r.departure side
    if (r.release side).coupling = .uncoupled then
      .ok ({ release with removed := true }, t.erase key)
    else .ok (release, t.update key (·.release side))

def reap (t : Table) : Nat × Table :=
  let live := t.records.filter fun r => r.coupling ≠ .uncoupled
  (t.size - live.length, { t with records := live })

def disconnect (t : Table) (conn : ConnId) : List Release × Table :=
  let left := t.records.map (·.releaseHeld conn)
  let releases := left.flatMap fun (releases, r) =>
    if r.coupling = .uncoupled then markRemoved releases else releases
  (releases, ({ t with records := left.map (·.2) } : Table).reap.2)

end Table
end SharedVariables
