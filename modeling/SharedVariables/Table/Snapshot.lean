import SharedVariables.Table

/-! A view of the shared variables for people and programs that look on. -/
namespace SharedVariables

structure Partner.Snapshot where
  id : Identity
  active : Bool
  control : UInt8
  events : UInt32
deriving DecidableEq

def Partner.snapshot (p : Partner) : Partner.Snapshot where
  id := p.id
  active := p.isActive
  control := p.control.bits
  events := p.events.bits

structure Record.Snapshot where
  key : Key
  name : Name
  coupling : Coupling
  state : State
  control : UInt8
  offering : Partner.Snapshot
  accepting : Partner.Snapshot
  valueLength : Option Nat
deriving DecidableEq

def Record.snapshot (r : Record) : Record.Snapshot where
  key := r.key
  name := r.name
  coupling := r.coupling
  state := r.state
  control := r.control.bits
  offering := r.offering.snapshot
  accepting := r.accepting.snapshot
  valueLength := r.value.map List.length

def Table.snapshot (t : Table) : List Record.Snapshot := t.byAge.map Record.snapshot

end SharedVariables
