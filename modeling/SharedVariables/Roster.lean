import SharedVariables.Connection
import SharedVariables.Fault

/-! The live connections and the processors registered on them. A processor has one command
connection and at most one event channel. -/
namespace SharedVariables

structure Entry where
  conn : ConnId
  peer : String
  identity : Option Identity := none
  pid : Option UInt32 := none
  role : Role := .command
deriving DecidableEq

abbrev Directory := List (Identity × ConnId)

namespace Directory

def get? (d : Directory) (id : Identity) : Option ConnId := (d.find? fun e => e.1 == id).map (·.2)

def contains (d : Directory) (id : Identity) : Bool := (get? d id).isSome

def add (d : Directory) (id : Identity) (conn : ConnId) : Directory := d ++ [(id, conn)]

/-- Forgets a processor if it is listed with this connection. -/
def forget (d : Directory) (id : Identity) (conn : ConnId) : Directory :=
  if get? d id = some conn then d.filter fun e => e.1 != id else d

end Directory

structure Roster where
  entries : List Entry := []
  commands : Directory := []
  channels : Directory := []
deriving DecidableEq

namespace Roster

def get? (r : Roster) (conn : ConnId) : Option Entry := r.entries.find? fun e => e.conn == conn

def erase (r : Roster) (conn : ConnId) :
    Roster := { r with entries := r.entries.filter fun e => e.conn != conn }

/-- Lists a new connection in place of any with the same number. -/
def insert (r : Roster) (conn : ConnId) (peer : String) : Roster :=
  { r with entries := (r.erase conn).entries ++ [{ conn, peer }] }

def update (r : Roster) (conn : ConnId) (f : Entry → Entry) : Roster :=
  { r with entries := r.entries.map fun e => if e.conn == conn then f e else e }

def remove (r : Roster) (conn : ConnId) : Option Entry × Roster :=
  match r.get? conn with
  | none => (none, r)
  | some entry =>
    let left := r.erase conn
    match entry.identity, entry.role with
    | none, _ => (some entry, left)
    | some id, .command =>
      (some entry, { left with commands := Directory.forget left.commands id conn })
    | some id, .events =>
      (some entry, { left with channels := Directory.forget left.channels id conn })

def unclaimed (r : Roster) (conn : ConnId) (id : Identity) : Except Fault Entry :=
  match r.get? conn with
  | none => .error (.notRegistered id)
  | some entry =>
    match entry.identity with
    | some holder => .error (.alreadyRegistered holder)
    | none => .ok entry

def register (r : Roster) (conn : ConnId) (id : Identity) (pid : UInt32) : Except Fault Roster :=
  if id.isNobody || id.isGeneral then .error (.notRegistered id)
  else if Directory.contains r.commands id then .error (.alreadyRegistered id)
  else
    match r.unclaimed conn id with
    | .error e => .error e
    | .ok _ =>
      let r := r.update conn fun e =>
        { e with identity := some id, pid := some pid, role := .command }
      .ok { r with commands := Directory.add r.commands id conn }

def registerChannel (r : Roster) (conn : ConnId) (id : Identity) : Except Fault Roster :=
  if !Directory.contains r.commands id then .error (.notRegistered id)
  else if Directory.contains r.channels id then .error (.alreadyRegistered id)
  else
    match r.unclaimed conn id with
    | .error e => .error e
    | .ok _ =>
      let r := r.update conn fun e => { e with identity := some id, role := .events }
      .ok { r with channels := Directory.add r.channels id conn }

def isRegistered (r : Roster) (id : Identity) : Bool := Directory.contains r.commands id

def identityOf? (r : Roster) (conn : ConnId) : Option Identity :=
  ((r.get? conn).filter fun e => e.role == .command).bind (·.identity)

def channelOf? (r : Roster) (id : Identity) : Option ConnId := Directory.get? r.channels id

/-- Earlier connections come first, and on one connection smaller identities. -/
def precedes (a b : ConnId × Identity) : Bool :=
  a.1.number < b.1.number || (a.1 == b.1 && a.2.rank ≤ b.2.rank)

def dependentsOf (r : Roster) (ancestor : Identity) : List (ConnId × Identity) :=
  ((r.commands.filter fun e => e.1.dependsOn ancestor).map fun e => (e.2, e.1)).mergeSort precedes

def listing (r : Roster) :
    List Entry := r.entries.mergeSort fun a b => a.conn.number ≤ b.conn.number

theorem length_erase_lt {r : Roster} {conn : ConnId} {entry : Entry}
    (h : r.get? conn = some entry) :
    (r.erase conn).entries.length < r.entries.length := by
  have found := List.mem_of_find?_eq_some h
  have same := List.find?_some h
  simp only [erase]
  exact List.length_filter_lt_length_iff_exists.mpr ⟨entry, found, by simpa using same⟩

theorem length_remove_lt {r left : Roster} {conn : ConnId} {entry : Entry}
    (h : r.remove conn = (some entry, left)) : left.entries.length < r.entries.length := by
  simp only [remove] at h
  split at h
  · simp at h
  · rename_i found
    have shorter := length_erase_lt found
    split at h <;> simp only [Prod.mk.injEq] at h <;> rw [← h.2] <;> exact shorter

end Roster
end SharedVariables
