import SharedVariables.Roster
import SharedVariables.Signal
import SharedVariables.Table

/-! The broker holds the shared variables and the live connections. It handles one event after the
other and says what to send to whom. -/
namespace SharedVariables

/-- What is written for moments and chosen ports. They are no part of the broker's state; a pattern
of the same length stands in their place. -/
structure Wording where
  started : String := "YYYY-MM-DD HH:MM:SS"
  created : String := "HH:MM:SS"
  moment : String := "T"
  port : String := "PPPPP"
deriving DecidableEq

structure Broker where
  table : Table
  roster : Roster := {}
  wording : Wording := {}
deriving DecidableEq

inductive Post where
  | deliver (conn : ConnId) (signal : Signal)
  | hangUp (conn : ConnId)
deriving DecidableEq

structure Handling where
  outcome : Except Fault Signal
  broker : Broker
  posts : List Post

namespace Broker

def new (capacity : Option Nat) (wording : Wording) : Broker := { table := .new capacity, wording }

def send (b : Broker) (conn : ConnId) (signal : Signal) : List Post :=
  if (b.roster.get? conn).isSome then [.deliver conn signal] else []

def push (b : Broker) (id : Identity) (signal : Signal) : List Post :=
  match b.roster.channelOf? id with
  | some conn => b.send conn signal
  | none => []

def settle (b : Broker) (outcome : Except Fault Signal) : Handling := ⟨outcome, b, []⟩

def refuse (b : Broker) (fault : Fault) : Handling := b.settle (.error fault)

def answer (b : Broker) (signal : Signal) : Handling := b.settle (.ok signal)

def caller (b : Broker) (conn : ConnId) : Except Fault Identity :=
  match b.roster.identityOf? conn with
  | some id => .ok id
  | none => .error (.notRegistered .nobody)

def held (b : Broker) (conn : ConnId) (key : Key) : Except Fault (Record × Side) :=
  match b.caller conn with
  | .error e => .error e
  | .ok id => b.table.activePartnerOf key id

def record (b : Broker) (key : Key) : Except Fault Record :=
  match b.table.get? key with
  | some r => .ok r
  | none => .error (.unknownKey key)

def notify (b : Broker) (r : Record) (side : Side) : List Post :=
  let p := r.partner side
  if p.isActive && !p.events.isEmpty then b.push p.id (.eventsPending r.key p.events) else []

/-- Tells the remaining partner that a side has left. Auxiliary processors look for themselves. -/
def announce (b : Broker) (key : Key) (remaining : Option Identity) (leaver : Identity) :
    List Post :=
  match remaining with
  | some id => if id.isAuxiliary then [] else b.push id (.offerRetracted key leaver)
  | none => []

end Broker
end SharedVariables
