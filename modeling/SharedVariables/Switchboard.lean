import SharedVariables.Line
import SharedVariables.Roster

/-! The live connections together with the queue of each. -/
namespace SharedVariables

structure Switchboard where
  roster : Roster := {}
  /-- The queue of every connection that was ever listed, also of those that are gone. -/
  lines : List (ConnId × Line) := []
deriving DecidableEq

namespace Switchboard

def line? (s : Switchboard) (conn : ConnId) :
    Option Line := (s.lines.find? fun e => e.1 == conn).map (·.2)

def setLine (s : Switchboard) (conn : ConnId) (l : Line) : Switchboard :=
  { s with lines := (s.lines.filter fun e => e.1 != conn) ++ [(conn, l)] }

def onLine {α : Type} (s : Switchboard) (conn : ConnId) (missing : α) (f : Line → α × Line) :
    α × Switchboard :=
  match s.line? conn with
  | none => (missing, s)
  | some l =>
    let (answer, l) := f l
    (answer, s.setLine conn l)

/-- Lists a connection with a queue of its own, in place of any with the same number. -/
def insert (s : Switchboard) (conn : ConnId) (capacity : Nat) (peer : String) : Switchboard :=
  { s with roster := s.roster.insert conn peer }.setLine conn { capacity }

def close (s : Switchboard) (conn : ConnId) : Bool × Switchboard :=
  match s.roster.get? conn with
  | none => (false, s)
  | some _ => s.onLine conn false fun l => (true, l.ask)

def remove (s : Switchboard) (conn : ConnId) (closing : Bool) : Option Entry × Switchboard :=
  match s.roster.remove conn with
  | (none, _) => (none, s)
  | (some entry, roster) =>
    let (_, left) := { s with roster }.onLine conn () fun l =>
      ((), (if closing then l.ask else l).detach)
    (some entry, left)

def send (s : Switchboard) (conn : ConnId) (signal : Signal) : Bool × Switchboard :=
  match s.roster.get? conn with
  | none => (false, s)
  | some _ => s.onLine conn false fun l => l.offer signal

def push (s : Switchboard) (id : Identity) (signal : Signal) : Bool × Switchboard :=
  match s.roster.channelOf? id with
  | none => (false, s)
  | some conn => s.send conn signal

def receive (s : Switchboard) (conn : ConnId) : Line.Receipt × Switchboard :=
  s.onLine conn .notReading Line.receive

def stopReading (s : Switchboard) (conn : ConnId) : Switchboard :=
  (s.onLine conn () fun l => ((), l.stopReading)).2

/-- The far end looks for a request to hang up; nothing is found where there never was a
connection. -/
def summons (s : Switchboard) (conn : ConnId) : Option Line.Summons × Switchboard :=
  s.onLine conn none fun l => (some l.summons.1, l.summons.2)

end Switchboard
end SharedVariables
