import SharedVariables.Signal

/-! The queue of signals for one connection. The broker never waits for a reader: a signal that
finds the queue full is dropped and the connection is asked to hang up. Until it does, its queue
takes signals whenever there is room again. -/
namespace SharedVariables

structure Line where
  capacity : Nat
  queue : List Signal := []
  attached : Bool := true
  reading : Bool := true
  /-- A request to hang up that waits for the far end. -/
  asked : Bool := false
  /-- Whether a request to hang up has reached the far end. -/
  heard : Bool := false
deriving DecidableEq

namespace Line

/-- Asks the far end to hang up; it is asked once at most. -/
def ask (l : Line) : Line := if l.heard then l else { l with asked := true }

def offer (l : Line) (s : Signal) : Bool × Line :=
  if !l.reading then (false, l)
  else if l.capacity ≤ l.queue.length then (false, l.ask)
  else (true, { l with queue := l.queue ++ [s] })

def detach (l : Line) : Line := { l with attached := false }

/-- The far end stops reading; what waits is lost. -/
def stopReading (l : Line) : Line := { l with reading := false, queue := [] }

inductive Receipt where
  | signal (s : Signal)
  | empty
  | gone
  | notReading
deriving DecidableEq

def receive (l : Line) : Receipt × Line :=
  if !l.reading then (.notReading, l)
  else
    match l.queue with
    | s :: rest => (.signal s, { l with queue := rest })
    | [] => (if l.attached then .empty else .gone, l)

inductive Summons where
  | yes
  | no
  | gone
deriving DecidableEq

def summons (l : Line) : Summons × Line :=
  if l.asked then (.yes, { l with asked := false, heard := true })
  else if l.attached && !l.heard then (.no, l)
  else (.gone, l)

end Line
end SharedVariables
