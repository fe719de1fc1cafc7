import SharedVariables.Frame
import SharedVariables.Signal.Codec

/-! The client's end of a connection. It counts the replies that are still owed, so that a request
whose caller gave up does not leave its late reply to the next one. -/
namespace SharedVariables

structure Link where
  peer : String
  buffer : Octets := []
  /-- Requests whose reply has not been read. -/
  owed : Nat := 0
  /-- Whether a frame was cut short while it was written; nothing can be sent after that. -/
  torn : Bool := false
deriving DecidableEq

namespace Link

def lost (l : Link) : Fault := .connectionLost l.peer

def outgoing (l : Link) (s : Signal) : Except Fault Octets :=
  if l.torn then .error l.lost
  else
    match s.encode with
    | .error e => .error e
    | .ok payload => Frame.write payload

def requested (l : Link) : Link := { l with owed := l.owed + 1 }

def cutShort (l : Link) : Link := { l with torn := true }

def feed (l : Link) (bs : Octets) : Link := { l with buffer := l.buffer ++ bs }

def isPushed : Except Fault Signal → Bool
  | .ok s => s.kind.isPush
  | .error _ => false

/-- The reply to the most recent request; nothing while it has not arrived. Notifications and
replies that are owed to earlier requests are passed over. -/
def replyFrom (buffer : Octets) (owed : Nat) : Option (Except Fault Signal) × Octets × Nat :=
  match _h : Frame.take buffer with
  | .error e => (some (.error e), buffer, owed)
  | .ok none => (none, buffer, owed)
  | .ok (some (payload, rest)) =>
    let decoded := Signal.decode payload
    if isPushed decoded then replyFrom rest owed
    else if owed ≤ 1 then (some decoded, rest, 0)
    else replyFrom rest (owed - 1)
termination_by buffer.length
decreasing_by all_goals exact Frame.length_lt_of_take _h

def reply (l : Link) : Option (Except Fault Signal) × Link :=
  let (answer, buffer, owed) := replyFrom l.buffer l.owed
  (answer, { l with buffer, owed })

end Link

/-- A way to perform something on a state that may fail; the state is kept also then. -/
abbrev Act (σ α : Type) := σ → Except Fault α × σ

namespace Act

def andThen {σ α β : Type} (first : Act σ α) (next : α → Act σ β) : Act σ β := fun s =>
  match first s with
  | (.error e, s) => (.error e, s)
  | (.ok a, s) => next a s

def refine {σ α β : Type} (act : Act σ α) (f : α → Except Fault β) : Act σ β := fun s =>
  let (outcome, s) := act s
  (outcome.bind f, s)

end Act

structure Peer (σ : Type) where
  /-- Takes bytes; there is no taking once it has hung up. -/
  accept : Octets → σ → Option σ
  deliver : σ → (Octets × Bool) × σ

namespace Link

def send {σ : Type} (peer : Peer σ) (request : Signal) : Act (σ × Link) Unit := fun (s, l) =>
  match l.outgoing request with
  | .error e => (.error e, s, l)
  | .ok bs =>
    match peer.accept bs s with
    | none => (.error l.lost, s, l)
    | some s => (.ok (), s, l.requested)

def await {σ : Type} (peer : Peer σ) (timeout : Duration) : Act (σ × Link) Signal := fun (s, l) =>
  let ((bs, hungUp), s) := peer.deliver s
  match (l.feed bs).reply with
  | (some outcome, l) => (outcome, s, l)
  | (none, l) => (.error (if hungUp then l.lost else .timeout timeout), s, l)

def exchange {σ : Type} (peer : Peer σ) (timeout : Duration) (request : Signal) :
    Act (σ × Link) Signal :=
  (send peer request).andThen fun () => await peer timeout

end Link
end SharedVariables
