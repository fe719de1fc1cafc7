import SharedVariables.Client.Inquiry
import SharedVariables.Limits
import SharedVariables.Link

/-! The event channel of a processor and the notifications that come over it. -/
namespace SharedVariables

inductive Notification where
  | offerMade (key : Key) (name : String) (offerer : Identity)
  | offerMatched (key : Key) (acceptor : Identity)
  | offerRetracted (key : Key) (leaver : Identity)
  | eventsPending (key : Key) (events : Events)
deriving DecidableEq

namespace Notification

def ofSignal? : Signal → Option Notification
  | .offerMade key name offerer => some (.offerMade key name offerer)
  | .offerMatched key acceptor => some (.offerMatched key acceptor)
  | .offerRetracted key leaver => some (.offerRetracted key leaver)
  | .eventsPending key events => some (.eventsPending key events)
  | _ => none

def toSignal : Notification → Signal
  | .offerMade key name offerer => .offerMade key name offerer
  | .offerMatched key acceptor => .offerMatched key acceptor
  | .offerRetracted key leaver => .offerRetracted key leaver
  | .eventsPending key events => .eventsPending key events

@[simp] theorem ofSignal?_toSignal (n : Notification) :
    ofSignal? n.toSignal = some n := by cases n <;> rfl

end Notification

structure Listener where
  link : Link
  identity : Identity
deriving DecidableEq

namespace Listener

inductive Receipt where
  | notification (n : Notification)
  | fault (f : Fault)
  | nothing
  | hungUp
deriving DecidableEq

def connect {σ : Type} (peer : Peer σ) (endpoint : String) (id : Identity) :
    Act σ Listener := fun s =>
  let q := Inquiry.listen id
  let (outcome, s, link) :=
    Link.exchange peer Limits.replyTimeout q.request (s, { peer := endpoint })
  ((outcome.bind q.read).map fun () => { link, identity := id }, s)

/-- The first notification in the buffer or the fault before it. Other signals are passed over. -/
def scan (buffer : Octets) : Option (Except Fault Notification) × Octets :=
  match _h : Frame.take buffer with
  | .error e => (some (.error e), buffer)
  | .ok none => (none, buffer)
  | .ok (some (payload, rest)) =>
    match Signal.decode payload with
    | .error e => (some (.error e), rest)
    | .ok signal =>
      match Notification.ofSignal? signal with
      | some n => (some (.ok n), rest)
      | none => scan rest
termination_by buffer.length
decreasing_by exact Frame.length_lt_of_take _h

def next {σ : Type} (peer : Peer σ) (s : σ) (l : Listener) : Receipt × σ × Listener :=
  let ((bs, hungUp), s) := peer.deliver s
  let (found, buffer) := scan (l.link.buffer ++ bs)
  let receipt := match found with
    | some (.ok n) => .notification n
    | some (.error e) => .fault e
    | none => if hungUp then .hungUp else .nothing
  (receipt, s, { l with link := { l.link with buffer } })

end Listener
end SharedVariables
