import SharedVariables.Client
import SharedVariables.Listener

/-! A peer that sends what it is told and keeps what it receives. -/
namespace SharedVariables

structure Puppet where
  received : Octets := []
  waiting : Octets := []
  hungUp : Bool := false
deriving DecidableEq

namespace Puppet

inductive Item where
  | signal (s : Signal)
  | frame (payload : Octets)
  | bytes (bs : Octets)

def Item.octets : Item → Octets
  | .signal s => (s.encode.bind Frame.write).toOption.getD []
  | .frame payload => (Frame.write payload).toOption.getD []
  | .bytes bs => bs

def send (p : Puppet) (items : List Item) :
    Puppet := { p with waiting := p.waiting ++ items.flatMap Item.octets }

def hangUp (p : Puppet) : Puppet := { p with hungUp := true }

def peer : Peer Puppet where
  accept bs p := if p.hungUp then none else some { p with received := p.received ++ bs }
  deliver p := ((p.waiting, p.hungUp), { p with waiting := [] })

def takeRequests (p : Puppet) : List Octets × Puppet :=
  let (payloads, _, left) := Frame.drain p.received
  (payloads, { p with received := left })

/-- A peer that has sent everything before it is asked and then may have hung up. It still takes the
first request. -/
def early : Peer Puppet where
  accept bs p := some { p with received := p.received ++ bs }
  deliver := peer.deliver

def nexts (p : Puppet) (l : Listener) : Nat → List Listener.Receipt
  | 0 => []
  | n + 1 =>
    let (receipt, p, l) := Listener.next peer p l
    receipt :: nexts p l n

end Puppet
end SharedVariables
