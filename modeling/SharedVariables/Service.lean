import SharedVariables.Broker.Run
import SharedVariables.Link
import SharedVariables.Settings
import SharedVariables.SocketPath

/-! A running broker with its sockets: bytes of clients become requests, posts of the broker become
bytes. -/
namespace SharedVariables

structure Socket where
  conn : ConnId
  inbound : Octets := []
  outbound : Octets := []
  closed : Bool := false
deriving DecidableEq

namespace Socket

/-- Writes a signal as a frame. One that cannot be encoded is passed over. -/
def deliver (p : Socket) (s : Signal) : Socket :=
  if p.closed then p
  else
    match s.encode.bind Frame.write with
    | .ok bs => { p with outbound := p.outbound ++ bs }
    | .error _ => p

def isStalled (p : Socket) : Bool := !p.closed && 4 ≤ p.inbound.length

end Socket

structure Service where
  machine : Machine
  settings : Settings
  broker : Broker
  accepted : Nat := 0
  sockets : List Socket := []
deriving DecidableEq

namespace Service

def start (machine : Machine) (settings : Settings) (wording : Wording) : Except Fault Service :=
  let service : Service := { machine, settings, broker := .new settings.maxVariables wording }
  match settings.endpoint with
  | .tcp .. => .ok service
  | .socket path => (SocketPath.bind path).map fun _ => service

def address? (s : Service) : Option SocketPath.Address :=
  match s.settings.endpoint with
  | .tcp .. => none
  | .socket path => (SocketPath.address path).toOption

def reach (s : Service) (endpoint : Endpoint) : Except Fault Unit :=
  match endpoint with
  | .tcp .. => if s.machine.networkUp then .ok () else .error Machine.unreachable
  | .socket path => SocketPath.find s.address? path

def boundText (s : Service) : String :=
  match s.settings.endpoint with
  | .tcp host _ => host ++ ":" ++ s.broker.wording.port
  | .socket path => (Endpoint.socket path).text

def peerText (s : Service) (conn : ConnId) : String :=
  match s.settings.endpoint with
  | .tcp .. => s.boundText
  | .socket _ => s.boundText ++ "#" ++ Text.decimal conn.number

def socket? (s : Service) (conn : ConnId) : Option Socket := s.sockets.find? fun p => p.conn == conn

def isOpen (s : Service) (conn : ConnId) : Bool := (s.socket? conn).any fun p => !p.closed

def update (s : Service) (conn : ConnId) (f : Socket → Socket) : Service :=
  { s with sockets := s.sockets.map fun p => if p.conn == conn then f p else p }

def carry (s : Service) : Post → Service
  | .deliver conn signal => s.update conn (·.deliver signal)
  | .hangUp conn => s.update conn fun p => { p with closed := true }

def occur (s : Service) (event : Occurrence) : Service :=
  let (broker, posts) := s.broker.step event
  posts.foldl carry { s with broker }

def accept (s : Service) : Option ConnId × Service :=
  if s.settings.maxConnections ≤ s.sockets.countP (fun p => !p.closed) then (none, s)
  else
    let conn : ConnId := ⟨s.accepted + 1⟩
    let socket : Socket := { conn }
    let s := { s with accepted := s.accepted + 1, sockets := s.sockets ++ [socket] }
    (some conn, s.occur (.connected conn (s.peerText conn)))

def occurrence (conn : ConnId) (payload : Octets) : Occurrence :=
  match Signal.decode payload with
  | .ok signal => .request conn signal
  | .error fault => .malformed conn fault

def hangUp (s : Service) (conn : ConnId) : Service := s.occur (.disconnected conn)

/-- Takes bytes of a client. A frame that announces too much ends the connection. -/
def receive (s : Service) (conn : ConnId) (bs : Octets) : Service :=
  match s.socket? conn with
  | none => s
  | some p =>
    let (payloads, fault, left) := Frame.drain (p.inbound ++ bs)
    let s := s.update conn fun p => { p with inbound := left }
    let s := payloads.foldl (fun s payload => s.occur (occurrence conn payload)) s
    if fault.isSome then s.hangUp conn else s

def expire (s : Service) (conn : ConnId) : Service :=
  if (s.socket? conn).any Socket.isStalled then s.hangUp conn else s

def collect (s : Service) (conn : ConnId) : (Octets × Bool) × Service :=
  match s.socket? conn with
  | none => (([], true), s)
  | some p => ((p.outbound, p.closed), s.update conn fun p => { p with outbound := [] })

/-- The service as the other end of a client's link. A refused connection is closed from the
start. -/
def peer : Option ConnId → Peer Service
  | none => { accept := fun _ _ => none, deliver := fun s => (([], true), s) }
  | some conn =>
    { accept := fun bs s => if s.isOpen conn then some (s.receive conn bs) else none
      deliver := fun s => s.collect conn }

end Service
end SharedVariables
