import SharedVariables.Client
import SharedVariables.Listener
import SharedVariables.Service

/-! Named clients and listeners of a running broker. -/
namespace SharedVariables

structure Clients where
  service : Service
  clients : List (String × Client × Option ConnId) := []
  listeners : List (String × Listener × Option ConnId) := []

namespace Clients

def start (service : Service) : Clients := { service := service.accept.2 }

def client? (s : Clients) (c : String) : Option (Client × Option ConnId) :=
  (s.clients.find? fun e => e.1 == c).map (·.2)

def listener? (s : Clients) (c : String) : Option (Listener × Option ConnId) :=
  (s.listeners.find? fun e => e.1 == c).map (·.2)

def hangUp (service : Service) : Option ConnId → Service
  | some conn => service.hangUp conn
  | none => service

def dropClient (s : Clients) (c : String) : Clients :=
  match s.client? c with
  | none => s
  | some (_, conn) =>
    { s with service := hangUp s.service conn, clients := s.clients.filter fun e => e.1 != c }

def dropListener (s : Clients) (c : String) : Clients :=
  match s.listener? c with
  | none => s
  | some (_, conn) =>
    { s with service := hangUp s.service conn, listeners := s.listeners.filter fun e => e.1 != c }

def drop (s : Clients) (c : String) : Clients :=
  if (s.client? c).isSome then s.dropClient c else s.dropListener c

def enrol (conn : Option ConnId) (id : Option Identity) :
    Act (Service × Client) Unit := fun state =>
  match id with
  | none => (.ok (), state)
  | some id => Client.register (Service.peer conn) id state

def connect (s : Clients) (c : String) (id : Option Identity) (endpoint : Endpoint) :
    Except Fault Client × Clients :=
  match s.service.reach endpoint with
  | .error e => (.error e, s)
  | .ok () =>
    let (conn, service) := s.service.accept
    let fresh := { Client.anonymous endpoint with pid := s.service.machine.process }
    match enrol conn id (service, fresh) with
    | (.error e, service, _) => (.error e, { s with service := hangUp service conn })
    | (.ok (), service, client) =>
      let s := { s with service }.dropClient c
      (.ok client, { s with clients := s.clients ++ [(c, client, conn)] })

def listen (s : Clients) (c : String) (id : Identity) : Except Fault Listener × Clients :=
  let endpoint := s.service.settings.endpoint
  match s.service.reach endpoint with
  | .error e => (.error e, s)
  | .ok () =>
    let (conn, service) := s.service.accept
    match Listener.connect (Service.peer conn) endpoint.text id service with
    | (.error e, service) => (.error e, { s with service := hangUp service conn })
    | (.ok listener, service) =>
      let s := { s with service }.dropListener c
      (.ok listener, { s with listeners := s.listeners ++ [(c, listener, conn)] })

def next (s : Clients) (c : String) : Option Listener.Receipt × Clients :=
  match s.listener? c with
  | none => (none, s)
  | some (listener, conn) =>
    let (receipt, service, listener) := Listener.next (Service.peer conn) s.service listener
    (some receipt, { s with
      service, listeners := s.listeners.map fun e => if e.1 == c then (c, listener, conn) else e })

def perform {α : Type} (s : Clients) (c : String)
    (f : Peer Service → Service × Client → α × Service × Client) :
    Option α × Clients :=
  match s.client? c with
  | none => (none, s)
  | some (client, conn) =>
    let (answer, service, client) := f (Service.peer conn) (s.service, client)
    (some answer, { s with
      service, clients := s.clients.map fun e => if e.1 == c then (c, client, conn) else e })

end Clients
end SharedVariables
