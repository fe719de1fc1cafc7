import SharedVariables.Client.Access
import SharedVariables.Client.Inquiry
import SharedVariables.Settings

/-! A client of the broker over one command connection. -/
namespace SharedVariables

structure Client where
  link : Link
  endpoint : Endpoint
  identity : Identity := .nobody
  pid : UInt32 := 0
  replyTimeout : Duration := Limits.replyTimeout
deriving DecidableEq

namespace Client

variable {σ α : Type}

def anonymous (endpoint : Endpoint) : Client := { link := { peer := endpoint.text }, endpoint }

def call (peer : Peer σ) (request : Signal) : Act (σ × Client) Signal := fun (s, c) =>
  let (outcome, s, link) := Link.exchange peer c.replyTimeout request (s, c.link)
  (outcome.bind Inquiry.orRemote, s, { c with link })

def ask (peer : Peer σ) (q : Inquiry α) : Act (σ × Client) α := (call peer q.request).refine q.read

def register (peer : Peer σ) (id : Identity) : Act (σ × Client) Unit := fun (s, c) =>
  match ask peer (.register id c.pid) (s, c) with
  | (.ok (), s, c) => (.ok (), s, { c with identity := id })
  | failed => failed

def matchOrMake (peer : Peer σ) (name : String) (wanted : Identity) :
    Act (σ × Client) (Key × Coupling) :=
  fun (s, c) => ask peer (.matchOrMake name wanted c.identity) (s, c)

def accessor (peer : Peer σ) : Accessor (σ × Client) where
  mayUse key attempt := ask peer (.mayUse key attempt)
  maySet key attempt := ask peer (.maySet key attempt)
  getValue key := ask peer (.getValue key)
  assignValue key payload := ask peer (.assignValue key payload)
  setState key used := ask peer (.setState key used)

end Client
end SharedVariables
