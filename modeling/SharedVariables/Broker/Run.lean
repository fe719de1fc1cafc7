import SharedVariables.Broker.Departure
import SharedVariables.Broker.Refusal
import SharedVariables.Broker.Request

/-! The broker as a machine: events in, posts out. -/
namespace SharedVariables

inductive Occurrence where
  | connected (conn : ConnId) (peer : String)
  | request (conn : ConnId) (signal : Signal)
  /-- A frame arrived that is no signal. -/
  | malformed (conn : ConnId) (fault : Fault)
  | disconnected (conn : ConnId)
deriving DecidableEq

namespace Broker

/-- Handles one request: the reply, the broker after it, and what is sent before the reply. -/
def dispatch (b : Broker) (conn : ConnId) (request : Signal) : Signal × Broker × List Post :=
  let handling := b.handle conn request
  match handling.outcome with
  | .ok reply => (reply, handling.broker, handling.posts)
  | .error fault => (.refusal request.kind request.subject fault, handling.broker, handling.posts)

def step (b : Broker) : Occurrence → Broker × List Post
  | .connected conn peer => ({ b with roster := b.roster.insert conn peer }, [])
  | .request conn signal =>
    let (reply, after, posts) := b.dispatch conn signal
    (after, posts ++ after.send conn reply)
  | .malformed conn fault => (b, b.send conn (.ofFault fault "decode"))
  | .disconnected conn => b.disconnect conn

def run (b : Broker) : List Occurrence → Broker × List Post
  | [] => (b, [])
  | event :: rest =>
    let (next, posts) := b.step event
    let (last, later) := next.run rest
    (last, posts ++ later)

end Broker
end SharedVariables
