import SharedVariables.Fault
import SharedVariables.Limits

/-! Where a broker listens and the bounds it runs with. -/
namespace SharedVariables

inductive Endpoint where
  | tcp (host : String) (port : UInt16)
  | socket (path : String)
deriving DecidableEq

namespace Endpoint

def standard : Endpoint := .tcp Limits.defaultHost Limits.defaultPort

def text : Endpoint → String
  | .tcp host port => host ++ ":" ++ Text.decimal port.toNat
  | .socket path => "unix:" ++ path

def isTcp : Endpoint → Bool
  | .tcp .. => true
  | .socket .. => false

end Endpoint

structure Settings where
  endpoint : Endpoint := .standard
  maxVariables : Option Nat := none
  maxConnections : Nat := Limits.connections
  frameReadTimeout : Duration := Limits.frameReadTimeout
deriving DecidableEq

namespace Settings

/-- No bound may be zero; the first that is decides the fault. -/
def check (s : Settings) : Except Fault Settings :=
  if s.maxVariables = some 0 then .error (.config "max_variables must be at least 1")
  else if s.maxConnections = 0 then .error (.config "max_connections must be at least 1")
  else if s.frameReadTimeout = .zero then .error (.config "frame_read_timeout must be non-zero")
  else .ok s

end Settings
end SharedVariables
