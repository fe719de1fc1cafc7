import SharedVariables.Text

/-! Handles of connections and what a connection is used for. -/
namespace SharedVariables

structure ConnId where
  number : Nat
deriving DecidableEq, Inhabited

namespace ConnId

def text (c : ConnId) : String := "conn#" ++ Text.decimal c.number

end ConnId

inductive Role where
  /-- Requests and replies; sides of records are held over such a connection. -/
  | command
  | events
deriving DecidableEq, Inhabited

namespace Role

def label : Role → String
  | .command => "command"
  | .events => "events"

end Role
end SharedVariables
