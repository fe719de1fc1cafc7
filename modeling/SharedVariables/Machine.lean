import SharedVariables.Fault

/-! The machine that a broker and its clients run on, and what its system refuses. -/
namespace SharedVariables

structure Machine where
  networkUp : Bool := true
  process : UInt32 := 1
deriving DecidableEq

namespace Machine

def noSuchFile : Fault := .io "No such file or directory (os error 2)"

def notADirectory : Fault := .io "Not a directory (os error 20)"

def isADirectory : Fault := .io "Is a directory (os error 21)"

def invalidArgument : Fault := .io "Invalid argument (os error 22)"

def unreachable : Fault := .io "Network is unreachable (os error 101)"

def refused : Fault := .io "Connection refused (os error 111)"

end Machine
end SharedVariables
