/-! How many partners of a shared variable are active. -/
namespace SharedVariables

inductive Coupling where
  | uncoupled
  | offered
  | coupled
deriving DecidableEq, Inhabited

namespace Coupling

def ofActive : Nat → Coupling
  | 0 => .uncoupled
  | 1 => .offered
  | _ => .coupled

def toByte : Coupling → UInt8
  | .uncoupled => 0
  | .offered => 1
  | .coupled => 2

def ofByte? (b : UInt8) : Option Coupling :=
  [.uncoupled, .offered, .coupled].find? fun c => c.toByte == b

def label : Coupling → String
  | .uncoupled => "NONE"
  | .offered => "OFFERED"
  | .coupled => "COUPLED"

theorem ofByte?_toByte (c : Coupling) : ofByte? c.toByte = some c := by cases c <;> decide

end Coupling
end SharedVariables
