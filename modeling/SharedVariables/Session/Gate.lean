import SharedVariables.Client.Access

/-! A variable that refuses some checks and fails where it is told to, and keeps account of what is
asked of it. -/
namespace SharedVariables

structure Gate where
  key : Key
  refusals : Nat
  value : Option Octets := none
  failing : Option String := none
  /-- Checks that do not fail although they are to. -/
  failAfter : Nat := 0
  checks : Nat := 0
  attempts : List UInt32 := []
  reported : List Bool := []

namespace Gate

def failure (operation : String) : Fault := .remote 77 operation

def fails (g : Gate) (operation : String) : Bool := g.failing == some operation

def check (g : Gate) (attempt : UInt32) : Except Fault Bool × Gate :=
  let after := { g with checks := g.checks + 1, attempts := attempt :: g.attempts }
  if g.fails "may" && g.failAfter ≤ g.checks then (.error (failure "may"), after)
  else (.ok (g.refusals ≤ g.checks), after)

def getValue (g : Gate) : Except Fault Octets × Gate :=
  if g.fails "get" then (.error (failure "get"), g)
  else
    match g.value with
    | some v => (.ok v, g)
    | none => (.error (.noValue g.key), g)

def assignValue (g : Gate) (payload : Octets) : Except Fault Unit × Gate :=
  if g.fails "assign" then (.error (failure "assign"), g) else
    (.ok (), { g with value := some payload })

def setState (g : Gate) (used : Bool) : Except Fault State × Gate :=
  let g := { g with reported := g.reported ++ [used] }
  if g.fails "set_state" then (.error (failure "set_state"), g) else (.ok .idle, g)

def accessor : Accessor Gate where
  mayUse _ attempt g := g.check attempt
  maySet _ attempt g := g.check attempt
  getValue _ g := g.getValue
  assignValue _ payload g := g.assignValue payload
  setState _ used g := g.setState used

def inOrder (g : Gate) : Bool :=
  g.attempts.reverse == (List.range g.checks).map UInt32.ofNat

end Gate
end SharedVariables
