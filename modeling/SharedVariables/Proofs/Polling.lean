import Mathlib.Algebra.Order.Floor.Div
import SharedVariables.Session.Gate

/-! How an access waits, performs and reports. It is watched at work: every operation that it asks
for is noted with its moment on a clock that goes on only while the access pauses. Whatever the
operations answer, what is noted is that the checks follow each other at a steady pace, and that a
value is moved and reported only after one was permitted. -/
namespace SharedVariables

namespace Duration

end Duration

/-- Moments that follow each other at equal distances. -/
structure Pace where
  start : Duration
  beat : Duration

namespace Pace

def moment (pace : Pace) (n : Nat) : Duration := ⟨pace.start.nanos + n * pace.beat.nanos⟩

end Pace

namespace Runtime

variable {tick longest start pause : Duration} {runtime : Runtime} {pace : Pace}

end Runtime

namespace Accessor

variable {σ α : Type}

inductive Operation where
  | mayUse (key : Key) (attempt : UInt32)
  | maySet (key : Key) (attempt : UInt32)
  | getValue (key : Key)
  | assignValue (key : Key) (payload : Octets)
  | setState (key : Key) (used : Bool)
deriving DecidableEq

/-- A state under observation, with a clock and all that was asked for so far. -/
structure Watched (σ : Type) where
  state : σ
  now : Duration
  asked : List (Operation × Duration) := []

/-- One of the two accesses: how it asks for permission, how it moves the value, and what it
reports. -/
structure Access (σ α : Type) where
  asks : UInt32 → Operation
  check : UInt32 → Act σ Bool
  moves : Operation
  move : Act σ α
  used : Bool
  apart : ∀ attempt, asks attempt ≠ moves

def use (a : Accessor σ) (key : Key) : Access σ Octets where
  asks := .mayUse key
  check := a.mayUse key
  moves := .getValue key
  move := a.getValue key
  used := true
  apart := nofun

def set (a : Accessor σ) (key : Key) (payload : Octets) : Access σ Unit where
  asks := .maySet key
  check := a.maySet key
  moves := .assignValue key payload
  move := a.assignValue key payload
  used := false
  apart := nofun

def access (a : Accessor σ) (runtime : Runtime) (key : Key) (policy : Policy) (x : Access σ α)
    (start : Duration) : σ → (Ending α × Duration) × σ :=
  whenPermitted runtime x.check a.sleep key policy
    (x.move.andThen fun value => (a.setState key x.used).refine fun _ => .ok value) start

theorem write_eq (a : Accessor σ) (runtime : Runtime) (key : Key) (payload : Octets)
    (policy : Policy) :
    a.write runtime key payload policy = a.access runtime key policy (a.set key payload) := rfl

/-- The state in which a check is made, if all before it were refused. -/
def stateAt (a : Accessor σ) (policy : Policy) (x : Access σ α) (s : σ) : Nat → σ
  | 0 => s
  | n + 1 => a.sleep policy.pause (x.check (UInt32.ofNat n) (stateAt a policy x s n)).2

/-- What a check answers in that state, and the state that it leaves. -/
def checkAt (a : Accessor σ) (policy : Policy) (x : Access σ α) (s : σ) (n : Nat) :
    Except Fault Bool × σ :=
  x.check (UInt32.ofNat n) (a.stateAt policy x s n)

/-- The checks before a number are refused. -/
def Refused (a : Accessor σ) (policy : Policy) (x : Access σ α) (s : σ) (n : Nat) : Prop :=
  ∀ i < n, (a.checkAt policy x s i).1 = .ok false

/-- The first checks, counted from zero. -/
def checks (pace : Pace) (x : Access σ α) (n : Nat) : List (Operation × Duration) :=
  (List.range n).map fun i => (x.asks (UInt32.ofNat i), pace.moment i)

variable {a : Accessor σ} {runtime : Runtime} {pace : Pace} {key : Key} {policy : Policy}
  {x : Access σ α} {s : σ} {n r : Nat}

theorem Refused.succ (refused : a.Refused policy x s n)
    (also : (a.checkAt policy x s n).1 = .ok false) : a.Refused policy x s (n + 1) := by
  intro i small
  rcases Nat.lt_succ_iff_lt_or_eq.mp small with earlier | rfl
  · exact refused i earlier
  · exact also

theorem Refused.unique (one : a.Refused policy x s n) (other : a.Refused policy x s r)
    (decides : (a.checkAt policy x s n).1 ≠ .ok false)
    (also : (a.checkAt policy x s r).1 ≠ .ok false) : n = r := by
  rcases Nat.lt_trichotomy n r with earlier | same | later
  · exact absurd (other n earlier) decides
  · exact same
  · exact absurd (one r later) also

/-- The watched state just before a check, and just after it. -/
def before (a : Accessor σ) (policy : Policy) (x : Access σ α) (s : σ) (pace : Pace) (n : Nat) :
    Watched σ :=
  ⟨a.stateAt policy x s n, pace.moment n, checks pace x n⟩

def after (a : Accessor σ) (policy : Policy) (x : Access σ α) (s : σ) (pace : Pace) (n : Nat) :
    Watched σ :=
  ⟨(a.checkAt policy x s n).2, pace.moment n, checks pace x (n + 1)⟩

variable {outcome : Ending α × Duration} {asked : List (Operation × Duration)}

end Accessor
end SharedVariables
