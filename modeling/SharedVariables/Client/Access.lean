import SharedVariables.Limits
import SharedVariables.Link
import SharedVariables.Control

/-! Reading and writing a shared variable. The broker only says whether an access is permitted at
the moment; who is refused asks again after a pause until it is let through or its time runs out,
then performs the access and reports it. -/
namespace SharedVariables

structure Accessor (σ : Type) where
  mayUse : Key → UInt32 → Act σ Bool
  maySet : Key → UInt32 → Act σ Bool
  getValue : Key → Act σ Octets
  assignValue : Key → Octets → Act σ Unit
  setState : Key → Bool → Act σ State
  sleep : Duration → σ → σ := fun _ s => s

structure Policy where
  timeout : Duration := Limits.accessTimeout
  pause : Duration := Limits.pollInterval
deriving DecidableEq

/-- What an access runs on, a clock and a counter. Only pauses take time. Unless it is told
otherwise, the clock keeps them to the nanosecond and knows no last moment. -/
structure Runtime where
  /-- When a sleeper wakes, by the moment at which it falls asleep and the span that it asks for. -/
  wake : Duration → Duration → Duration := fun now span => now + span
  /-- Whether a moment can be told: whether the clock has a number for it. -/
  tells : Duration → Bool := fun _ => true
  /-- The attempt that must not be refused, for want of a number for the next. Where the counter
  starts again from zero instead, this is any number, however large. -/
  lastAttempt : Nat := Limits.lastAttempt

/-- How an access ends: with a result, or together with the program. -/
inductive Ending (α : Type) where
  | returned (outcome : Except Fault α)
  /-- A number has left its range. -/
  | crashed

namespace Ending

variable {α β : Type}

def map (f : α → β) : Ending α → Ending β
  | .returned outcome => .returned (outcome.map f)
  | .crashed => .crashed

def toOption : Ending α → Option α
  | .returned outcome => outcome.toOption
  | .crashed => none

end Ending

namespace Accessor

variable {σ : Type}

/-- Checks until permitted and tells when that was. So many attempts are left after this one. The
time is compared after a refusal, so a check at the deadline is still made. -/
def waitFrom (runtime : Runtime) (check : UInt32 → Act σ Bool) (sleep : Duration → σ → σ)
    (key : Key) (policy : Policy) (deadline : Duration) :
    Nat → UInt32 → Duration → σ → (Ending Unit × Duration) × σ
  | left, attempt, now, s =>
    match check attempt s with
    | (.error e, s) => ((.returned (.error e), now), s)
    | (.ok true, s) => ((.returned (.ok ()), now), s)
    | (.ok false, s) =>
      match left with
      | 0 => ((.crashed, now), s)
      | left + 1 =>
        if deadline.nanos ≤ now.nanos then
          ((.returned (.error (.accessTimeout key policy.timeout)), now), s)
        else
          waitFrom runtime check sleep key policy deadline left (attempt + 1)
            (runtime.wake now policy.pause) (sleep policy.pause s)

def waitFor (runtime : Runtime) (check : UInt32 → Act σ Bool) (sleep : Duration → σ → σ) (key : Key)
    (policy : Policy) (start : Duration) (s : σ) : (Ending Unit × Duration) × σ :=
  let deadline := start + policy.timeout
  if runtime.tells deadline then
    waitFrom runtime check sleep key policy deadline runtime.lastAttempt 0 start s
  else ((.crashed, start), s)

def whenPermitted {α : Type} (runtime : Runtime) (check : UInt32 → Act σ Bool)
    (sleep : Duration → σ → σ) (key : Key) (policy : Policy) (act : Act σ α) (start : Duration)
    (s : σ) : (Ending α × Duration) × σ :=
  match waitFor runtime check sleep key policy start s with
  | ((.crashed, now), s) => ((.crashed, now), s)
  | ((.returned (.error e), now), s) => ((.returned (.error e), now), s)
  | ((.returned (.ok ()), now), s) =>
    let (outcome, s) := act s
    ((.returned outcome, now), s)

def read (a : Accessor σ) (runtime : Runtime) (key : Key) (policy : Policy) (start : Duration) :
    σ → (Ending Octets × Duration) × σ :=
  whenPermitted runtime (a.mayUse key) a.sleep key policy
    ((a.getValue key).andThen fun value => (a.setState key true).refine fun _ => .ok value) start

def write (a : Accessor σ) (runtime : Runtime) (key : Key) (payload : Octets) (policy : Policy)
    (start : Duration) : σ → (Ending Unit × Duration) × σ :=
  whenPermitted runtime (a.maySet key) a.sleep key policy
    ((a.assignValue key payload).andThen fun () => (a.setState key false).refine fun _ => .ok ())
    start

end Accessor
end SharedVariables
