import SharedVariables.Fault
import SharedVariables.Limits
import SharedVariables.Octets

/-! Frames: the length of a payload in four bytes, then the payload. -/
namespace SharedVariables.Frame

def tooLarge (size : Nat) : Fault := .frameTooLarge size Limits.frameSize

def write (payload : Octets) : Except Fault Octets :=
  let size := payload.length
  if Limits.frameSize < size then .error (tooLarge size) else .ok (Octets.ofNat 4 size ++ payload)

/-- Splits one complete frame off a buffer: its payload and the bytes after it. Nothing is taken
while the frame is incomplete, and a frame that announces too much is a fault as soon as its length
is there. -/
def take (buffer : Octets) : Except Fault (Option (Octets × Octets)) :=
  let header := buffer.take 4
  if header.length < 4 then .ok none
  else
    let size := Octets.toNat header
    if Limits.frameSize < size then .error (tooLarge size)
    else
      let body := buffer.drop 4
      let payload := body.take size
      if payload.length < size then .ok none else .ok (some (payload, body.drop size))

theorem length_lt_of_take {buffer payload rest : Octets}
    (h : take buffer = .ok (some (payload, rest))) :
    rest.length < buffer.length := by
  simp only [take] at h
  split at h
  · simp at h
  · rename_i full
    split at h
    · simp at h
    · split at h
      · simp at h
      · simp only [Except.ok.injEq, Option.some.injEq, Prod.mk.injEq] at h
        rw [← h.2]
        simp only [List.length_take, List.length_drop] at full ⊢
        omega

/-- Takes frames until there is no complete one: the payloads, the fault that ended it if any, and
the bytes left. -/
def drain (buffer : Octets) : List Octets × Option Fault × Octets :=
  match _h : take buffer with
  | .error e => ([], some e, buffer)
  | .ok none => ([], none, buffer)
  | .ok (some (payload, rest)) =>
    let (payloads, fault, left) := drain rest
    (payload :: payloads, fault, left)
termination_by buffer.length
decreasing_by exact length_lt_of_take _h

end SharedVariables.Frame
