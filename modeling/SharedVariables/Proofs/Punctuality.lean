import SharedVariables.Proofs.Waiting

/-! When the frames of a stream are read. What a reader gives, and when, follows from the moments
at which the single bytes arrive; the chunks that they come in leave no trace. -/
namespace SharedVariables.Arrivals

/-- What a stream gives whose bytes arrive one by one, and when. The length of a frame is known with
its fourth byte, at `p`. Its payload is there with the last byte of the frame, at `q`, and counts if
that is before the timeout since `p`. -/
def timeline (timeout closesAt : Nat) (bytes : List (UInt8 × Nat)) :
    List (Except Fault (Option Octets) × Nat) :=
  match _h : bytes[3]? with
  | none => [(.ok none, closesAt)]
  | some (_, p) =>
    if Limits.frameSize < announced bytes then [(.error (Frame.tooLarge (announced bytes)), p)]
    else
      match bytes[3 + announced bytes]? with
      | none => [(.ok none, min (p + timeout) closesAt)]
      | some (_, q) =>
        if q < p + timeout then
          (.ok (some (((bytes.drop 4).take (announced bytes)).map (·.1))), q) ::
            timeline timeout closesAt (bytes.drop (4 + announced bytes))
        else [(.ok none, min (p + timeout) closesAt)]
termination_by bytes.length
decreasing_by
  have long := (List.getElem?_eq_some_iff.mp _h).1
  rw [List.length_drop]
  omega

variable {a : Arrivals} {timeout : Nat}

/-- A reader of chunks does what follows from the single bytes. -/
theorem Timely.readAll_eq (timely : a.Timely) (positive : 0 < timeout) :
    a.readAll timeout = timeline timeout a.closesAt a.timed := by
  induction a using readAll_induction timeout with
  | frame a payload b given read ih =>
    have finds := timely.finds timeout
    rw [given] at finds
    cases finds with
    | whole known small last soon timely' closes rest =>
      rw [read, timeline, known]
      simp only
      rw [if_neg (Nat.not_lt.mpr small), last]
      simp only
      rw [if_pos (by omega), ih timely', closes, rest]
  | last a outcome b given other read =>
    have finds := timely.finds timeout
    rw [given] at finds
    rw [read]
    cases finds with
    | cut missing now => rw [timeline, missing, now]
    | large known large =>
      rw [timeline, known]
      exact (if_pos large).symm
    | late known small present late now =>
      rw [timeline, known]
      simp only
      rw [if_neg (Nat.not_lt.mpr small), now]
      split
      · rfl
      · rename_i last
        rw [if_neg (Nat.not_lt.mpr (late _ _ last))]
    | whole => exact absurd rfl (other _)

end SharedVariables.Arrivals
