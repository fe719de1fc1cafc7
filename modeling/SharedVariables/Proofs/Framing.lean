import SharedVariables.Frame
import SharedVariables.Proofs.Encoding

/-! Frames in a stream. A buffer that holds the start of a stream of frames gives the first of them
as soon as it is there in full, and nothing before. -/
namespace SharedVariables.Frame

/-- A payload behind its length. -/
def bytes (payload : Octets) : Octets := Octets.ofNat 4 payload.length ++ payload

/-- Frames one after the other. -/
def stream (payloads : List Octets) : Octets := payloads.flatMap bytes

theorem write_eq {payload : Octets} (fits : payload.length ≤ Limits.frameSize) :
    write payload = .ok (bytes payload) := by
  simp [write, bytes, Nat.not_lt.mpr fits]

theorem toNat_header {payload : Octets} (fits : payload.length ≤ Limits.frameSize) :
    Octets.toNat (Octets.ofNat 4 payload.length) = payload.length := by
  apply Octets.toNat_ofNat
  simp only [Limits.frameSize] at fits
  simp only [Octets.range]
  omega

theorem take_append {payload : Octets} (fits : payload.length ≤ Limits.frameSize) (more : Octets) :
    take (bytes payload ++ more) = .ok (some (payload, more)) := by
  have header : (bytes payload ++ more).take 4 = Octets.ofNat 4 payload.length := by
    rw [bytes, List.append_assoc]
    exact List.take_left' (Octets.length_ofNat 4 _)
  have body : (bytes payload ++ more).drop 4 = payload ++ more := by
    rw [bytes, List.append_assoc]
    exact List.drop_left' (Octets.length_ofNat 4 _)
  simp [take, header, body, toNat_header fits, Nat.not_lt.mpr fits]

theorem take_of_incomplete {payload buffer missing : Octets}
    (fits : payload.length ≤ Limits.frameSize) (split : bytes payload = buffer ++ missing)
    (incomplete : missing ≠ []) : take buffer = .ok none := by
  have size : 4 + payload.length = buffer.length + missing.length := by
    simpa [bytes] using congrArg List.length split
  have positive := List.length_pos_iff.mpr incomplete
  simp only [take, List.length_take, List.length_drop]
  split
  · rfl
  · rename_i long
    have header : buffer.take 4 = Octets.ofNat 4 payload.length := by
      have start := congrArg (List.take 4) split
      rw [bytes, List.take_left' (Octets.length_ofNat 4 _),
        List.take_append_of_le_length (by omega)] at start
      exact start.symm
    rw [header, toNat_header fits, if_neg (Nat.not_lt.mpr fits), if_pos (by omega)]

/-- What a buffer gives that holds the start of a stream. -/
theorem take_stream {payloads : List Octets} (fit : ∀ p ∈ payloads, p.length ≤ Limits.frameSize)
    {buffer rest : Octets} (aligned : buffer ++ rest = stream payloads) :
    (take buffer = .ok none ∧ (rest = [] → payloads = [])) ∨
      ∃ p later more, payloads = p :: later ∧ take buffer = .ok (some (p, more)) ∧
        more ++ rest = stream later := by
  cases payloads with
  | nil =>
    obtain ⟨rfl, rfl⟩ := List.append_eq_nil_iff.mp aligned
    exact .inl ⟨rfl, fun _ => rfl⟩
  | cons p later =>
    have small := fit p List.mem_cons_self
    rcases List.append_eq_append_iff.mp aligned with ⟨missing, split, tail⟩ | ⟨more, rfl, tail⟩
    · by_cases complete : missing = []
      · subst missing
        rw [List.append_nil] at split
        refine .inr ⟨p, later, [], rfl, ?_, tail⟩
        rw [← split, ← List.append_nil (bytes p)]
        exact take_append small []
      · refine .inl ⟨take_of_incomplete small split complete, fun arrived => ?_⟩
        rw [arrived] at tail
        exact absurd (List.append_eq_nil_iff.mp tail.symm).1 complete
    · exact .inr ⟨p, later, more, rfl, take_append small more, tail.symm⟩

end SharedVariables.Frame
