import SharedVariables.Proofs.Framing

/-! Frames out of chunks. What a buffer gives depends on the bytes that have come in and never on
where they were cut, for any bytes whatsoever; so the frames of a stream come out whole and in
order. -/
namespace SharedVariables.Frame

theorem take_eq_some_iff {buffer payload rest : Octets} :
    take buffer = .ok (some (payload, rest)) ↔
      payload.length ≤ Limits.frameSize ∧ buffer = bytes payload ++ rest := by
  constructor
  · intro taken
    simp only [take, List.length_take, List.length_drop] at taken
    split at taken
    · simp at taken
    · rename_i long
      split at taken
      · simp at taken
      · rename_i small
        split at taken
        · simp at taken
        · rename_i whole
          simp only [Except.ok.injEq, Option.some.injEq, Prod.mk.injEq] at taken
          have size : payload.length = Octets.toNat (buffer.take 4) := by
            rw [← taken.1, List.length_take, List.length_drop]
            omega
          have header : Octets.ofNat 4 payload.length = buffer.take 4 := by
            rw [size]
            apply Octets.ofNat_toNat
            rw [List.length_take]
            omega
          constructor
          · omega
          · rw [bytes, header, List.append_assoc, ← taken.1, ← taken.2, List.take_append_drop,
              List.take_append_drop]
  · rintro ⟨fits, rfl⟩
    exact take_append fits rest

theorem take_eq_error_iff {buffer : Octets} {e : Fault} :
    take buffer = .error e ↔
      4 ≤ buffer.length ∧ Limits.frameSize < Octets.toNat (buffer.take 4) ∧
        e = tooLarge (Octets.toNat (buffer.take 4)) := by
  simp only [take, List.length_take, List.length_drop]
  constructor
  · intro failed
    split at failed
    · simp at failed
    · split at failed
      · rename_i long large
        exact ⟨by omega, large, (Except.error.inj failed).symm⟩
      · split at failed <;> simp at failed
  · rintro ⟨long, large, rfl⟩
    rw [if_neg (by omega), if_pos large]

theorem take_eq_none_iff {buffer : Octets} :
    take buffer = .ok none ↔
      buffer.length < 4 ∨
        Octets.toNat (buffer.take 4) ≤ Limits.frameSize ∧
          buffer.length < 4 + Octets.toNat (buffer.take 4) := by
  simp only [take, List.length_take, List.length_drop]
  constructor
  · intro waits
    split at waits
    · left
      omega
    · split at waits
      · simp at waits
      · split at waits
        · right
          omega
        · simp at waits
  · intro missing
    split
    · rfl
    · rw [if_neg (by omega), if_pos (by omega)]

theorem take_append_of_some {buffer payload rest : Octets}
    (taken : take buffer = .ok (some (payload, rest))) (more : Octets) :
    take (buffer ++ more) = .ok (some (payload, rest ++ more)) := by
  obtain ⟨fits, rfl⟩ := take_eq_some_iff.mp taken
  rw [List.append_assoc]
  exact take_append fits (rest ++ more)

theorem take_append_of_error {buffer : Octets} {e : Fault} (failed : take buffer = .error e)
    (more : Octets) :
    take (buffer ++ more) = .error e := by
  obtain ⟨long, large, rfl⟩ := take_eq_error_iff.mp failed
  have header : (buffer ++ more).take 4 = buffer.take 4 := List.take_append_of_le_length long
  apply take_eq_error_iff.mpr
  rw [header, List.length_append]
  exact ⟨by omega, large, rfl⟩

/-- The start of an incomplete frame is incomplete. -/
theorem take_of_append_none {buffer more : Octets} (waits : take (buffer ++ more) = .ok none) :
    take buffer = .ok none := by
  cases found : take buffer with
  | error e => simp [take_append_of_error found] at waits
  | ok given =>
    cases given with
    | none => rfl
    | some frame => simp [take_append_of_some found] at waits

theorem drain_of_none {buffer : Octets} (waits : take buffer = .ok none) :
    drain buffer = ([], none, buffer) := by
  rw [drain]
  split <;> simp_all

theorem drain_of_error {buffer : Octets} {e : Fault} (failed : take buffer = .error e) :
    drain buffer = ([], some e, buffer) := by
  rw [drain]
  split <;> simp_all

theorem drain_of_some {buffer payload rest : Octets}
    (taken : take buffer = .ok (some (payload, rest))) :
    drain buffer = (payload :: (drain rest).1, (drain rest).2) := by
  rw [drain]
  split <;> simp_all

/-- What a call gives that finds no complete frame: nothing, or the fault. -/
def ending {α : Type} : Option Fault → Except Fault (Option α)
  | none => .ok none
  | some e => .error e

theorem drain_stream {payloads : List Octets} (fit : ∀ p ∈ payloads, p.length ≤ Limits.frameSize)
    (rest : Octets) :
    drain (stream payloads ++ rest) = (payloads ++ (drain rest).1, (drain rest).2) := by
  induction payloads with
  | nil => rfl
  | cons p later ih =>
    have taken : take (stream (p :: later) ++ rest) = .ok (some (p, stream later ++ rest)) := by
      rw [stream, List.flatMap_cons, List.append_assoc]
      exact take_append (fit p List.mem_cons_self) _
    rw [drain_of_some taken, ih fun q mem => fit q (List.mem_cons_of_mem p mem)]
    rfl

/-- Draining takes the frames at the front of the bytes, all that are complete, and leaves the rest
as it came. -/
theorem drain_eq_iff {buffer left : Octets} {payloads : List Octets} {fault : Option Fault} :
    drain buffer = (payloads, fault, left) ↔
      buffer = stream payloads ++ left ∧ (∀ p ∈ payloads, p.length ≤ Limits.frameSize) ∧
        take left = ending fault := by
  constructor
  · intro drained
    fun_induction drain buffer generalizing payloads with
    | case1 buffer e failed =>
      simp only [Prod.mk.injEq] at drained
      obtain ⟨rfl, rfl, rfl⟩ := drained
      exact ⟨rfl, by simp, failed⟩
    | case2 buffer waits =>
      simp only [Prod.mk.injEq] at drained
      obtain ⟨rfl, rfl, rfl⟩ := drained
      exact ⟨rfl, by simp, waits⟩
    | case3 buffer payload rest taken later fault' left' tail ih =>
      simp only [Prod.mk.injEq] at drained
      obtain ⟨rfl, rfl, rfl⟩ := drained
      obtain ⟨fits, rfl⟩ := take_eq_some_iff.mp taken
      obtain ⟨rfl, fit, last⟩ := ih tail
      refine ⟨?_, ?_, last⟩
      · simp [stream]
      · intro p mem
        rcases List.mem_cons.mp mem with rfl | old
        · exact fits
        · exact fit p old
  · rintro ⟨rfl, fit, last⟩
    have rest : drain left = ([], fault, left) := by
      cases fault with
      | none => exact drain_of_none last
      | some e => exact drain_of_error last
    rw [drain_stream fit, rest, List.append_nil]

/-- Chunks are appended to a buffer one by one, and after each the frames are taken until there is
none. A fault ends it: what has been taken, the fault if any, and what is left in the buffer. -/
def gather (buffer : Octets) : List Octets → List Octets × Option Fault × Octets
  | [] => ([], none, buffer)
  | chunk :: later =>
    match drain (buffer ++ chunk) with
    | (payloads, some e, left) => (payloads, some e, left)
    | (payloads, none, left) =>
      let (more, fault, last) := gather left later
      (payloads ++ more, fault, last)

/-- The cuts between chunks do not matter. Bytes that come after a fault stay outside. -/
theorem gather_spec (chunks : List Octets) {buffer left : Octets} {payloads : List Octets}
    {fault : Option Fault} (waits : take buffer = .ok none)
    (gathered : gather buffer chunks = (payloads, fault, left)) :
    ∃ after, drain (buffer ++ chunks.flatten) = (payloads, fault, left ++ after) ∧
      (fault = none → after = []) := by
  induction chunks generalizing buffer payloads with
  | nil =>
    simp only [gather, Prod.mk.injEq] at gathered
    obtain ⟨rfl, rfl, rfl⟩ := gathered
    refine ⟨[], ?_, fun _ => rfl⟩
    rw [List.flatten_nil, List.append_nil]
    exact drain_of_none waits
  | cons chunk later ih =>
    rw [List.flatten_cons, ← List.append_assoc]
    simp only [gather] at gathered
    split at gathered
    · rename_i drained
      simp only [Prod.mk.injEq] at gathered
      obtain ⟨rfl, rfl, rfl⟩ := gathered
      obtain ⟨split, fit, last⟩ := drain_eq_iff.mp drained
      refine ⟨later.flatten, ?_, nofun⟩
      rw [split, List.append_assoc]
      exact drain_eq_iff.mpr ⟨rfl, fit, take_append_of_error last _⟩
    · rename_i first rest drained
      simp only [Prod.mk.injEq] at gathered
      obtain ⟨rfl, rfl, rfl⟩ := gathered
      obtain ⟨split, fit, last⟩ := drain_eq_iff.mp drained
      obtain ⟨after, tail, whole⟩ := ih last rfl
      refine ⟨after, ?_, whole⟩
      rw [split, List.append_assoc, drain_stream fit, tail]

/-- One call on a buffer: what it gives, and the buffer that it leaves. -/
def attempt (buffer : Octets) : Except Fault (Option Octets) × Octets :=
  match take buffer with
  | .ok (some (payload, rest)) => (.ok (some payload), rest)
  | .ok none => (.ok none, buffer)
  | .error e => (.error e, buffer)

theorem attempt_of_some {buffer payload after : Octets}
    (given : attempt buffer = (.ok (some payload), after)) :
    buffer = bytes payload ++ after := by
  unfold attempt at given
  split at given
  · rename_i taken
    simp only [Prod.mk.injEq, Except.ok.injEq, Option.some.injEq] at given
    obtain ⟨rfl, rfl⟩ := given
    exact (take_eq_some_iff.mp taken).2
  · simp at given
  · simp at given

theorem attempt_of_nothing {buffer after : Octets} {outcome : Except Fault (Option Octets)}
    (given : attempt buffer = (outcome, after))
    (nothing : ∀ payload, outcome ≠ .ok (some payload)) :
    after = buffer := by
  unfold attempt at given
  split at given <;> obtain ⟨rfl, rfl⟩ := Prod.mk.inj given
  · exact absurd rfl (nothing _)
  · rfl
  · rfl

theorem mapM_write {payloads : List Octets} (fit : ∀ p ∈ payloads, p.length ≤ Limits.frameSize) :
    payloads.mapM write = .ok (payloads.map bytes) := by
  induction payloads with
  | nil => rfl
  | cons p later ih =>
    rw [List.mapM_cons, write_eq (fit p List.mem_cons_self), ih fun q mem =>
      fit q (List.mem_cons_of_mem p mem)]
    rfl

/-- However a stream of frames is cut, its payloads come out in order and nothing is left over. A
call takes off exactly the frame that it gives, and leaves the buffer as it is when it gives
none. -/
theorem gather_of_frames (payloads : List Octets)
    (fit : ∀ p ∈ payloads, p.length ≤ Limits.frameSize) :
    (∃ frames, payloads.mapM write = .ok frames ∧
      ∀ chunks : List Octets, chunks.flatten = frames.flatten →
        gather [] chunks = (payloads, none, [])) ∧
    ∀ buffer after outcome, attempt buffer = (outcome, after) →
      (outcome = .ok none ∨ (∃ size, outcome = .error (tooLarge size)) → after = buffer) ∧
      ∀ payload, outcome = .ok (some payload) → buffer = bytes payload ++ after := by
  constructor
  · refine ⟨payloads.map bytes, mapM_write fit, ?_⟩
    intro chunks cut
    obtain ⟨after, drained, whole⟩ := gather_spec chunks (rfl : take [] = .ok none) rfl
    have expected : drain chunks.flatten = (payloads, none, []) := by
      apply drain_eq_iff.mpr
      refine ⟨?_, fit, rfl⟩
      rw [cut, List.append_nil, stream, List.flatMap_def]
    rw [List.nil_append, expected, Prod.mk.injEq, Prod.mk.injEq] at drained
    obtain ⟨taken, sound, left⟩ := drained
    rw [whole sound.symm, List.append_nil] at left
    exact Prod.ext taken.symm (Prod.ext sound.symm left.symm)
  · intro buffer after outcome given
    constructor
    · intro nothing
      apply attempt_of_nothing given
      rintro payload rfl
      simp at nothing
    · rintro payload rfl
      exact attempt_of_some given

/-- Two frames, the first of them empty. The cuts fall into both lengths, and one chunk is empty. -/
theorem gather_two_frames :
    (∀ p ∈ [[], [7, 8]], (p : Octets).length ≤ Limits.frameSize) ∧
      gather [] [[0, 0, 0], [], [0, 0, 0, 0], [2, 7, 8]] = ([[], [7, 8]], none, []) := by
  have fit : ∀ p ∈ [[], [7, 8]], (p : Octets).length ≤ Limits.frameSize := by decide
  obtain ⟨⟨frames, written, gathered⟩, -⟩ := gather_of_frames [[], [7, 8]] fit
  refine ⟨fit, gathered _ ?_⟩
  obtain rfl := Except.ok.inj ((mapM_write fit).symm.trans written)
  rfl

end SharedVariables.Frame
