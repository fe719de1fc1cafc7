import SharedVariables.Proofs.Waiting

/-! Two ways to read frames: waiting for exactly the bytes that are due, and splitting them off a
buffer that grows by whatever arrives. Unless a payload is late they give the same frames and end
alike, on any bytes and any cuts. -/
namespace SharedVariables

namespace Frame

/-- The next frame behind a buffer, from a stream that comes in chunks. The stream ends with its
last chunk. -/
def next : List Octets → Octets → Except Fault (Option Octets) × Octets × List Octets
  | [], buffer => ((attempt buffer).1, (attempt buffer).2, [])
  | chunk :: later, buffer =>
    match attempt buffer with
    | (.ok none, left) => next later (left ++ chunk)
    | (outcome, left) => (outcome, left, chunk :: later)

/-- The next frame is the one at the front of all that is in the buffer or on its way. -/
theorem next_of_some {chunks : List Octets} {buffer payload rest : Octets}
    (taken : take (buffer ++ chunks.flatten) = .ok (some (payload, rest))) :
    ∃ left later, next chunks buffer = (.ok (some payload), left, later) ∧
      left ++ later.flatten = rest := by
  induction chunks generalizing buffer with
  | nil =>
    rw [List.flatten_nil, List.append_nil] at taken
    refine ⟨rest, [], ?_, by simp⟩
    rw [next, attempt, taken]
  | cons chunk later ih =>
    rw [next, attempt]
    cases found : take buffer with
    | error e =>
      rw [take_append_of_error found] at taken
      simp at taken
    | ok given =>
      cases given with
      | none =>
        apply ih
        rw [List.append_assoc]
        exact taken
      | some frame =>
        obtain ⟨p, left⟩ := frame
        rw [take_append_of_some found] at taken
        simp only [Except.ok.injEq, Option.some.injEq, Prod.mk.injEq] at taken
        obtain ⟨rfl, rfl⟩ := taken
        exact ⟨left, chunk :: later, rfl, rfl⟩

theorem next_of_ending {chunks : List Octets} {buffer : Octets} {fault : Option Fault}
    (ended : take (buffer ++ chunks.flatten) = ending fault) :
    (next chunks buffer).1 = ending fault := by
  induction chunks generalizing buffer with
  | nil =>
    rw [List.flatten_nil, List.append_nil] at ended
    rw [next, attempt, ended]
    cases fault <;> rfl
  | cons chunk later ih =>
    rw [next, attempt]
    cases found : take buffer with
    | error e =>
      rw [take_append_of_error found] at ended
      cases fault with
      | none => simp [ending] at ended
      | some e' => exact congrArg Except.error (Except.error.inj ended)
    | ok given =>
      cases given with
      | none =>
        apply ih
        rw [List.append_assoc]
        exact ended
      | some frame =>
        rw [take_append_of_some found] at ended
        cases fault <;> simp [ending] at ended

theorem next_length_lt {chunks later : List Octets} {buffer payload left : Octets}
    (given : next chunks buffer = (.ok (some payload), left, later)) :
    (left ++ later.flatten).length < (buffer ++ chunks.flatten).length := by
  cases found : take (buffer ++ chunks.flatten) with
  | error e =>
    have ended : (next chunks buffer).1 = ending (some e) := next_of_ending found
    simp [given, ending] at ended
  | ok frame =>
    cases frame with
    | none =>
      have ended : (next chunks buffer).1 = ending none := next_of_ending found
      simp [given, ending] at ended
    | some frame =>
      obtain ⟨p, rest⟩ := frame
      obtain ⟨left', later', again, rfl⟩ := next_of_some found
      rw [given] at again
      simp only [Prod.mk.injEq] at again
      obtain ⟨-, rfl, rfl⟩ := again
      exact length_lt_of_take found

theorem incomplete_of_ending {left : Octets} {fault : Option Fault}
    (ended : take left = ending fault) :
    ∀ p more, p.length ≤ Limits.frameSize → left ≠ bytes p ++ more := by
  rintro p more fits rfl
  rw [take_append fits] at ended
  cases fault <;> simp [ending] at ended

theorem fault_of_ending {left : Octets} {fault : Option Fault} (ended : take left = ending fault) :
    fault = if 4 ≤ left.length ∧ Limits.frameSize < Octets.toNat (left.take 4)
      then some (tooLarge (Octets.toNat (left.take 4))) else none := by
  cases fault with
  | none =>
    have cut := take_eq_none_iff.mp ended
    rw [if_neg (by omega)]
  | some e =>
    obtain ⟨long, large, rfl⟩ := take_eq_error_iff.mp ended
    rw [if_pos ⟨long, large⟩]

/-- Calls for the next frame until there is none or a fault. -/
def readAll (chunks : List Octets) (buffer : Octets) : List (Except Fault (Option Octets)) :=
  match _h : next chunks buffer with
  | (.ok (some payload), left, later) => .ok (some payload) :: readAll later left
  | (outcome, _, _) => [outcome]
termination_by (buffer ++ chunks.flatten).length
decreasing_by exact next_length_lt _h

/-- The outcomes of the calls that drain some bytes: one for each frame, and the one that ends
it. -/
def outcomes (payloads : List Octets) (fault : Option Fault) :
    List (Except Fault (Option Octets)) :=
  payloads.map (fun p => .ok (some p)) ++ [ending fault]

theorem readAll_eq (payloads : List Octets) {chunks : List Octets} {buffer left : Octets}
    {fault : Option Fault} (split : buffer ++ chunks.flatten = stream payloads ++ left)
    (fit : ∀ p ∈ payloads, p.length ≤ Limits.frameSize) (last : take left = ending fault) :
    readAll chunks buffer = outcomes payloads fault := by
  induction payloads generalizing chunks buffer with
  | nil =>
    have ended : (next chunks buffer).1 = ending fault := by
      apply next_of_ending
      rw [split]
      exact last
    rw [readAll]
    split
    · rename_i given
      rw [given] at ended
      cases fault <;> simp [ending] at ended
    · rename_i given
      rw [given] at ended
      exact congrArg (fun outcome => [outcome]) ended
  | cons p later ih =>
    have taken : take (buffer ++ chunks.flatten) = .ok (some (p, stream later ++ left)) := by
      rw [split, stream, List.flatMap_cons, List.append_assoc]
      exact take_append (fit p List.mem_cons_self) _
    obtain ⟨left', later', given, rest⟩ := next_of_some taken
    rw [readAll, given]
    exact congrArg (_ :: ·) (ih rest fun q mem => fit q (List.mem_cons_of_mem p mem))

end Frame

namespace Arrivals

open SharedVariables.Frame

/-- The moment at which a byte arrives, by its place in the stream. -/
def arrival : List Chunk → Nat → Nat
  | [], _ => 0
  | chunk :: later, i =>
    if i < chunk.bytes.length then chunk.time else arrival later (i - chunk.bytes.length)

/-- Of every frame that arrives in full, the last byte of the payload is there before the timeout
has passed since the last byte of its length. -/
def Prompt (timeout : Nat) (chunks : List Chunk) : Prop :=
  ∀ earlier payload later, (∀ p ∈ earlier ++ [payload], p.length ≤ Limits.frameSize) →
    bytesOf chunks = stream (earlier ++ [payload]) ++ later → payload ≠ [] →
      arrival chunks ((stream earlier).length + 3 + payload.length) <
        arrival chunks ((stream earlier).length + 3) + timeout

variable {chunks : List Chunk} {a b : Arrivals} {timeout : Nat}

theorem arrival_of_stamped {n q : Nat} {x : UInt8} (there : (stamped chunks)[n]? = some (x, q)) :
    arrival chunks n = q := by
  induction chunks generalizing n with
  | nil => simp [stamped] at there
  | cons chunk later ih =>
    rw [stamped_cons] at there
    rw [arrival]
    split
    · rename_i within
      obtain ⟨y, here⟩ := getElem?_within chunk.time within (stamped later)
      exact (Prod.mk.inj (Option.some.inj (here.symm.trans there))).2
    · rename_i beyond
      rw [getElem?_past (Nat.le_of_not_lt beyond)] at there
      exact ih there

section Fronts

variable {arriving : List (UInt8 × Nat)}

theorem length_payload (long : 4 + announced arriving ≤ arriving.length) :
    (((arriving.drop 4).take (announced arriving)).map (·.1)).length = announced arriving := by
  rw [List.length_map, List.length_take, List.length_drop]
  omega

theorem take_of_long (small : announced arriving ≤ Limits.frameSize)
    (long : 4 + announced arriving ≤ arriving.length) :
    take (arriving.map (·.1)) = .ok (some (((arriving.drop 4).take (announced arriving)).map (·.1),
      (arriving.drop (4 + announced arriving)).map (·.1))) := by
  have header : Octets.toNat ((arriving.map (·.1)).take 4) = announced arriving := by
    rw [announced, List.map_take]
  simp only [take, header, List.length_take, List.length_drop, List.length_map]
  rw [if_neg (by omega), if_neg (Nat.not_lt.mpr small), if_neg (by omega)]
  simp only [List.map_take, List.map_drop, List.drop_drop]

end Fronts

theorem stream_snoc (earlier : List Octets) (p : Octets) :
    stream (earlier ++ [p]) = stream earlier ++ bytes p := by
  simp [stream]

/-- A reader that has read some frames from the front of a stream. -/
structure Reading (chunks : List Chunk) (earlier : List Octets) (a : Arrivals) : Prop where
  timely : a.Timely
  fit : ∀ p ∈ earlier, p.length ≤ Limits.frameSize
  whole : bytesOf chunks = stream earlier ++ a.unread
  place : a.timed = (stamped chunks).drop (stream earlier).length

variable {earlier : List Octets}

theorem Reading.start (delays : List (Nat × Octets)) (lag : Nat) :
    Reading (ofDelays delays lag).coming [] (ofDelays delays lag) :=
  ⟨timely_ofDelays delays lag, by simp, rfl, rfl⟩

theorem Reading.drop_timed (reading : Reading chunks earlier a) (n : Nat) :
    a.timed.drop n = (stamped chunks).drop ((stream earlier).length + n) := by
  rw [reading.place, List.drop_drop]

theorem Reading.arrival_of_timed (reading : Reading chunks earlier a) {n q : Nat} {x : UInt8}
    (there : a.timed[n]? = some (x, q)) : arrival chunks ((stream earlier).length + n) = q := by
  rw [reading.place, List.getElem?_drop] at there
  exact arrival_of_stamped there

theorem Reading.fit_snoc (reading : Reading chunks earlier a) {payload : Octets}
    (fits : payload.length ≤ Limits.frameSize) :
    ∀ p ∈ earlier ++ [payload], p.length ≤ Limits.frameSize := by
  intro p mem
  rcases List.mem_append.mp mem with old | new
  · exact reading.fit p old
  · rw [List.mem_singleton.mp new]
    exact fits

theorem Reading.onward (reading : Reading chunks earlier a) {payload : Octets}
    (given : a.next timeout = (.ok (some payload), b)) :
    Reading chunks (earlier ++ [payload]) b ∧ take a.unread = .ok (some (payload, b.unread)) := by
  have finds := reading.timely.finds timeout
  rw [given] at finds
  cases finds with
  | whole known small last soon timely closes rest =>
    have long := (List.getElem?_eq_some_iff.mp last).1
    have taken := take_of_long small (by omega)
    rw [← rest, bytes_timed, bytes_timed] at taken
    obtain ⟨fits, split⟩ := take_eq_some_iff.mp taken
    refine ⟨⟨timely, ?_, ?_, ?_⟩, taken⟩
    · exact reading.fit_snoc fits
    · rw [stream_snoc, reading.whole, split, List.append_assoc]
    · have size :
          (stream (earlier ++ [((a.timed.drop 4).take (announced a.timed)).map (·.1)])).length =
            (stream earlier).length + (4 + announced a.timed) := by
        rw [stream_snoc, List.length_append, Frame.bytes, List.length_append,
          Octets.length_ofNat, length_payload (by omega)]
      rw [rest, size, reading.drop_timed]

/-- Unless a payload is late, what the reader that waits gives is what can be taken from the front
of the bytes. -/
theorem Reading.take_eq (reading : Reading chunks earlier a) (prompt : Prompt timeout chunks)
    {outcome : Except Fault (Option Octets)} (given : a.next timeout = (outcome, b)) :
    take a.unread = outcome.map (Option.map (·, b.unread)) := by
  have finds := reading.timely.finds timeout
  rw [given] at finds
  have size : a.unread.length = a.timed.length := by rw [← bytes_timed, List.length_map]
  have header : Octets.toNat (a.unread.take 4) = announced a.timed := by
    rw [← bytes_timed, announced, List.map_take]
  cases finds with
  | cut missing now =>
    have short := List.getElem?_eq_none_iff.mp missing
    exact take_eq_none_iff.mpr (.inl (by omega))
  | large known large =>
    have long := (List.getElem?_eq_some_iff.mp known).1
    exact take_eq_error_iff.mpr ⟨by omega, header ▸ large, by rw [header]⟩
  | late known small present late now =>
    cases last : a.timed[3 + announced a.timed]? with
    | none =>
      have short := List.getElem?_eq_none_iff.mp last
      exact take_eq_none_iff.mpr (.inr (by omega))
    | some byte =>
      -- The frame is there in full, so its payload is not late.
      have long := (List.getElem?_eq_some_iff.mp last).1
      have taken := take_of_long small (by omega)
      rw [bytes_timed] at taken
      obtain ⟨fits, split⟩ := take_eq_some_iff.mp taken
      have soon := prompt earlier _ _ (reading.fit_snoc fits)
        (by rw [stream_snoc, reading.whole, List.append_assoc, ← split])
        (List.length_pos_iff.mp (by rwa [length_payload (by omega)]))
      rw [length_payload (by omega), Nat.add_assoc, reading.arrival_of_timed known,
        reading.arrival_of_timed last] at soon
      exact absurd soon (Nat.not_lt.mpr (late _ _ last))
  | whole => exact (reading.onward given).2

/-- The reader that waits gives the frames at the front of the stream, one by one, and ends where
they end. -/
theorem Reading.readAll_eq (reading : Reading chunks earlier a) (prompt : Prompt timeout chunks) :
    (a.readAll timeout).map (·.1) = outcomes (drain a.unread).1 (drain a.unread).2.1 := by
  induction a using readAll_induction timeout generalizing earlier with
  | frame a payload b given read ih =>
    obtain ⟨reading', taken⟩ := reading.onward given
    rw [read, drain_of_some taken]
    exact congrArg (_ :: ·) (ih reading')
  | last a outcome b given other read =>
    have taken := reading.take_eq prompt given
    rw [read]
    match outcome with
    | .error e => rw [drain_of_error taken]; rfl
    | .ok none => rw [drain_of_none taken]; rfl
    | .ok (some payload) => exact absurd rfl (other payload)

/-- Whatever a stream holds and however it is cut, the reader that waits and the reader that splits
a buffer give the frames at its front and then the same outcome: the end of the stream, also inside
a frame, or the fault of the first length that is too large. -/
theorem readers_agree (delays : List (Nat × Octets)) (lag timeout : Nat)
    (prompt : Prompt timeout (ofDelays delays lag).coming) (chunks : List Octets)
    (same : chunks.flatten = delays.flatMap (·.2)) :
    ((ofDelays delays lag).readAll timeout).map (·.1) = Frame.readAll chunks [] ∧
      ∃ payloads left fault, Frame.readAll chunks [] =
        payloads.map (fun p => .ok (some p)) ++ [ending fault] ∧
        chunks.flatten = stream payloads ++ left ∧ (∀ p ∈ payloads, p.length ≤ Limits.frameSize) ∧
        (∀ p more, p.length ≤ Limits.frameSize → left ≠ bytes p ++ more) ∧
        fault = if 4 ≤ left.length ∧ Limits.frameSize < Octets.toNat (left.take 4)
          then some (tooLarge (Octets.toNat (left.take 4))) else none := by
  rcases drained : drain chunks.flatten with ⟨payloads, fault, left⟩
  obtain ⟨split, fit, last⟩ := drain_eq_iff.mp drained
  have splitting : Frame.readAll chunks [] = outcomes payloads fault :=
    Frame.readAll_eq payloads split fit last
  have waiting : ((ofDelays delays lag).readAll timeout).map (·.1) = outcomes payloads fault := by
    have reading := Reading.start delays lag
    have unread : (ofDelays delays lag).unread = chunks.flatten := by
      rw [same, ← bytesOf_schedule 0, ← coming_ofDelays delays lag]
      exact reading.whole.symm
    rw [reading.readAll_eq prompt, unread, drained]
  exact ⟨waiting.trans splitting.symm, payloads, left, fault, splitting, split, fit,
    incomplete_of_ending last,
    fault_of_ending last⟩

/-- Only the frames that the stream holds in full can be late. -/
theorem prompt_of_drain {payloads : List Octets} {fault : Option Fault} {left : Octets}
    (drained : drain (bytesOf chunks) = (payloads, fault, left))
    (soon : ∀ earlier payload later, payloads = earlier ++ payload :: later → payload ≠ [] →
      arrival chunks ((stream earlier).length + 3 + payload.length) <
        arrival chunks ((stream earlier).length + 3) + timeout) : Prompt timeout chunks := by
  intro earlier payload later fit whole
  apply soon earlier payload (drain later).1
  rw [whole, drain_stream fit] at drained
  rw [← (Prod.mk.inj drained).1, List.append_assoc]
  rfl

/-- Two frames and the start of a third. The second payload is complete six units after the start
and three after its length, with four allowed. -/
def haltingDelays :
    List (Nat × Octets) := [(0, [0, 0, 0]), (2, [1, 65, 0]), (1, [0, 0, 2, 66]), (3, [67, 0, 0])]

theorem readers_agree_halting :
    Prompt 4 (ofDelays haltingDelays 1).coming ∧
      ((ofDelays haltingDelays 1).readAll 4).map (·.1) =
        [.ok (some [65]), .ok (some [66, 67]), .ok none] ∧
      Frame.readAll [[0, 0, 0, 1, 65, 0, 0, 0, 2, 66], [], [67, 0], [0]] [] =
        [.ok (some [65]), .ok (some [66, 67]), .ok none] := by
  have drained :
      drain (bytesOf (ofDelays haltingDelays 1).coming) = ([[65], [66, 67]], none, [0, 0]) :=
    drain_eq_iff.mpr ⟨rfl, by decide, rfl⟩
  have prompt : Prompt 4 (ofDelays haltingDelays 1).coming := by
    apply prompt_of_drain drained
    intro earlier payload later split present
    match earlier with
    | [] =>
      obtain ⟨rfl, rfl⟩ := List.cons.inj split
      decide
    | [first] =>
      obtain ⟨rfl, tail⟩ := List.cons.inj split
      obtain ⟨rfl, rfl⟩ := List.cons.inj tail
      decide
    | first :: second :: rest => simp at split
  have splitting : Frame.readAll [[0, 0, 0, 1, 65, 0, 0, 0, 2, 66], [], [67, 0], [0]] [] =
      outcomes [[65], [66, 67]] none := by
    have rest : take [0, 0] = ending none := rfl
    exact Frame.readAll_eq [[65], [66, 67]] rfl (by decide) rest
  obtain ⟨agree, -⟩ :=
    readers_agree haltingDelays 1 4 prompt [[0, 0, 0, 1, 65, 0, 0, 0, 2, 66], [], [67, 0], [0]] rfl
  exact ⟨prompt, agree.trans splitting, splitting⟩

end Arrivals
end SharedVariables
