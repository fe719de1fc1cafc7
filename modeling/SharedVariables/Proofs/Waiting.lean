import SharedVariables.Frame.Arrival
import SharedVariables.Proofs.Chunking

/-! When the bytes of a stream arrive, and what a reader finds next. A wait reads nothing: it moves
chunks into the buffer, as few as it takes. So all that is then left in the buffer came with the
byte that was missing, and what is found, and when, follows from the single bytes. -/
namespace SharedVariables.Arrivals

def bytesOf (chunks : List Chunk) : Octets := chunks.flatMap (·.bytes)

def Ordered (chunks : List Chunk) : Prop := chunks.Pairwise fun a b => a.time ≤ b.time

/-- Chunks that follow each other after given delays. -/
def schedule (now : Nat) : List (Nat × Octets) → List Chunk
  | [] => []
  | (delay, bytes) :: later => { time := now + delay, bytes } :: schedule (now + delay) later

theorem coming_ofDelays (delays : List (Nat × Octets)) (lag : Nat) :
    (ofDelays delays lag).coming = schedule 0 delays := by
  have each : ∀ now chunks, (delays.foldl (fun (s : Nat × List Chunk) (d : Nat × Octets) =>
      (s.1 + d.1, s.2 ++ [{ time := s.1 + d.1, bytes := d.2 }])) (now, chunks)).2 =
        chunks ++ schedule now delays := by
    induction delays with
    | nil => simp [schedule]
    | cons first later ih =>
      intro now chunks
      rw [List.foldl_cons, ih]
      simp [schedule]
  exact each 0 []

theorem bytesOf_schedule (now : Nat) (delays : List (Nat × Octets)) :
    bytesOf (schedule now delays) = delays.flatMap (·.2) := by
  induction delays generalizing now with
  | nil => rfl
  | cons first later ih => exact congrArg (first.2 ++ ·) (ih _)

theorem le_of_mem_schedule {now : Nat} {delays : List (Nat × Octets)} {chunk : Chunk}
    (mem : chunk ∈ schedule now delays) : now ≤ chunk.time := by
  induction delays generalizing now with
  | nil => simp [schedule] at mem
  | cons first later ih =>
    rcases List.mem_cons.mp mem with rfl | old
    · exact Nat.le_add_right now first.1
    · exact Nat.le_trans (Nat.le_add_right now first.1) (ih old)

theorem ordered_schedule (now : Nat) (delays : List (Nat × Octets)) :
    Ordered (schedule now delays) := by
  induction delays generalizing now with
  | nil => exact .nil
  | cons first later ih => exact .cons (fun chunk mem => le_of_mem_schedule mem) (ih _)

/-- The moment at which a stream closes, some time after its last chunk. -/
def closing (now : Nat) : List (Nat × Octets) → Nat → Nat
  | [], lag => now + lag
  | (delay, _) :: later, lag => closing (now + delay) later lag

theorem le_closing (now : Nat) (delays : List (Nat × Octets)) (lag : Nat) :
    now ≤ closing now delays lag := by
  induction delays generalizing now with
  | nil => exact Nat.le_add_right now lag
  | cons first later ih => exact Nat.le_trans (Nat.le_add_right now first.1) (ih _)

theorem le_closing_of_mem {now : Nat} {delays : List (Nat × Octets)} {chunk : Chunk}
    (mem : chunk ∈ schedule now delays) (lag : Nat) : chunk.time ≤ closing now delays lag := by
  induction delays generalizing now with
  | nil => simp [schedule] at mem
  | cons first later ih =>
    rcases List.mem_cons.mp mem with rfl | old
    · exact le_closing _ later lag
    · exact ih old

theorem closesAt_ofDelays (delays : List (Nat × Octets)) (lag : Nat) :
    (ofDelays delays lag).closesAt = closing 0 delays lag := by
  have each : ∀ now chunks, (delays.foldl (fun (s : Nat × List Chunk) (d : Nat × Octets) =>
      (s.1 + d.1, s.2 ++ [{ time := s.1 + d.1, bytes := d.2 }])) (now, chunks)).1 + lag =
        closing now delays lag := by
    induction delays with
    | nil => exact fun now chunks => rfl
    | cons first later ih => exact fun now chunks => ih _ _
  exact each 0 []

/-- Bytes that arrive at one moment. -/
def stamp (moment : Nat) (bytes : Octets) : List (UInt8 × Nat) := bytes.map (·, moment)

/-- The bytes of some chunks, each with the moment at which it arrives. -/
def stamped (chunks : List Chunk) : List (UInt8 × Nat) :=
  chunks.flatMap fun c => stamp c.time c.bytes

/-- The length that the first four bytes write. -/
def announced (bytes : List (UInt8 × Nat)) : Nat := Octets.toNat ((bytes.take 4).map (·.1))

/-- The unread bytes with their moments. All that a reader finds in its buffer has just arrived. -/
def timed (a : Arrivals) : List (UInt8 × Nat) := stamp a.now a.buffer ++ stamped a.coming

/-- Nothing comes before the moment that a reader has reached, and nothing after the close. -/
structure Timely (a : Arrivals) : Prop where
  ordered : Ordered a.coming
  ahead : ∀ c ∈ a.coming, a.now ≤ c.time
  within : ∀ c ∈ a.coming, c.time ≤ a.closesAt
  begun : a.now ≤ a.closesAt

theorem timely_ofDelays (delays : List (Nat × Octets)) (lag : Nat) :
    (ofDelays delays lag).Timely := by
  refine ⟨?_, fun c _ => Nat.zero_le c.time, ?_, Nat.zero_le _⟩
  · rw [coming_ofDelays]
    exact ordered_schedule 0 delays
  · intro c mem
    rw [coming_ofDelays] at mem
    rw [closesAt_ofDelays]
    exact le_closing_of_mem mem lag

@[simp] theorem length_stamp (moment : Nat) (bytes : Octets) :
    (stamp moment bytes).length = bytes.length :=
  List.length_map _

@[simp] theorem bytes_stamp (moment : Nat) (bytes : Octets) :
    (stamp moment bytes).map (·.1) = bytes := by
  rw [stamp, List.map_map]
  exact List.map_id bytes

theorem drop_stamp (moment : Nat) (bytes : Octets) (n : Nat) :
    (stamp moment bytes).drop n = stamp moment (bytes.drop n) :=
  List.map_drop.symm

theorem moment_of_mem_stamp {moment : Nat} {bytes : Octets} {byte : UInt8 × Nat}
    (mem : byte ∈ stamp moment bytes) : byte.2 = moment := by
  obtain ⟨-, -, rfl⟩ := List.mem_map.mp mem
  rfl

theorem getElem?_within (moment : Nat) {bytes : Octets} {n : Nat} (within : n < bytes.length)
    (later : List (UInt8 × Nat)) : ∃ x, (stamp moment bytes ++ later)[n]? = some (x, moment) := by
  refine ⟨bytes.get ⟨n, within⟩, ?_⟩
  rw [List.getElem?_append_left (by rwa [length_stamp]), stamp, List.getElem?_map,
    List.getElem?_eq_getElem within]
  rfl

theorem getElem?_past {moment : Nat} {bytes : Octets} {n : Nat} (past : bytes.length ≤ n)
    (later : List (UInt8 × Nat)) :
    (stamp moment bytes ++ later)[n]? = later[n - bytes.length]? := by
  rw [List.getElem?_append_right (by rwa [length_stamp]), length_stamp]

theorem drop_past {moment : Nat} {bytes : Octets} {n : Nat} (past : bytes.length ≤ n)
    (later : List (UInt8 × Nat)) :
    (stamp moment bytes ++ later).drop n = later.drop (n - bytes.length) := by
  rw [List.drop_append, List.drop_eq_nil_of_le (by rwa [length_stamp]), List.nil_append,
    length_stamp]

theorem drop_within {moment : Nat} {bytes : Octets} {n : Nat} (within : n ≤ bytes.length)
    (later : List (UInt8 × Nat)) :
    (stamp moment bytes ++ later).drop n = stamp moment (bytes.drop n) ++ later := by
  rw [List.drop_append_of_le_length (by rwa [length_stamp]), drop_stamp]

theorem stamped_cons (chunk : Chunk) (later : List Chunk) :
    stamped (chunk :: later) = stamp chunk.time chunk.bytes ++ stamped later := rfl

theorem moment_of_mem_stamped {chunks : List Chunk} {byte : UInt8 × Nat}
    (mem : byte ∈ stamped chunks) : ∃ c ∈ chunks, byte.2 = c.time := by
  obtain ⟨c, coming, here⟩ := List.mem_flatMap.mp mem
  exact ⟨c, coming, moment_of_mem_stamp here⟩

theorem bytes_stamped (chunks : List Chunk) : (stamped chunks).map (·.1) = bytesOf chunks := by
  induction chunks with
  | nil => rfl
  | cons chunk later ih => simp [stamped_cons, ih, bytesOf]

theorem bytes_timed (a : Arrivals) : a.timed.map (·.1) = a.unread := by
  simp [timed, bytes_stamped, bytesOf, unread]

section Waits

variable {need : Nat} {deadline : Option Nat} {closesAt now q : Nat} {coming : List Chunk}
  {buffer : Octets} {x : UInt8}

/-- A wait takes chunks from the front of those to come. -/
theorem awaitFrom_suffix {outcome : Wait} {a : Arrivals}
    (awaited : awaitFrom need deadline closesAt coming buffer now = (outcome, a)) :
    a.coming <:+ coming := by
  induction coming generalizing buffer now with
  | nil =>
    rw [awaitFrom] at awaited
    split at awaited
    · obtain ⟨-, rfl⟩ := Prod.mk.inj awaited
      exact List.suffix_rfl
    · split at awaited <;> obtain ⟨-, rfl⟩ := Prod.mk.inj awaited <;> exact List.suffix_rfl
  | cons chunk later ih =>
    rw [awaitFrom] at awaited
    split at awaited
    · obtain ⟨-, rfl⟩ := Prod.mk.inj awaited
      exact List.suffix_rfl
    · split at awaited
      · obtain ⟨-, rfl⟩ := Prod.mk.inj awaited
        exact List.suffix_rfl
      · exact (ih awaited).trans (List.suffix_cons chunk later)

theorem awaitFrom_of_enough (enough : need ≤ buffer.length) :
    awaitFrom need deadline closesAt coming buffer now =
      (.ready, { now, buffer, coming, closesAt }) := by
  cases coming with
  | nil => rw [awaitFrom, List.length_take, if_pos (by omega)]
  | cons chunk later => rw [awaitFrom, List.length_take, if_pos (by omega)]

/-- A wait that goes on takes the next chunk if it comes before the deadline. -/
theorem awaitFrom_of_short {chunk : Chunk} {later : List Chunk} (short : buffer.length < need)
    (before : ∀ due, deadline = some due → chunk.time < due) :
    awaitFrom need deadline closesAt (chunk :: later) buffer now =
      awaitFrom need deadline closesAt later (buffer ++ chunk.bytes) (max now chunk.time) := by
  have none : deadline.filter (· ≤ chunk.time) = none := by
    cases deadline with
    | none => rfl
    | some due =>
      have late := before due rfl
      simpa using late
  rw [awaitFrom, List.length_take, if_neg (by omega), none]

/-- A wait ends with the byte that was missing. What is then left in the buffer came with that
byte. -/
theorem awaitFrom_soon (ordered : Ordered coming) (ahead : ∀ c ∈ coming, now ≤ c.time)
    (short : buffer.length < need)
    (there : (stamped coming)[need - 1 - buffer.length]? = some (x, q))
    (soon : ∀ due, deadline = some due → q < due) :
    ∃ b, awaitFrom need deadline closesAt coming buffer now = (.ready, b) ∧ b.now = q ∧
      b.closesAt = closesAt ∧ (b.skip need).timed = (stamped coming).drop (need - buffer.length) ∧
      ∀ c ∈ b.coming, q ≤ c.time := by
  induction coming generalizing buffer now with
  | nil => simp [stamped] at there
  | cons chunk later ih =>
    obtain ⟨first, tail⟩ := List.pairwise_cons.mp ordered
    have onward : max now chunk.time = chunk.time :=
      Nat.max_eq_right (ahead chunk List.mem_cons_self)
    rw [stamped_cons] at there ⊢
    by_cases last : need ≤ (buffer ++ chunk.bytes).length
    · -- The byte is in this chunk, and so is all that is left.
      rw [List.length_append] at last
      rw [List.getElem?_append_left (by rw [length_stamp]; omega)] at there
      obtain rfl : q = chunk.time := moment_of_mem_stamp (List.mem_of_getElem? there)
      rw [awaitFrom_of_short short soon, awaitFrom_of_enough (by rwa [List.length_append])]
      have rest : (buffer ++ chunk.bytes).drop need = chunk.bytes.drop (need - buffer.length) := by
        rw [List.drop_append, List.drop_eq_nil_of_le (by omega), List.nil_append]
      refine ⟨_, rfl, onward, rfl, ?_, first⟩
      simp only [timed, skip, onward, rest]
      rw [drop_within (by omega)]
    · rw [List.length_append] at last
      rw [getElem?_past (by omega), ← Nat.sub_add_eq, ← List.length_append] at there
      obtain ⟨c, mem, rfl⟩ : ∃ c ∈ later, q = c.time :=
        moment_of_mem_stamped (List.mem_of_getElem? there)
      have before : chunk.time ≤ c.time := first c mem
      rw [awaitFrom_of_short short fun due is => Nat.lt_of_le_of_lt before (soon due is), onward]
      obtain ⟨b, awaited, reached, closes, rest, ahead⟩ :=
        ih tail first (by rw [List.length_append]; omega) there
      refine ⟨b, awaited, reached, closes, ?_, ahead⟩
      rw [rest, drop_past (by omega), List.length_append, Nat.sub_add_eq]

/-- A wait for a byte that does not come before the deadline lasts until then, or until the close
if that is first. -/
theorem awaitFrom_late (within : ∀ c ∈ coming, c.time ≤ closesAt) (begun : now ≤ closesAt)
    (short : buffer.length < need)
    (late : ∀ x q, (stamped coming)[need - 1 - buffer.length]? = some (x, q) →
      ∃ due, deadline = some due ∧ due ≤ q) :
    ∃ outcome b, awaitFrom need deadline closesAt coming buffer now = (outcome, b) ∧
      outcome ≠ .ready ∧ b.now = deadline.elim closesAt (min · closesAt) := by
  induction coming generalizing buffer now with
  | nil =>
    rw [awaitFrom, List.length_take, if_neg (by omega)]
    cases deadline with
    | none => exact ⟨_, _, rfl, by simp, Nat.max_eq_right begun⟩
    | some due =>
      by_cases first : due ≤ closesAt
      · simp only [Option.filter_some, first, decide_true, if_true, Option.elim_some]
        exact ⟨_, _, rfl, by simp, (Nat.min_eq_left first).symm⟩
      · simp only [Option.filter_some, first, decide_false, Bool.false_eq_true, if_false,
          Option.elim_some]
        have closed : max now closesAt = min due closesAt := by omega
        exact ⟨_, _, rfl, by simp, closed⟩
  | cons chunk later ih =>
    have moment := within chunk List.mem_cons_self
    by_cases expires : ∃ due, deadline = some due ∧ due ≤ chunk.time
    · obtain ⟨due, rfl, first⟩ := expires
      rw [awaitFrom, List.length_take, if_neg (by omega)]
      simp only [Option.filter_some, first, decide_true, if_true, Option.elim_some]
      exact ⟨_, _, rfl, by simp, (Nat.min_eq_left (Nat.le_trans first moment)).symm⟩
    · have before : ∀ due, deadline = some due → chunk.time < due := by
        intro due is
        exact Nat.lt_of_not_le fun first => expires ⟨due, is, first⟩
      -- The chunk is in time, so the byte that is late is not in it.
      have beyond : (buffer ++ chunk.bytes).length < need := by
        refine Nat.lt_of_not_le fun last => expires ?_
        rw [List.length_append] at last
        have inside : need - 1 - buffer.length < chunk.bytes.length := by omega
        obtain ⟨x, here⟩ := getElem?_within chunk.time inside (stamped later)
        exact late x chunk.time here
      rw [awaitFrom_of_short short before]
      refine ih (fun c mem => within c (List.mem_cons_of_mem _ mem))
        (Nat.max_le.mpr ⟨begun, moment⟩) beyond ?_
      intro x q there
      refine late x q ?_
      rw [List.length_append] at beyond
      rw [stamped_cons, getElem?_past (by omega), ← Nat.sub_add_eq, ← List.length_append]
      exact there

end Waits

variable {a : Arrivals} {timeout closesAt n p q : Nat} {x y : UInt8}

theorem moment_of_buffered (buffered : n < a.buffer.length) (there : a.timed[n]? = some (x, q)) :
    q = a.now := by
  rw [timed, List.getElem?_append_left (by rwa [length_stamp])] at there
  exact moment_of_mem_stamp (List.mem_of_getElem? there)

theorem Timely.moment_le (timely : a.Timely) (there : a.timed[n]? = some (x, q)) :
    q ≤ a.closesAt := by
  rcases List.mem_append.mp (List.mem_of_getElem? there) with here | later
  · rw [show q = a.now from moment_of_mem_stamp here]
    exact timely.begun
  · obtain ⟨c, mem, rfl⟩ : ∃ c ∈ a.coming, q = c.time := moment_of_mem_stamped later
    exact timely.within c mem

theorem Timely.await_soon (timely : a.Timely) (deadline : Option Nat)
    (there : a.timed[n]? = some (x, q))
    (soon : a.buffer.length ≤ n → ∀ due, deadline = some due → q < due) :
    ∃ b, a.await (n + 1) deadline = (.ready, b) ∧ b.now = q ∧
      b.buffer.take (n + 1) = (a.timed.take (n + 1)).map (·.1) ∧
      (b.skip (n + 1)).timed = a.timed.drop (n + 1) ∧ (b.skip (n + 1)).Timely ∧
      b.closesAt = a.closesAt := by
  obtain ⟨b, awaited, reached, closes, rest, ahead⟩ : ∃ b,
      a.await (n + 1) deadline = (.ready, b) ∧ b.now = q ∧ b.closesAt = a.closesAt ∧
        (b.skip (n + 1)).timed = a.timed.drop (n + 1) ∧ ∀ c ∈ b.coming, q ≤ c.time := by
    by_cases enough : n < a.buffer.length
    · obtain rfl := moment_of_buffered enough there
      refine ⟨a, awaitFrom_of_enough enough, rfl, rfl, ?_, timely.ahead⟩
      rw [timed, timed, drop_within enough]
      rfl
    · have short : a.buffer.length ≤ n := Nat.le_of_not_lt enough
      rw [timed, getElem?_past short] at there
      obtain ⟨b, awaited, reached, closes, rest, ahead⟩ := awaitFrom_soon timely.ordered
        timely.ahead (Nat.lt_succ_of_le short) there (soon short)
      refine ⟨b, awaited, reached, closes, ?_, ahead⟩
      rw [rest, timed, drop_past (by omega)]
  have suffix : b.coming <:+ a.coming := awaitFrom_suffix awaited
  have kept : b.unread = a.unread := by rw [← unread_await a (n + 1) deadline, awaited]
  refine ⟨b, awaited, reached, ?_, rest, ⟨?_, ?_, ?_, ?_⟩, closes⟩
  · have front : b.buffer.take (n + 1) = b.unread.take (n + 1) :=
      (List.take_append_of_le_length (ready_length awaited)).symm
    rw [front, kept, ← bytes_timed, List.map_take]
  · exact timely.ordered.sublist suffix.sublist
  · exact fun c mem => Nat.le_trans (Nat.le_of_eq reached) (ahead c mem)
  · exact fun c mem => Nat.le_trans (timely.within c (suffix.subset mem)) (Nat.le_of_eq closes.symm)
  · exact Nat.le_trans (Nat.le_of_eq reached)
      (Nat.le_trans (timely.moment_le there) (Nat.le_of_eq closes.symm))

theorem Timely.await_late (timely : a.Timely) (deadline : Option Nat) (short : a.buffer.length ≤ n)
    (late : ∀ x q, a.timed[n]? = some (x, q) → ∃ due, deadline = some due ∧ due ≤ q) :
    ∃ outcome b, a.await (n + 1) deadline = (outcome, b) ∧ outcome ≠ .ready ∧
      b.now = deadline.elim a.closesAt (min · a.closesAt) := by
  refine awaitFrom_late timely.within timely.begun (Nat.lt_succ_of_le short) ?_
  intro x q there
  refine late x q ?_
  rw [timed, getElem?_past short]
  exact there

/-- A wait with a timeout ends with the byte that is missing, or lasts as long as it may. -/
theorem Timely.await_within (timely : a.Timely) (timeout n : Nat) :
    (∃ x b, a.await (n + 1) (some (a.now + timeout)) = (.ready, b) ∧
      a.timed[n]? = some (x, b.now) ∧ (b.now = a.now ∨ b.now < a.now + timeout) ∧
      b.buffer.take (n + 1) = (a.timed.take (n + 1)).map (·.1) ∧
      (b.skip (n + 1)).timed = a.timed.drop (n + 1) ∧ (b.skip (n + 1)).Timely ∧
      b.closesAt = a.closesAt) ∨
    ∃ outcome b, a.await (n + 1) (some (a.now + timeout)) = (outcome, b) ∧ outcome ≠ .ready ∧
      (∀ x q, a.timed[n]? = some (x, q) → a.now + timeout ≤ q) ∧
      b.now = min (a.now + timeout) a.closesAt := by
  by_cases soon : ∃ x q, a.timed[n]? = some (x, q) ∧ (n < a.buffer.length ∨ q < a.now + timeout)
  · obtain ⟨x, q, there, soon⟩ := soon
    obtain ⟨b, awaited, rfl, rest⟩ := timely.await_soon (some (a.now + timeout)) there <| by
      rintro short due ⟨⟩
      omega
    have moment := soon.imp_left fun buffered => moment_of_buffered buffered there
    exact .inl ⟨x, b, awaited, there, moment, rest⟩
  · have short : a.buffer.length ≤ n := by
      refine Nat.le_of_not_lt fun buffered => soon ?_
      obtain ⟨x, here⟩ := getElem?_within a.now buffered (stamped a.coming)
      exact ⟨x, a.now, here, .inl buffered⟩
    have late : ∀ x q, a.timed[n]? = some (x, q) → a.now + timeout ≤ q :=
      fun x q there => Nat.le_of_not_lt fun before => soon ⟨x, q, there, .inr before⟩
    obtain ⟨outcome, b, awaited, unready, reached⟩ := timely.await_late (some (a.now + timeout))
      short fun x q there => ⟨_, rfl, late x q there⟩
    exact .inr ⟨outcome, b, awaited, unready, late, reached⟩

/-- What a reader can find next, by the single bytes. The length of a frame is known with its
fourth byte, at `p`. Its payload is there with its last byte, at `q`. -/
inductive Finds (timeout closesAt : Nat) (bytes : List (UInt8 × Nat)) :
    Except Fault (Option Octets) × Arrivals → Prop where
  | cut {b : Arrivals} (missing : bytes[3]? = none) (now : b.now = closesAt) :
      Finds timeout closesAt bytes (.ok none, b)
  | large {b : Arrivals} {x : UInt8} (known : bytes[3]? = some (x, b.now))
      (large : Limits.frameSize < announced bytes) :
      Finds timeout closesAt bytes (.error (Frame.tooLarge (announced bytes)), b)
  /-- The payload is not empty and its last byte is not there in time, or never. -/
  | late {b : Arrivals} {x : UInt8} {p : Nat} (known : bytes[3]? = some (x, p))
      (small : announced bytes ≤ Limits.frameSize) (present : 0 < announced bytes)
      (late : ∀ y q, bytes[3 + announced bytes]? = some (y, q) → p + timeout ≤ q)
      (now : b.now = min (p + timeout) closesAt) : Finds timeout closesAt bytes (.ok none, b)
  /-- The payload comes in time or together with its length. -/
  | whole {b : Arrivals} {x y : UInt8} {p : Nat} (known : bytes[3]? = some (x, p))
      (small : announced bytes ≤ Limits.frameSize)
      (last : bytes[3 + announced bytes]? = some (y, b.now))
      (soon : b.now = p ∨ b.now < p + timeout) (timely : b.Timely) (closes : b.closesAt = closesAt)
      (rest : b.timed = bytes.drop (4 + announced bytes)) :
      Finds timeout closesAt bytes
        (.ok (some (((bytes.drop 4).take (announced bytes)).map (·.1))), b)

theorem Timely.finds_cut (timely : a.Timely) (missing : a.timed[3]? = none) :
    Finds timeout a.closesAt a.timed (a.next timeout) := by
  have short : a.buffer.length ≤ 3 := by
    have size := List.getElem?_eq_none_iff.mp missing
    rw [timed, List.length_append, length_stamp] at size
    omega
  obtain ⟨outcome, b, awaited, unready, reached⟩ := timely.await_late none short (by simp [missing])
  rw [next, awaited]
  cases outcome with
  | ready => exact absurd rfl unready
  | closed | expired => exact .cut missing reached

/-- With the length there and not too large, the rest is a wait for the payload. -/
theorem Timely.next_body (timely : a.Timely) (timeout : Nat) (known : a.timed[3]? = some (x, p))
    (small : announced a.timed ≤ Limits.frameSize) :
    ∃ b : Arrivals, b.Timely ∧ b.timed = a.timed.drop 4 ∧ b.now = p ∧ b.closesAt = a.closesAt ∧
      a.next timeout = match b.await (announced a.timed) (some (p + timeout)) with
        | (.closed, c) | (.expired, c) => (.ok none, c)
        | (.ready, c) =>
          (.ok (some (c.buffer.take (announced a.timed))), c.skip (announced a.timed)) := by
  obtain ⟨b, awaited, rfl, header, rest, timely', closes⟩ :=
    timely.await_soon none known (by simp)
  refine ⟨b.skip 4, timely', rest, rfl, closes, ?_⟩
  rw [next, awaited]
  simp only
  rw [header]
  exact if_neg (Nat.not_lt.mpr small)

theorem Timely.finds_large (timely : a.Timely) (known : a.timed[3]? = some (x, p))
    (large : Limits.frameSize < announced a.timed) :
    Finds timeout a.closesAt a.timed (a.next timeout) := by
  obtain ⟨b, awaited, rfl, header, -⟩ := timely.await_soon none known (by simp)
  have result : a.next timeout = (.error (Frame.tooLarge (announced a.timed)), b.skip 4) := by
    rw [next, awaited]
    simp only
    rw [header]
    exact if_pos large
  rw [result]
  exact .large known large

theorem Timely.finds_small (timely : a.Timely) (known : a.timed[3]? = some (x, p))
    (small : announced a.timed ≤ Limits.frameSize) :
    Finds timeout a.closesAt a.timed (a.next timeout) := by
  obtain ⟨b, timely', rest, rfl, closes, result⟩ := timely.next_body timeout known small
  rw [result]
  cases size : announced a.timed with
  | zero =>
    -- Nothing is waited for, and the last byte of the frame is that of its length.
    have awaited : b.await 0 (some (b.now + timeout)) = (.ready, b) :=
      awaitFrom_of_enough (Nat.zero_le _)
    have found : Finds timeout a.closesAt a.timed (_, b) :=
      .whole known small (by rw [size]; exact known) (.inl rfl) timely' closes
        (by rw [size]; exact rest)
    rw [size] at found
    rw [awaited]
    exact found
  | succ n =>
    have last : b.timed[n]? = a.timed[3 + announced a.timed]? := by
      rw [rest, List.getElem?_drop, size]
      congr 1
      omega
    rcases timely'.await_within timeout n with
      ⟨y, c, awaited, there, soon, payload, left, onward, closes'⟩ |
      ⟨outcome, c, awaited, unready, late, reached⟩
    · have found : Finds timeout a.closesAt a.timed (_, c.skip (n + 1)) :=
        .whole known small (last.symm.trans there) soon onward (closes'.trans closes)
          (by rw [left, rest, List.drop_drop, size])
      rw [size] at found
      rw [awaited]
      simp only [payload, rest]
      exact found
    · rw [closes] at reached
      rw [last] at late
      rw [awaited]
      cases outcome with
      | ready => exact absurd rfl unready
      | closed | expired => exact .late known small (by omega) late reached

theorem Timely.finds (timely : a.Timely) (timeout : Nat) :
    Finds timeout a.closesAt a.timed (a.next timeout) := by
  cases known : a.timed[3]? with
  | none => exact timely.finds_cut known
  | some first =>
    by_cases large : Limits.frameSize < announced a.timed
    · exact timely.finds_large known large
    · exact timely.finds_small known (Nat.not_lt.mp large)

/-- A stream is read frame by frame until something else comes. -/
theorem readAll_induction {motive : Arrivals → Prop} (timeout : Nat)
    (frame : ∀ a payload b, a.next timeout = (.ok (some payload), b) →
      a.readAll timeout = (.ok (some payload), b.now) :: b.readAll timeout → motive b → motive a)
    (last : ∀ a outcome b, a.next timeout = (outcome, b) →
      (∀ payload, outcome ≠ .ok (some payload)) → a.readAll timeout = [(outcome, b.now)] → motive a)
    (a : Arrivals) : motive a := by
  fun_induction readAll a timeout with
  | case1 a payload b given ih => exact frame a payload b given (by rw [readAll, given]) ih
  | case2 a outcome b other given =>
    refine last a outcome b given other ?_
    rw [readAll]
    split
    · rename_i again
      rw [given] at again
      exact absurd (Prod.mk.inj again).1 (other _)
    · rename_i again
      obtain ⟨rfl, rfl⟩ := Prod.mk.inj (given.symm.trans again)
      rfl

end SharedVariables.Arrivals
