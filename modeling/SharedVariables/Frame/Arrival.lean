import SharedVariables.Frame

/-! Frames from bytes that arrive over time. A reader waits for the length of a frame as long as it
takes; the payload must follow within a timeout, and a sender that stalls or closes inside a frame
counts as one that went away. -/
namespace SharedVariables

structure Chunk where
  time : Nat
  bytes : Octets

structure Arrivals where
  /-- The moment up to which the reader has waited. -/
  now : Nat := 0
  buffer : Octets := []
  coming : List Chunk
  closesAt : Nat

namespace Arrivals

inductive Wait where
  | ready
  | closed
  | expired
deriving DecidableEq

def unread (a : Arrivals) : Octets := a.buffer ++ a.coming.flatMap (·.bytes)

/-- Waits until `need` bytes are there, the stream closes, or the deadline is reached. -/
def awaitFrom (need : Nat) (deadline : Option Nat) (closesAt : Nat) :
    List Chunk → Octets → Nat → Wait × Arrivals
  | [], buffer, now =>
    if need ≤ (buffer.take need).length then (.ready, { now, buffer, coming := [], closesAt })
    else
      match deadline.filter (· ≤ closesAt) with
      | some due => (.expired, { now := due, buffer, coming := [], closesAt })
      | none => (.closed, { now := max now closesAt, buffer, coming := [], closesAt })
  | chunk :: rest, buffer, now =>
    if need ≤ (buffer.take need).length then
      (.ready, { now, buffer, coming := chunk :: rest, closesAt })
    else
      match deadline.filter (· ≤ chunk.time) with
      | some due => (.expired, { now := due, buffer, coming := chunk :: rest, closesAt })
      | none => awaitFrom need deadline closesAt rest (buffer ++ chunk.bytes) (max now chunk.time)

def await (a : Arrivals) (need : Nat) (deadline : Option Nat) : Wait × Arrivals :=
  awaitFrom need deadline a.closesAt a.coming a.buffer a.now

def skip (a : Arrivals) (n : Nat) : Arrivals := { a with buffer := a.buffer.drop n }

/-- Reads one frame. Nothing is read when the stream closes first or the payload is late. -/
def next (a : Arrivals) (timeout : Nat) : Except Fault (Option Octets) × Arrivals :=
  match a.await 4 none with
  | (.closed, a) | (.expired, a) => (.ok none, a)
  | (.ready, a) =>
    let size := Octets.toNat (a.buffer.take 4)
    if Limits.frameSize < size then (.error (Frame.tooLarge size), a.skip 4)
    else
      match (a.skip 4).await size (some (a.now + timeout)) with
      | (.closed, a) | (.expired, a) => (.ok none, a)
      | (.ready, a) => (.ok (some (a.buffer.take size)), a.skip size)

theorem unread_awaitFrom (need : Nat) (deadline : Option Nat) (closesAt : Nat) (coming : List Chunk)
    (buffer : Octets) (now : Nat) :
    (awaitFrom need deadline closesAt coming buffer now).2.unread =
      buffer ++ coming.flatMap (·.bytes) := by
  induction coming generalizing buffer now with
  | nil =>
    rw [awaitFrom]
    split
    · rfl
    · split <;> rfl
  | cons chunk rest ih =>
    rw [awaitFrom]
    split
    · rfl
    · split
      · rfl
      · rw [ih]
        simp

theorem unread_await (a : Arrivals) (need : Nat) (deadline : Option Nat) :
    (a.await need deadline).2.unread = a.unread :=
  unread_awaitFrom ..

theorem length_unread_skip {a : Arrivals} {n : Nat} (h : n ≤ a.buffer.length) :
    (a.skip n).unread.length + n = a.unread.length := by
  simp only [unread, skip, List.length_append, List.length_drop]
  omega

theorem ready_length {need : Nat} {deadline : Option Nat} {closesAt : Nat} {coming : List Chunk}
    {buffer : Octets} {now : Nat} {a : Arrivals}
    (h : awaitFrom need deadline closesAt coming buffer now = (.ready, a)) :
    need ≤ a.buffer.length := by
  induction coming generalizing buffer now with
  | nil =>
    rw [awaitFrom] at h
    split at h
    · rename_i enough
      cases h
      simp only [List.length_take] at enough ⊢
      omega
    · split at h <;> simp at h
  | cons chunk rest ih =>
    rw [awaitFrom] at h
    split at h
    · rename_i enough
      cases h
      simp only [List.length_take] at enough ⊢
      omega
    · split at h
      · simp at h
      · exact ih h

theorem length_unread_next_lt {a b : Arrivals} {timeout : Nat} {payload : Octets}
    (h : a.next timeout = (.ok (some payload), b)) : b.unread.length < a.unread.length := by
  simp only [next] at h
  split at h
  · simp at h
  · simp at h
  · rename_i first ready
    have enough := length_unread_skip (ready_length ready)
    have kept := unread_await a 4 none
    rw [ready] at kept
    split at h
    · simp at h
    · split at h
      · simp at h
      · simp at h
      · rename_i second ready'
        have enough' := length_unread_skip (ready_length ready')
        have kept' := unread_await (first.skip 4) (Octets.toNat (first.buffer.take 4))
          (some (first.now + timeout))
        rw [ready'] at kept'
        simp only [Prod.mk.injEq] at h
        rw [← h.2]
        simp only [← kept, ← kept'] at enough enough' ⊢
        omega

def readAll (a : Arrivals) (timeout : Nat) : List (Except Fault (Option Octets) × Nat) :=
  match _h : a.next timeout with
  | (.ok (some payload), rest) => (.ok (some payload), rest.now) :: rest.readAll timeout
  | (outcome, rest) => [(outcome, rest.now)]
termination_by a.unread.length
decreasing_by exact length_unread_next_lt _h

/-- A stream whose chunks follow each other after given delays and which closes some time after the
last. -/
def ofDelays (delays : List (Nat × Octets)) (lag : Nat) : Arrivals :=
  let (last, chunks) := delays.foldl
    (fun (now, chunks) (delay, bytes) =>
      (now + delay, chunks ++ [({ time := now + delay, bytes } : Chunk)])) (0, [])
  { coming := chunks, closesAt := last + lag }

end Arrivals
end SharedVariables
