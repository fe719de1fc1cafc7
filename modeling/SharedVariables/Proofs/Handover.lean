import SharedVariables.Proofs.Sharing

/-! Values pass from a writer to a reader. With the writer's sets and the reader's uses restrained,
the variable is a buffer with one place: each access of one partner opens the way for one access of
the other. -/
namespace SharedVariables

namespace Exchange

def fetched? : Exchange → Option Octets
  | ⟨.getValue _, .valueIs _ code _ payload⟩ => if code = 0 then some payload else none
  | _ => none

def assigned (xs : List Exchange) : List Octets := xs.filterMap assigned?

def fetched (xs : List Exchange) : List Octets := xs.filterMap fetched?

@[simp] theorem fetched?_check (c : Call) (key : Key) (attempt : UInt32) (reply : Signal) :
    fetched? ⟨(c.check key attempt).request, reply⟩ = none := by
  cases c <;> rfl

theorem assigned_append (xs : List Exchange) (x : Exchange) :
    assigned (xs ++ [x]) = assigned xs ++ x.assigned?.toList := by
  cases h : x.assigned? <;> simp [assigned, h]

theorem fetched_append (xs : List Exchange) (x : Exchange) :
    fetched (xs ++ [x]) = fetched xs ++ x.fetched?.toList := by
  cases h : x.fetched? <;> simp [fetched, h]

end Exchange

namespace Sharing

open Broker

/-- The round of a value from the writer to the reader: the stages of the writer, who holds `side`,
and of the reader, the payloads given and fetched, and those that reads have returned. -/
inductive Buffer (side : Side) (r : Record) :
    Stage → Stage → List Octets → List Octets → List Octets → Prop where
  | empty {got : List Octets} (state : r.state = .idle) : Buffer side r .asking .asking got got got
  | granted {payload : Octets} {terms : Terms} {got : List Octets} (state : r.state = .idle) :
      Buffer side r (.permitted (.write payload terms)) .asking got got got
  | filling {payload : Octets} {terms : Terms} {got : List Octets} (state : r.state = .idle)
      (value : r.value = some payload) :
      Buffer side r (.performed (.write payload terms) payload) .asking (got ++ [payload]) got got
  | full {payload : Octets} {got : List Octets} (state : r.state = .hasSet side)
      (value : r.value = some payload) :
      Buffer side r .asking .asking (got ++ [payload]) got got
  | admitted {payload : Octets} {terms : Terms} {got : List Octets} (state : r.state = .hasSet side)
      (value : r.value = some payload) :
      Buffer side r .asking (.permitted (.read terms)) (got ++ [payload]) got got
  | draining {payload : Octets} {terms : Terms} {got : List Octets}
      (state : r.state = .hasSet side) :
      Buffer side r .asking (.performed (.read terms) payload) (got ++ [payload])
        (got ++ [payload]) got

variable {key : Key} {calls : List Call} {side : Side} {r after : Record}
  {w w' rd rd' : Stage} {x : Exchange}
  {given taken got more : List Octets}

theorem blocked (closed : ∀ c ∈ calls, r.permits c.used side = false)
    (advance : Advance key calls side r .asking x after w' more) :
    after = r ∧ w' = .asking ∧ more = [] ∧ x.assigned? = none ∧ x.fetched? = none := by
  cases advance with
  | refused => simp
  | permitted mem opened => simp [closed _ mem] at opened

theorem Buffer.write (buffer : Buffer side r w rd given taken got)
    (writes : ∀ c ∈ calls, c.used = false) (restrained : r.control.includes (.setBit side) = true)
    (advance : Advance key calls side r w x after w' more) :
    Buffer side after w' rd (given ++ x.assigned?.toList) taken got := by
  -- While a value waits the writer is refused.
  have closed : r.state = .hasSet side → ∀ c ∈ calls, r.permits c.used side = false := by
    intro state c mem
    simp [writes c mem, Record.permits, Record.maySet, state, State.permitsSet_hasSet, restrained]
  cases buffer with
  | empty state =>
    cases advance with
    | refused => simpa using .empty state
    | @permitted c _ mem =>
      cases c with
      | read => simpa [Call.used] using writes _ mem
      | write => simpa using .granted state
  | granted state =>
    cases advance with
    | assigned => exact .filling state rfl
  | filling state value =>
    cases advance with
    | reported =>
      have set : (r.report false side).state = .hasSet side := by simp [Record.nextState]
      simpa [Exchange.assigned?] using .full set (by simpa using value)
  | full state value =>
    obtain ⟨rfl, rfl, -, none, -⟩ := blocked (closed state) advance
    simpa [none] using .full state value
  | admitted state value =>
    obtain ⟨rfl, rfl, -, none, -⟩ := blocked (closed state) advance
    simpa [none] using .admitted state value
  | draining state =>
    obtain ⟨rfl, rfl, -, none, -⟩ := blocked (closed state) advance
    simpa [none] using .draining state

theorem Buffer.read (buffer : Buffer side r w rd given taken got)
    (reads : ∀ c ∈ calls, c.used = true)
    (restrained : r.control.includes (.useBit side.other) = true)
    (advance : Advance key calls side.other r rd x after rd' more) :
    Buffer side after w rd' given (taken ++ x.fetched?.toList) (got ++ more) := by
  -- While there is nothing new the reader is refused.
  have closed : r.state = .idle → ∀ c ∈ calls, r.permits c.used side.other = false := by
    intro state c mem
    simp [reads c mem, Record.permits, Record.mayUse, state, State.permitsUse_idle, restrained]
  cases buffer with
  | empty state =>
    obtain ⟨rfl, rfl, rfl, -, none⟩ := blocked (closed state) advance
    simpa [none] using .empty state
  | granted state =>
    obtain ⟨rfl, rfl, rfl, -, none⟩ := blocked (closed state) advance
    simpa [none] using .granted state
  | filling state value =>
    obtain ⟨rfl, rfl, rfl, -, none⟩ := blocked (closed state) advance
    simpa [none] using .filling state value
  | full state value =>
    cases advance with
    | refused => simpa using .full state value
    | @permitted c _ mem =>
      cases c with
      | read => simpa using .admitted state value
      | write => simpa [Call.used] using reads _ mem
  | admitted state value =>
    cases advance with
    | missed none => simp [value] at none
    | fetched stored =>
      obtain rfl := Option.some.inj (value.symm.trans stored)
      simpa [Exchange.fetched?] using .draining state
  | draining state =>
    cases advance with
    | reported =>
      have used : (r.report true side.other).state = .idle := by
        simp [Record.nextState, state, State.hasSet_ne_notShared]
      simpa [Exchange.fetched?, Call.yields, Call.used] using .empty used

/-- The bits that make a variable a buffer with one place. -/
def handoverBits (writer : Side) : Mask := .setBit writer ∪ .useBit writer.other

theorem handoverBits_includes (writer : Side) :
    (handoverBits writer).includes (.setBit writer) = true ∧
      (handoverBits writer).includes (.useBit writer.other) = true := by
  cases writer <;> decide

theorem Buffer.aside (buffer : Buffer side r w rd given taken got) (state : after.state = r.state)
    (value : after.value = r.value) : Buffer side after w rd given taken got := by
  cases buffer with
  | empty s => exact .empty (state.trans s)
  | granted s => exact .granted (state.trans s)
  | filling s v => exact .filling (state.trans s) (value.trans v)
  | full s v => exact .full (state.trans s) (value.trans v)
  | admitted s v => exact .admitted (state.trans s) (value.trans v)
  | draining s => exact .draining (state.trans s)

theorem Progress.buffer {calls : Side → List Call} {first : Record} {turns : List Turn}
    {stage : Side → Stage} {returned : Side → List Octets} (idle : first.state = .idle)
    (writes : ∀ c ∈ calls side, c.used = false) (reads : ∀ c ∈ calls side.other, c.used = true)
    (progress : Progress key calls (handoverBits side) first turns r stage returned) :
    Buffer side r (stage side) (stage side.other) (Exchange.assigned (exchangesOf side turns))
      (Exchange.fetched (exchangesOf side.other turns)) (returned side.other) := by
  obtain ⟨setBit, useBit⟩ := handoverBits_includes side
  induction progress with
  | start => exact .empty idle
  | @turn turns actor x r after stage next returned total more before advance waits gets keeps ih =>
    have control := before.control
    rw [exchangesOf_append, exchangesOf_append]
    by_cases own : side = actor
    · subst actor
      rw [if_pos rfl, if_neg side.other_ne, Exchange.assigned_append, waits, keeps]
      exact ih.write writes (Mask.includes_trans control setBit) advance
    · obtain rfl : actor = side.other := Side.eq_other fun same => own same.symm
      rw [Side.other_other] at waits
      rw [if_neg own, if_pos rfl, Exchange.fetched_append, waits, gets]
      exact ih.read reads (Mask.includes_trans control useBit) advance
  | aside _ state value _ ih => exact ih.aside state value

theorem Buffer.lags (buffer : Buffer side r w rd given taken got) :
    (taken <+: given ∧ given.length ≤ taken.length + 1) ∧ got <+: given ∧
      given.length ≤ got.length + 1 := by
  cases buffer <;> simp

theorem Buffer.opens (buffer : Buffer side r w rd given taken got) :
    r.maySet side = true ∨ r.mayUse side.other = true := by
  have idle : r.state = .idle → r.maySet side = true := by
    intro state
    rw [Record.maySet, state, State.permitsSet_idle]
  have set : r.state = .hasSet side → r.mayUse side.other = true := by
    intro state
    rw [Record.mayUse, state, State.permitsUse_other_hasSet]
  cases buffer with
  | empty state => exact .inl (idle state)
  | granted state => exact .inl (idle state)
  | filling state => exact .inl (idle state)
  | full state => exact .inr (set state)
  | admitted state => exact .inr (set state)
  | draining state => exact .inr (set state)

/-- What a reader has fetched, and what its reads have returned, is all that the writer has assigned
but at most the last, in order; and one of the two may go on. -/
theorem handed_over_in_order {capacity : Option Nat} {wording : Wording}
    {events : List Occurrence} {key : Key} {first : Record} {conns : Side → ConnId}
    {writer : Side} {calls : Side → List Call} {s : Sharing}
    (distinct : (events.filterMap Occurrence.opened).Nodup)
    (found : ((new capacity wording).run events).1.table.get? key = some first)
    (held : ∀ side, (first.partner side).conn = some (conns side)) (idle : first.state = .idle)
    (control : first.control.includes (handoverBits writer) = true)
    (writes : ∀ c ∈ calls writer, c.used = false)
    (reads : ∀ c ∈ calls writer.other, c.used = true)
    (reached : Leads key conns (handoverBits writer)
      { broker := ((new capacity wording).run events).1 } s)
    (conducted : ∀ side, Call.Conduct key (calls side) (exchangesOf side s.turns)) :
    let given := Exchange.assigned (exchangesOf writer s.turns)
    let taken := Exchange.fetched (exchangesOf writer.other s.turns)
    let returned := Call.returned key (calls writer.other) (exchangesOf writer.other s.turns)
    (taken <+: given ∧ given.length ≤ taken.length + 1) ∧
    (returned <+: given ∧ given.length ≤ returned.length + 1) ∧
    ∃ r, s.broker.table.get? key = some r ∧
      (r.maySet writer = true ∨ r.mayUse writer.other = true) := by
  intro given taken returned
  obtain ⟨r, stage, after, -, progress⟩ := reached.conducted distinct found held control conducted
  have buffer := progress.buffer idle writes reads
  exact ⟨buffer.lags.1, buffer.lags.2, r, after, buffer.opens⟩

/-- The offerer writes twice and the acceptor reads, refused at first. The second value has been
assigned when the first has been returned. -/
theorem handed_over_second :
    let key : Key := .compose 2001 0
    let calls : Side → List Call
      | .offering => [.write [1] {}, .write [2] {}]
      | .accepting => [.read {}, .read {}]
    let moves : List (Side × Signal) :=
      [(.accepting, .mayUse key 0), (.offering, .maySet key 0), (.offering, .assignValue key [1]),
        (.accepting, .mayUse key 1), (.offering, .setState key false), (.offering, .maySet key 0),
        (.accepting, .mayUse key 2), (.accepting, .getValue key), (.offering, .maySet key 1),
        (.accepting, .setState key true), (.offering, .maySet key 2),
          (.offering, .assignValue key [2])]
    let start : Sharing := { broker := ((new none {}).run (opening (handoverBits .offering))).1 }
    let turns := (start.play wires moves).turns
    Exchange.assigned (exchangesOf .offering turns) = [[1], [2]] ∧
      Call.returned key (calls .accepting) (exchangesOf .accepting turns) = [[1]] ∧
      Call.returned key (calls .accepting) (exchangesOf .accepting turns) <+:
        Exchange.assigned (exchangesOf .offering turns) := by
  intro key calls moves start turns
  have control :
      (opened (handoverBits .offering)).control.includes (handoverBits .offering) = true := by
        decide
  have conducted : ∀ side, Call.Conduct key (calls side) (exchangesOf side turns) := by
    intro side
    cases side <;> decide +kernel
  have order := handed_over_in_order (distinct_opening _) (found_opened _) (held_opened _) rfl
    control (by decide)
    (by decide) (leads_play key wires _ .refl moves) conducted
  exact ⟨by decide +kernel, by decide +kernel, order.2.1.1⟩

end Sharing
end SharedVariables
