import SharedVariables.Proofs.Sharing

/-! Whose value is stored. Permission, assignment and report are three requests, and nothing keeps
the place of a partner between them: the state names who reported last, the value is who assigned
last. -/
namespace SharedVariables

namespace Exchange

def isSetReport : Exchange → Bool
  | ⟨.setState _ used, _⟩ => !used
  | _ => false

/-- Each assignment has been followed by its report. -/
def allReported : List Exchange → Bool
  | [] => true
  | x :: rest => (x.assigned?.isNone || rest.any isSetReport) && allReported rest

theorem not_allReported_append {xs : List Exchange} {x : Exchange} {payload : Octets}
    (assigns : x.assigned? = some payload) : allReported (xs ++ [x]) = false := by
  induction xs with
  | nil => simp [allReported, assigns]
  | cons y rest ih => simp [allReported, ih]

end Exchange

/-- The payload that was assigned last, by whomever. -/
def lastAssigned (turns : List Turn) :
    Option Octets := (turns.filterMap (·.exchange.assigned?)).getLast?

theorem lastAssigned_append (turns : List Turn) (x : Turn) :
    lastAssigned (turns ++ [x]) = x.exchange.assigned?.or (lastAssigned turns) := by
  cases assigns : x.exchange.assigned? <;> simp [lastAssigned, assigns]

theorem State.hasSet_inj {side other : Side} (same : hasSet side = hasSet other) :
    side = other := by
  revert same
  cases side <;> cases other <;> decide

theorem Course.of_performed {key : Key} {calls : List Call} {xs : List Exchange} {c : Call}
    {payload : Octets} {returned : List Octets}
    (course : Course key calls xs (.performed c payload) returned) :
    ∃ earlier reply, xs = earlier ++ [⟨c.act key, reply⟩] := by
  cases course with
  | next before next =>
    cases next with
    | performed => exact ⟨_, _, rfl⟩

namespace Sharing

def Assigning (s : Stage) :
    Prop := ∃ payload terms moved, s = .performed (.write payload terms) moved

/-- The last assignment of a side, which it has not reported. -/
def Unreported (key : Key) (side : Side) (turns : List Turn) : Prop :=
  ∃ before payload a middle, turns = before ++ ⟨side, .assignValue key payload, a⟩ :: middle ∧
    ∀ x ∈ middle, x.side = side.other

/-- The last assignment of a side with its report. After it only those have assigned who have yet to
report. -/
def Reported (key : Key) (side : Side) (turns : List Turn) (stage : Side → Stage) : Prop :=
  ∃ before payload a middle c after,
    turns = before ++ ⟨side, .assignValue key payload, a⟩ :: middle ++
      ⟨side, .setState key false, c⟩ :: after ∧
      (∀ x ∈ middle, x.side = side.other) ∧
      ∀ x ∈ after, x.exchange.assigned?.isSome = true → Assigning (stage x.side)

structure Authored (key : Key) (r : Record) (turns : List Turn) (stage : Side → Stage) : Prop where
  unreported : ∀ side, Assigning (stage side) → Unreported key side turns
  reported : ∀ side, r.state = .hasSet side → Reported key side turns stage

variable {key : Key} {calls : List Call} {side z : Side} {r after : Record} {s t : Stage}
  {turns : List Turn}
  {x : Exchange} {stage next : Side → Stage} {more : List Octets}

theorem value_advance (advance : Broker.Advance key calls side r s x after t more) :
    after.value = x.assigned?.or r.value := by
  cases advance with
  | refused => simp
  | permitted => simp
  | missed => rfl
  | fetched => rfl
  | assigned => rfl
  | reported => simp [Exchange.assigned?]

theorem assignment_of_assigning (advance : Broker.Advance key calls side r s x after t more)
    (assigning : Assigning t) :
    ∃ payload a, x = ⟨.assignValue key payload, a⟩ := by
  obtain ⟨payload, terms, moved, rfl⟩ := assigning
  cases advance with
  | assigned => exact ⟨_, _, rfl⟩

theorem assigning_of_assignment (advance : Broker.Advance key calls side r s x after t more)
    (assigns : x.assigned?.isSome = true) : Assigning t := by
  cases advance with
  | refused => simp at assigns
  | permitted => simp at assigns
  | assigned => exact ⟨_, _, _, rfl⟩
  | _ => simp [Exchange.assigned?] at assigns

theorem state_advance (advance : Broker.Advance key calls side r s x after t more) :
    (after.state = r.state ∧ ∀ c payload, s ≠ .performed c payload) ∨
      ∃ c payload a, s = .performed c payload ∧ x = ⟨.setState key c.used, a⟩ ∧
        after = r.report c.used side := by
  cases advance with
  | reported => exact .inr ⟨_, _, _, rfl, rfl, rfl⟩
  | _ => exact .inl ⟨rfl, by simp⟩

theorem Unreported.append (unreported : Unreported key side turns) (x : Exchange) :
    Unreported key side (turns ++ [⟨side.other, x⟩]) := by
  obtain ⟨before, payload, a, middle, rfl, others⟩ := unreported
  refine ⟨before, payload, a, middle ++ [⟨side.other, x⟩], by simp, ?_⟩
  intro y mem
  rcases List.mem_append.mp mem with earlier | last
  · exact others y earlier
  · obtain rfl := List.mem_singleton.mp last
    rfl

theorem Unreported.report (unreported : Unreported key side turns) (a : Signal) :
    Reported key side (turns ++ [⟨side, .setState key false, a⟩]) stage := by
  obtain ⟨before, payload, b, middle, rfl, others⟩ := unreported
  exact ⟨before, payload, b, middle, a, [], by simp, others, by simp⟩

theorem Reported.append (reported : Reported key side turns stage)
    (advance : Broker.Advance key calls z r (stage z) x after (next z) more)
    (waits : next z.other = stage z.other) (still : ¬ Assigning (stage z)) :
    Reported key side (turns ++ [⟨z, x⟩]) next := by
  obtain ⟨before, payload, a, middle, c, later, rfl, others, assigning⟩ := reported
  refine ⟨before, payload, a, middle, c, later ++ [⟨z, x⟩], by simp, others, ?_⟩
  intro y mem assigns
  rcases List.mem_append.mp mem with earlier | last
  · have before := assigning y earlier assigns
    have other : y.side = z.other := by
      refine Side.eq_other fun same => still ?_
      rwa [same] at before
    rw [other] at before ⊢
    rwa [waits]
  · obtain rfl := List.mem_singleton.mp last
    exact assigning_of_assignment advance assigns

theorem Authored.turn (authored : Authored key r turns stage)
    (advance : Broker.Advance key calls z r (stage z) x after (next z) more)
    (waits : next z.other = stage z.other) :
    Authored key after (turns ++ [⟨z, x⟩]) next := by
  constructor
  · intro side assigning
    by_cases own : side = z
    · subst z
      obtain ⟨payload, a, rfl⟩ := assignment_of_assigning advance assigning
      exact ⟨turns, payload, a, [], rfl, by simp⟩
    · obtain rfl : z = side.other := Side.eq_other fun same => own same.symm
      rw [Side.other_other] at waits
      rw [waits] at assigning
      exact (authored.unreported side assigning).append x
  · intro side set
    rcases state_advance advance with ⟨kept, open_⟩ | ⟨c, payload, a, performed, rfl, rfl⟩
    · have still : ¬ Assigning (stage z) := by
        rintro ⟨payload, terms, moved, performed⟩
        exact open_ _ _ performed
      exact (authored.reported side (kept.symm.trans set)).append advance waits still
    · rw [Record.state_report] at set
      cases c with
      | read terms =>
        simp only [Call.used, Record.nextState, if_pos] at set
        split at set <;> cases side <;> simp [State.hasSet] at set
      | write payload terms =>
        obtain rfl : side = z :=
          (State.hasSet_inj (by simpa [Call.used, Record.nextState] using set)).symm
        exact (authored.unreported side ⟨_, _, _, performed⟩).report a

theorem Progress.authored {calls : Side → List Call} {bits : Mask} {first : Record}
    {returned : Side → List Octets} (idle : first.state = .idle)
    (progress : Progress key calls bits first turns r stage returned) :
    Authored key r turns stage ∧ r.value = (lastAssigned turns).or first.value := by
  induction progress with
  | start =>
    refine ⟨⟨?_, ?_⟩, rfl⟩
    · rintro side ⟨payload, terms, moved, performed⟩
      simp at performed
    · intro side set
      rw [idle] at set
      cases side <;> simp [State.hasSet] at set
  | turn before advance waits gets keeps ih =>
    refine ⟨ih.1.turn advance waits, ?_⟩
    rw [value_advance advance, ih.2, lastAssigned_append, Option.or_assoc]
  | aside before state value control ih =>
    exact ⟨⟨ih.1.unreported, fun side set => ih.1.reported side (state.symm.trans set)⟩,
      value.trans ih.2⟩

theorem lastAssigned_split {before middle later : List Turn} {payload : Octets} {a c : Signal}
    (none : ∀ x ∈ later, x.exchange.assigned? = none) :
    lastAssigned (before ++ ⟨side, .assignValue key payload, a⟩ :: middle ++
      ⟨side, .setState key false, c⟩ :: later) =
      some ((lastAssigned middle).getD payload) := by
  have silent : later.filterMap (·.exchange.assigned?) = [] := List.filterMap_eq_nil_iff.mpr none
  have assigns : Exchange.assigned? ⟨.assignValue key payload, a⟩ = some payload := rfl
  have reports : Exchange.assigned? ⟨.setState key false, c⟩ = Option.none := rfl
  simp [lastAssigned, List.filterMap_append, List.getLast?_cons, silent, assigns, reports]

/-- Where both partners have reported what they assigned, a state that names a side goes back to a
report of its last assignment, and nobody has assigned since. The stored value is the payload of
that assignment, unless the other partner has assigned between it and its report. -/
theorem hasSet_reports_assignment {capacity : Option Nat} {wording : Wording}
    {events : List Occurrence} {key : Key} {first : Record} {conns : Side → ConnId} {bits : Mask}
    {calls : Side → List Call} {s : Sharing}
    (distinct : (events.filterMap Occurrence.opened).Nodup)
    (found : ((Broker.new capacity wording).run events).1.table.get? key = some first)
    (held : ∀ side, (first.partner side).conn = some (conns side)) (idle : first.state = .idle)
    (control : first.control.includes bits = true)
    (reached : Leads key conns bits { broker := ((Broker.new capacity wording).run events).1 } s)
    (conducted : ∀ side, Call.Conduct key (calls side) (exchangesOf side s.turns))
    (settled : ∀ side, Exchange.allReported (exchangesOf side s.turns) = true) :
    ∃ r, s.broker.table.get? key = some r ∧ ∀ side, r.state = .hasSet side →
      ∃ before payload a middle c after,
        s.turns = before ++ ⟨side, .assignValue key payload, a⟩ :: middle ++
          ⟨side, .setState key false, c⟩ :: after ∧
        (∀ x ∈ middle, x.side = side.other) ∧ (∀ x ∈ after, x.exchange.assigned? = none) ∧
        r.value = some ((lastAssigned middle).getD payload) := by
  obtain ⟨r, stage, left, courses, progress⟩ :=
    reached.conducted distinct found held control conducted
  obtain ⟨authored, value⟩ := progress.authored idle
  have reported : ∀ side, ¬ Assigning (stage side) := by
    rintro side ⟨payload, terms, moved, performed⟩
    have course := courses side
    rw [performed] at course
    obtain ⟨earlier, reply, whole⟩ := course.of_performed
    have still := settled side
    rw [whole, Exchange.not_allReported_append rfl] at still
    simp at still
  refine ⟨r, left, fun side set => ?_⟩
  obtain ⟨before, payload, a, middle, c, after, split, others, assigning⟩ :=
    authored.reported side set
  have none : ∀ x ∈ after, x.exchange.assigned? = none := by
    intro x mem
    cases assigns : x.exchange.assigned? with
    | none => rfl
    | some payload => exact absurd (assigning x mem (by simp [assigns])) (reported x.side)
  refine ⟨before, payload, a, middle, c, after, split, others, none, ?_⟩
  rw [value, split, lastAssigned_split none]
  rfl

/-- The acceptor is let through before the offerer writes, and writes after it: the value is the
acceptor's, as the state says. -/
theorem hasSet_reports_later :
    let key : Key := .compose 2001 0
    let calls : Side → List Call
      | .offering => [.write [1] {}]
      | .accepting => [.write [2] {}]
    let moves : List (Side × Signal) :=
      [(.offering, .maySet key 0), (.accepting, .maySet key 0), (.offering, .assignValue key [1]),
        (.offering, .setState key false), (.accepting, .assignValue key [2]),
          (.accepting, .setState key false)]
    let start : Sharing :=
      { broker := ((Broker.new none {}).run (opening ⟨true, true, true, true⟩)).1 }
    let s := start.play wires moves
    (∀ side, Call.Conduct key (calls side) (exchangesOf side s.turns)) ∧
      ∃ r, s.broker.table.get? key = some r ∧ r.state = .hasSet .accepting ∧ r.value = some [2] ∧
        ∃ before payload a middle c after,
          s.turns = before ++ ⟨.accepting, .assignValue key payload, a⟩ :: middle ++
            ⟨.accepting, .setState key false, c⟩ :: after ∧
              r.value = some ((lastAssigned middle).getD payload) := by
  intro key calls moves start s
  have control :
      (opened ⟨true, true, true, true⟩).control.includes ⟨true, true, true, true⟩ = true := by
        decide
  have conducted : ∀ side, Call.Conduct key (calls side) (exchangesOf side s.turns) := by
    intro side
    cases side <;> decide +kernel
  have settled : ∀ side, Exchange.allReported (exchangesOf side s.turns) = true := by
    intro side
    cases side <;> decide +kernel
  have last : (s.broker.table.get? key).map (fun r => (r.state, r.value)) =
      some (.hasSet .accepting, some [2]) := by
    decide +kernel
  have reached : start.Leads key wires ⟨true, true, true, true⟩ s :=
    leads_play key wires _ .refl moves
  -- What was evaluated is all that is needed of this run.
  clear_value s
  obtain ⟨r, found, authored⟩ :=
    hasSet_reports_assignment (distinct_opening _) (found_opened _) (held_opened _) rfl
    control reached conducted settled
  rw [found] at last
  obtain ⟨state, value⟩ := Prod.mk.inj (Option.some.inj last)
  obtain ⟨before, payload, a, middle, c, after, split, -, -, stored⟩ := authored .accepting state
  exact ⟨conducted, r, found, state, value, before, payload, a, middle, c, after, split, stored⟩

/-- Both partners are let through while the variable is idle. The acceptor assigns last and the
offerer reports last: the state names the offerer, and the value is the acceptor's. -/
theorem state_and_value_of_different_authors :
    let key : Key := .compose 2001 0
    let calls : Side → List Call
      | .offering => [.write [1] {}]
      | .accepting => [.write [2] {}]
    let bits : Mask := ⟨true, true, true, true⟩
    let moves : List (Side × Signal) :=
      [(.offering, .maySet key 0), (.accepting, .maySet key 0), (.offering, .assignValue key [1]),
        (.accepting, .assignValue key [2]), (.accepting, .setState key false),
          (.offering, .setState key false)]
    let start : Sharing := { broker := ((Broker.new none {}).run (opening bits)).1 }
    let s := start.play wires moves
    start.Leads key wires bits s ∧
      (∀ side, Call.Conduct key (calls side) (exchangesOf side s.turns)) ∧
      (∀ side, Exchange.allReported (exchangesOf side s.turns) = true) ∧
      (exchangesOf .offering s.turns).filterMap Exchange.assigned? = [[1]] ∧
      (s.broker.table.get? key).map (fun r => (r.state, r.value)) =
        some (.offererHasSet, some [2]) := by
  intro key calls bits moves start s
  refine ⟨leads_play key wires bits .refl moves, ?_, ?_, by decide +kernel, by decide +kernel⟩
  · intro side
    cases side <;> decide +kernel
  · intro side
    cases side <;> decide +kernel

end Sharing
end SharedVariables
