import SharedVariables.Proofs.Upkeep

/-! What the control bits restrain. They are explained by histories, no two sets by a side without
an access by the other in between, while the record keeps one of four states. A side that may use
what it has set itself makes the record forget who set it. -/
namespace SharedVariables

namespace Mask

theorem includes_trans {a b c : Mask} (first : a.includes b = true) (second : b.includes c = true) :
    a.includes c = true := by
  obtain ⟨a₁, a₂, a₃, a₄⟩ := a
  obtain ⟨b₁, b₂, b₃, b₄⟩ := b
  obtain ⟨c₁, c₂, c₃, c₄⟩ := c
  simp only [includes, Inter.inter, beq_iff_eq, mk.injEq] at first second ⊢
  grind

theorem includes_self (m : Mask) : m.includes m = true := by
  obtain ⟨a, b, c, d⟩ := m
  revert a b c d
  decide

end Mask

namespace State

theorem permitsSet_hasSet (control : Mask) (side : Side) :
    (hasSet side).permitsSet control side = !control.includes (.setBit side) := by
  obtain ⟨a, b, c, d⟩ := control
  cases side <;> revert a b c d <;> decide

theorem permitsUse_hasSet (control : Mask) (side : Side) :
    (hasSet side).permitsUse control side = !control.includes (.useBit side) := by
  obtain ⟨a, b, c, d⟩ := control
  cases side <;> revert a b c d <;> decide

theorem permitsUse_other_hasSet (control : Mask) (side : Side) :
    (hasSet side).permitsUse control side.other = true := by
  obtain ⟨a, b, c, d⟩ := control
  cases side <;> revert a b c d <;> decide

theorem permitsUse_idle (control : Mask) (side : Side) :
    idle.permitsUse control side = !control.includes (.useBit side) := by
  obtain ⟨a, b, c, d⟩ := control
  cases side <;> revert a b c d <;> decide

theorem permitsSet_idle (control : Mask) (side : Side) : idle.permitsSet control side = true := by
  obtain ⟨a, b, c, d⟩ := control
  cases side <;> revert a b c d <;> decide

theorem hasSet_ne_notShared (side : Side) : hasSet side ≠ .notShared := by cases side <;> decide

end State

namespace Record

@[simp] theorem state_modify (r : Record) (f : Partner → Partner) (side : Side) :
    (r.modify f side).state = r.state := by
  cases side <;> rfl

@[simp] theorem state_report (r : Record) (used : Bool) (side : Side) :
    (r.report used side).state = r.nextState used side := by
  unfold report
  simp only
  split
  · split <;> simp
  · simp

theorem control_modify (r : Record) {f : Partner → Partner} (side : Side)
    (keeps : ∀ p, (f p).control = p.control) :
    (r.modify f side).control = r.control := by
  cases side <;> simp [modify, control, keeps]

@[simp] theorem control_report (r : Record) (used : Bool) (side : Side) :
    (r.report used side).control = r.control := by
  have seen : ({ r with state := r.nextState used side }.modify
    (fun p => { p with events := ∅ }) side).control =
      r.control := control_modify _ side fun _ => rfl
  have told : ∀ e,
    (({ r with state := r.nextState used side }.modify
    (fun p => { p with events := ∅ }) side).modify
      (·.addEvents e) side.other).control = r.control :=
    fun e => (control_modify _ (f := (·.addEvents e)) side.other fun _ => rfl).trans seen
  unfold report
  simp only
  split
  · split
    · exact seen
    · exact told _
  · exact told _

def permits (r : Record) (used : Bool) (side : Side) :
    Bool := if used then r.mayUse side else r.maySet side

/-- A finished access, with the control that was in force. -/
structure Access where
  side : Side
  used : Bool
  control : Mask
deriving DecidableEq

/-- The accesses on a record that stays coupled under a control with some bits. Between two of them
anything may happen that leaves the access state as it is. -/
inductive Accessed (bits : Mask) (first : Record) : List Access → Record → Prop where
  | start (coupled : first.coupling = .coupled) (control : first.control.includes bits = true) :
      Accessed bits first [] first
  | access {as : List Access} {r : Record} {used : Bool} {side : Side}
      (before : Accessed bits first as r)
      (permitted : r.permits used side = true) :
      Accessed bits first (as ++ [⟨side, used, r.control⟩]) (r.report used side)
  | meanwhile {as : List Access} {r s : Record} (before : Accessed bits first as r)
      (state : s.state = r.state)
      (coupled : s.coupling = .coupled) (control : s.control.includes bits = true) :
        Accessed bits first as s

/-- Between two accesses of one kind by a side there is one that fits. -/
def Apart (side : Side) (used : Bool) (fits : Access → Prop) (as : List Access) : Prop :=
  ∀ before middle after first second,
    as = before ++ ⟨side, used, first⟩ :: middle ++ ⟨side, used, second⟩ :: after →
      ∃ x ∈ middle, fits x

/-- What makes a set by a side permitted again: an access by the other side, or its own use of what
it has set. -/
def Access.Lifts (side : Side) (x : Access) : Prop :=
  x.side = side.other ∨ x.side = side ∧ x.used = true ∧ x.control.includes (.useBit side) = false

variable {bits : Mask} {first r : Record} {side : Side} {as : List Access}

theorem Accessed.control (run : Accessed bits first as r) : r.control.includes bits = true := by
  induction run with
  | start _ control => exact control
  | access _ _ ih => rwa [control_report]
  | meanwhile _ _ _ control _ => exact control

theorem Accessed.controls (run : Accessed bits first as r) {x : Access} (mem : x ∈ as) :
    x.control.includes bits = true := by
  induction run with
  | start => simp at mem
  | access before _ ih =>
    rcases List.mem_append.mp mem with earlier | last
    · exact ih earlier
    · obtain rfl := List.mem_singleton.mp last
      exact before.control
  | meanwhile _ _ _ _ ih => exact ih mem

/-- Each access of a run was permitted on a record to which the run had come before it. -/
theorem Accessed.permitted {x : Access} {bs : List Access}
    (run : Accessed bits first (as ++ x :: bs) r) :
    ∃ s, Accessed bits first as s ∧ s.permits x.used x.side = true := by
  generalize whole : as ++ x :: bs = cs at run
  induction run generalizing bs with
  | start => simp at whole
  | access before permitted ih =>
    rcases List.eq_nil_or_concat bs with rfl | ⟨init, last, rfl⟩
    · obtain rfl := List.append_inj_left' whole rfl
      obtain rfl := List.head_eq_of_cons_eq (List.append_inj_right' whole rfl)
      exact ⟨_, before, permitted⟩
    · rw [List.concat_eq_append, ← List.cons_append, ← List.append_assoc] at whole
      exact ih (List.append_inj_left' whole rfl)
  | meanwhile _ _ _ _ ih => exact ih whole

/-- What an access brings about in the state stays, until an access that lifts it. -/
theorem Accessed.state_since {P : State → Prop} {lifts : Access → Prop} {mark : Access}
    {tail : List Access}
    (begun : ∀ {as r}, Accessed bits first as r → P (r.nextState mark.used mark.side))
    (kept : ∀ {as r used actor}, Accessed bits first as r → P r.state →
      r.permits used actor = true → ¬ lifts ⟨actor, used, r.control⟩ → P (r.nextState used actor))
    (run : Accessed bits first (as ++ mark :: tail) r) (held : ∀ x ∈ tail, ¬ lifts x) :
    P r.state := by
  generalize whole : as ++ mark :: tail = cs at run
  induction run generalizing tail with
  | start => simp at whole
  | access before permitted ih =>
    rw [state_report]
    rcases List.eq_nil_or_concat tail with rfl | ⟨init, last, rfl⟩
    · obtain rfl := List.head_eq_of_cons_eq (List.append_inj_right' whole rfl)
      exact begun before
    · rw [List.concat_eq_append] at held whole
      rw [← List.cons_append, ← List.append_assoc] at whole
      obtain rfl := List.head_eq_of_cons_eq (List.append_inj_right' whole rfl)
      have calm := ih (fun x mem => held x (by simp [mem])) (List.append_inj_left' whole rfl)
      exact kept before calm permitted (held _ (by simp))
  | meanwhile _ state _ _ ih => exact state ▸ ih held whole

/-- Two accesses of one kind by a side are apart if the first brings about what forbids the
second. -/
theorem Accessed.apart_of {P : State → Prop} {lifts : Access → Prop} {used : Bool}
    (begun : ∀ {as r}, Accessed bits first as r → P (r.nextState used side))
    (kept : ∀ {as r other actor}, Accessed bits first as r → P r.state →
      r.permits other actor = true → ¬ lifts ⟨actor, other, r.control⟩ →
      P (r.nextState other actor))
    (forbidden : ∀ {as r}, Accessed bits first as r → P r.state → r.permits used side = false)
    (run : Accessed bits first as r) : Apart side used lifts as := by
  rintro before middle after one two rfl
  refine Classical.byContradiction fun none => ?_
  obtain ⟨s, between, permitted⟩ := run.permitted
  have calm : P s.state := between.state_since begun kept fun x mem lifted => none ⟨x, mem, lifted⟩
  simp [forbidden between calm] at permitted

theorem Accessed.apart (restrained : bits.includes (.setBit side) = true)
    (run : Accessed bits first as r) :
    Apart side false (Access.Lifts side) as := by
  have closed {as r} (run : Accessed bits first as r) : r.control.includes (.setBit side) = true :=
    Mask.includes_trans run.control restrained
  refine run.apart_of (P := fun state => state = .hasSet side) (fun _ => rfl) ?_ ?_
  · intro as r used actor run named permitted unlifted
    -- Until an access lifts the restraint the side itself can neither set nor use.
    exfalso
    have own : actor = side := Classical.byContradiction fun apart =>
      unlifted (.inl (Side.eq_other apart))
    subst actor
    cases used with
    | true =>
      simp only [permits, if_pos, mayUse, named, State.permitsUse_hasSet,
        Bool.not_eq_true'] at permitted
      exact unlifted (.inr ⟨rfl, rfl, permitted⟩)
    | false => simp [permits, maySet, named, State.permitsSet_hasSet, closed run] at permitted
  · intro as r run named
    simp [permits, maySet, named, State.permitsSet_hasSet, closed run]

/-- A coupled record on which neither partner has acted yet. -/
def untouched (control : Mask) : Record where
  key := .compose 2001 0
  name := ⟨"X", by decide⟩
  offering := { Partner.active ⟨2001, 0, 0⟩ ⟨1⟩ with control }
  accepting := .active ⟨2002, 0, 0⟩ ⟨2⟩
  state := .idle
  serial := 0

theorem control_untouched (bits : Mask) : (untouched bits).control = bits := by
  obtain ⟨a, b, c, d⟩ := bits
  revert a b c d
  decide

def setUseSet (side user : Side) (control : Mask) : List Access :=
  [⟨side, false, control⟩, ⟨user, true, control⟩, ⟨side, false, control⟩]

theorem accessed_setUseSet {bits : Mask} {side user : Side}
    (free : (State.hasSet side).permitsUse bits user = true) :
    ∃ r, Accessed bits (untouched bits) (setUseSet side user bits) r := by
  have control := control_untouched bits
  have begun : Accessed bits (untouched bits) [] (untouched bits) := by
    refine .start rfl ?_
    rw [control]
    exact bits.includes_self
  have maySet : (untouched bits).permits false side = true := State.permitsSet_idle _ side
  have mayUse : ((untouched bits).report false side).permits true user = true := by
    simp [permits, Record.mayUse, nextState, control, free]
  have mayReset :
      (((untouched bits).report false side).report true user).permits false side = true := by
    simp [permits, Record.maySet, nextState, State.hasSet_ne_notShared, State.permitsSet_idle]
  have run := ((begun.access maySet).access mayUse).access mayReset
  simp only [control_report, control] at run
  exact ⟨_, run⟩

/-- The bit that restrains sets by a side forbids two of them without an access in between that
lifts the restraint. It must be an access by the other side exactly if the side may not use what it
has set either. -/
theorem sets_apart_iff {bits : Mask} {side : Side}
    (restrained : bits.includes (.setBit side) = true) :
    (∀ first as r, Accessed bits first as r → Apart side false (Access.Lifts side) as) ∧
    ((∀ first as r, Accessed bits first as r → Apart side false (fun x => x.side = side.other) as) ↔
      bits.includes (.useBit side) = true) := by
  refine ⟨fun first as r run => run.apart restrained, ?_, ?_⟩
  · intro apart
    refine Classical.byContradiction fun free => ?_
    have mayUse : (State.hasSet side).permitsUse bits side = true := by
      simp [State.permitsUse_hasSet, free]
    obtain ⟨r, run⟩ := accessed_setUseSet mayUse
    obtain ⟨x, mem, other⟩ := apart _ _ _ run [] [⟨side, true, bits⟩] [] bits bits rfl
    obtain rfl := List.mem_singleton.mp mem
    exact side.other_ne other.symm
  · intro closed first as r run before middle after one two whole
    obtain ⟨x, mem, lifts⟩ := run.apart restrained before middle after one two whole
    refine ⟨x, mem, ?_⟩
    rcases lifts with other | ⟨-, -, free⟩
    · exact other
    · have inside : x ∈ as := by simp [whole, mem]
      have shut := Mask.includes_trans (run.controls inside) closed
      simp [free] at shut

/-- With both bits of the offerer in force, the use between two sets of its own is the
acceptor's. -/
theorem sets_apart_iff_handover :
    let bits : Mask := { setByOfferer := true, useByOfferer := true }
    bits.includes (.setBit .offering) = true ∧
      (∃ r, Accessed bits (untouched bits) (setUseSet .offering .accepting bits) r) ∧
      ∀ first as r, Accessed bits first as r →
        Apart .offering false (fun x => x.side = .accepting) as := by
  intro bits
  have restrained : bits.includes (.setBit .offering) = true := by decide
  refine ⟨restrained, accessed_setUseSet (by decide), ?_⟩
  exact (sets_apart_iff restrained).2.mpr (by decide)

/-- With only the bit for its sets in force, the offerer sets twice while the acceptor does
nothing. -/
theorem offerer_sets_twice :
    let bits : Mask := .setBit .offering
    (∃ r, Accessed bits (untouched bits) (setUseSet .offering .offering bits) r) ∧
      ¬ Apart .offering false (fun x => x.side = .accepting)
        (setUseSet .offering .offering bits) := by
  refine ⟨accessed_setUseSet (by decide), fun apart => ?_⟩
  obtain ⟨x, mem, other⟩ := apart [] [⟨.offering, true, .setBit .offering⟩] [] _ _ rfl
  obtain rfl := List.mem_singleton.mp mem
  simp at other

end Record
end SharedVariables
