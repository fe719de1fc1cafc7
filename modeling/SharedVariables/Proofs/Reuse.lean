import SharedVariables.Proofs.Restraint
import SharedVariables.Proofs.Sharing

/-! What the bits for uses restrain. Once a side has used a value it finds nothing new until the
other side sets one: the state is idle, or names the side itself. That needs a variable that is
shared, which every coupled record is. -/
namespace SharedVariables

theorem State.permitsUse_of_spent {control : Mask} {side : Side} {state : State}
    (spent : state = idle ∨ state = hasSet side) (closed : control.includes (.useBit side) = true) :
    state.permitsUse control side = false := by
  rcases spent with rfl | rfl
  · simp [permitsUse_idle, closed]
  · simp [permitsUse_hasSet, closed]

namespace Record

theorem nextState_used {r : Record} (shared : r.state ≠ .notShared) (side : Side) :
    r.nextState true side = .idle := by
  simp [nextState, shared]

theorem nextState_ne_notShared {r : Record} (shared : r.state ≠ .notShared) (used : Bool)
    (side : Side) :
    r.nextState used side ≠ .notShared := by
  cases used with
  | true => simp [nextState_used shared]
  | false => exact State.hasSet_ne_notShared side

theorem coupling_ne_coupled {r : Record} {side : Side} (inactive : (r.partner side).conn = none) :
    r.coupling ≠ .coupled := by
  cases side with
  | offering =>
    have none : r.offering.conn = none := inactive
    cases other : r.accepting.conn <;>
      simp [coupling, Partner.isActive, none, other, Coupling.ofActive]
  | accepting =>
    have none : r.accepting.conn = none := inactive
    cases other : r.offering.conn <;>
      simp [coupling, Partner.isActive, none, other, Coupling.ofActive]

def Shared (r : Record) : Prop := r.coupling = .coupled → r.state ≠ .notShared

variable {r s : Record}

theorem Shared.of_sameSides (shared : r.Shared) (same : r.SameSides s)
    (moved : r.state ≠ .notShared → s.state ≠ .notShared) : s.Shared :=
  fun coupled => moved (shared (same.coupling.symm.trans coupled))

theorem shared_of_inactive (side : Side) (inactive : (r.partner side).conn = none) : r.Shared :=
  fun coupled => absurd coupled (coupling_ne_coupled inactive)

theorem shared_couple (r : Record) (id : Identity) (conn : ConnId) : (r.couple id conn).Shared := by
  intro _
  by_cases unshared : r.state = .notShared <;> simp [couple, unshared]

theorem shared_release (r : Record) (side : Side) : (r.release side).Shared :=
  shared_of_inactive side (by simp)

theorem Shared.releaseHeld (shared : r.Shared) (conn : ConnId) : (r.releaseHeld conn).2.Shared := by
  rw [releaseHeld_record]
  simp only
  split
  · exact shared_release _ _
  · split
    · exact shared_release _ _
    · exact shared

end Record

namespace Broker

theorem Revised.shared {b : Broker} {conn : ConnId} {request : Signal} {r : Record}
    (revised : Revised b conn request r) (all : ∀ s ∈ b.table.records, s.Shared) : r.Shared := by
  cases revised with
  | kept old => exact all r old
  | offered => exact Record.shared_of_inactive .accepting rfl
  | coupled => exact Record.shared_couple _ _ _
  | released => exact Record.shared_release _ _
  | reported old =>
    refine (all _ old).of_sameSides (Record.sameSides_report _ _ _) fun shared => ?_
    rw [Record.state_report]
    exact Record.nextState_ne_notShared shared _ _
  | restrained old =>
    refine (all _ old).of_sameSides (Record.sameSides_setControl _ _ _) fun shared => ?_
    simpa [Record.setControl] using shared
  | assigned old => exact (all _ old).of_sameSides (Record.sameSides_withValue _ _) id
  | alerted old =>
    refine (all _ old).of_sameSides (Record.sameSides_addEvents _ _ _) fun shared => ?_
    simpa [Record.addEvents] using shared
  | cleared old => exact (all _ old).of_sameSides (Record.sameSides_clear _ _) id

/-- A coupled record of a broker is shared, whatever came before. -/
theorem shared_of_run (capacity : Option Nat) (wording : Wording) (events : List Occurrence) :
    ∀ r ∈ ((new capacity wording).run events).1.table.records, r.Shared := by
  have allowed : ∀ e ∈ events, (fun _ => True : Occurrence → Prop) e := fun _ _ => trivial
  exact run_records (fun _ conn shared => shared.releaseHeld conn)
    (fun _ all revised => revised.shared all) capacity
    wording allowed

end Broker

namespace Record

variable {bits : Mask} {first r : Record} {side : Side} {as : List Access}

def Access.SetBy (side : Side) (x : Access) : Prop := x.side = side ∧ x.used = false

theorem Accessed.coupled (run : Accessed bits first as r) : first.coupling = .coupled := by
  induction run with
  | start coupled _ => exact coupled
  | access _ _ ih => exact ih
  | meanwhile _ _ _ _ ih => exact ih

theorem Accessed.shared (run : Accessed bits first as r) (shared : first.state ≠ .notShared) :
    r.state ≠ .notShared := by
  induction run with
  | start => exact shared
  | access _ _ ih =>
    rw [state_report]
    exact nextState_ne_notShared ih _ _
  | meanwhile _ state _ _ ih => exact state ▸ ih

theorem Accessed.apart_of_useBit (restrained : bits.includes (.useBit side) = true)
    (shared : first.state ≠ .notShared) (run : Accessed bits first as r) :
    Apart side true (Access.SetBy side.other) as := by
  refine run.apart_of (P := fun state => state = .idle ∨ state = .hasSet side) ?_ ?_ ?_
  · intro as r run
    exact .inl (nextState_used (run.shared shared) side)
  · -- Uses lead to idle, whoever makes them, and the only set that is no set by the other side is
    -- the side's own.
    intro as r used actor run spent permitted unlifted
    cases used with
    | true => exact .inl (nextState_used (run.shared shared) actor)
    | false =>
      have own : actor = side := Classical.byContradiction fun apart =>
        unlifted ⟨Side.eq_other apart, rfl⟩
      subst actor
      exact .inr rfl
  · intro as r run spent
    exact State.permitsUse_of_spent spent (Mask.includes_trans run.control restrained)

/-- The bit that restrains uses by a side forbids two of them without a set by the other side in
between, on every coupled record that a broker comes to hold, and on any coupled record whose
variable is shared. -/
theorem uses_apart {bits : Mask} {side : Side} (restrained : bits.includes (.useBit side) = true) :
    (∀ capacity wording events,
      ∀ first ∈ ((Broker.new capacity wording).run events).1.table.records,
      ∀ as r, Accessed bits first as r → Apart side true (Access.SetBy side.other) as) ∧
    ∀ first as r, first.state ≠ .notShared → Accessed bits first as r →
      Apart side true (Access.SetBy side.other) as := by
  constructor
  · intro capacity wording events first mem as r run
    exact run.apart_of_useBit restrained
      (Broker.shared_of_run capacity wording events first mem run.coupled)
  · intro first as r shared run
    exact run.apart_of_useBit restrained shared

/-- The acceptor uses twice what the offerer has set, on a record to which a broker has come. -/
theorem uses_apart_twice :
    let bits : Mask := .useBit .accepting
    let as : List Access :=
      [⟨.offering, false, bits⟩, ⟨.accepting, true, bits⟩, ⟨.offering, false, bits⟩,
      ⟨.accepting, true, bits⟩]
    bits.includes (.useBit .accepting) = true ∧
      Sharing.opened bits ∈ ((Broker.new none {}).run (Sharing.opening bits)).1.table.records ∧
      (∃ r, Accessed bits (Sharing.opened bits) as r) ∧
        Apart .accepting true (Access.SetBy .offering) as := by
  intro bits as
  have restrained : bits.includes (.useBit .accepting) = true := by decide
  have mem := Table.mem_of_get? (Sharing.found_opened bits)
  have run : ∃ r, Accessed bits (Sharing.opened bits) as r := by
    have begun : Accessed bits (Sharing.opened bits) [] (Sharing.opened bits) :=
      .start rfl (by decide)
    have set : (Sharing.opened bits).permits false .offering = true := by decide
    have use : ((Sharing.opened bits).report false .offering).permits true .accepting = true := by
      decide
    have once := (begun.access set).access use
    have reset :
        (((Sharing.opened bits).report false .offering).report true .accepting).permits
          false .offering = true := by
      decide
    have reuse :
        ((((Sharing.opened bits).report false .offering).report true .accepting).report
          false .offering).permits true .accepting = true := by
      decide
    exact ⟨_, (once.access reset).access reuse⟩
  obtain ⟨r, reached⟩ := run
  exact ⟨restrained, mem, ⟨r, reached⟩, (uses_apart restrained).1 none {} _ _ mem as r reached⟩

end Record
end SharedVariables
