import SharedVariables.Proofs.Holding
import SharedVariables.Proofs.Orderly

/-! What waits for a partner stays until it is taken. Every change to a record adds to the events of
its sides, but for a few that say so, and each of these belongs to one kind of request or to a
departure. -/
namespace SharedVariables

namespace Events

/-- Every event of the first is one of the second. -/
instance : HasSubset Events := ⟨fun e f => e ∪ f = f⟩

instance (e f : Events) : Decidable (e ⊆ f) := inferInstanceAs (Decidable (_ = _))

theorem subset_refl (e : Events) : e ⊆ e := by
  cases e
  simp [HasSubset.Subset, Union.union]

theorem subset_union (e f : Events) : e ⊆ e ∪ f := by
  cases e
  cases f
  simp [HasSubset.Subset, Union.union]

end Events

namespace Record

variable {r : Record} {side other : Side}

theorem events_addEvents (r : Record) (side : Side) (e : Events) (other : Side) :
    (r.partner other).events ⊆ ((r.addEvents side e).partner other).events := by
  rw [addEvents, partner_modify]
  split
  · exact Events.subset_union _ e
  · exact Events.subset_refl _

theorem events_report (r : Record) (used : Bool) (apart : other ≠ side) :
    (r.partner other).events ⊆ ((r.report used side).partner other).events := by
  have seen : ({ r with state := r.nextState used side }.modify (fun p => { p with events := ∅ })
    side).partner other =
      r.partner other := by
    rw [partner_modify, if_neg apart]
    cases other <;> rfl
  unfold report
  simp only
  rw [← seen]
  split
  · split
    · exact Events.subset_refl _
    · exact events_addEvents _ side.other .used other
  · exact events_addEvents _ side.other .set other

theorem events_setControl (r : Record) (side : Side) (mask : Mask) (other : Side) :
    (r.partner other).events ⊆ ((r.setControl side mask).partner other).events := by
  have restrained : ((r.modify (fun p => { p with control := mask }) side).partner other).events =
      (r.partner other).events := by
    rw [partner_modify]
    split <;> rfl
  rw [← restrained]
  exact events_addEvents _ side.other .control other

theorem events_alerted (r : Record) (id : Identity) (events : Events) (side : Side) :
    (r.partner side).events ⊆ ((r.alerted id events).partner side).events := by
  unfold alerted
  split
  · exact r.events_addEvents _ events side
  · exact Events.subset_refl _

theorem events_release (r : Record) (apart : other ≠ side) :
    (r.partner other).events ⊆ ((r.release side).partner other).events := by
  rw [partner_release, if_neg apart]
  split
  · exact Events.subset_union _ _
  · exact Events.subset_refl _

theorem events_clear (r : Record) {id : Identity} (apart : (r.partner side).id ≠ id) :
    (r.partner side).events ⊆ ((r.clear id).partner side).events := by
  have kept : (r.clear id).partner side = r.partner side := by
    cases side <;> exact if_neg apart
  rw [kept]
  exact Events.subset_refl _

end Record

theorem Table.Sound.fate_of_get? {t : Table} (sound : t.Sound) {op : Table.Operation} {r s : Record}
    (mem : r ∈ t.records) (after : (t.perform op).get? r.key = some s) : t.fate op r = some s := by
  have same : s.key = r.key := by simpa using List.find?_some after
  rcases (Table.mem_perform sound).mp (Table.mem_of_get? after) with ⟨old, was, left⟩ | new
  · have before := sound.get? was
    rw [← (Table.sameOrigin_of_fate left).key, same, sound.get? mem] at before
    rw [Option.some.inj before]
    exact left
  · -- The key of a new record was that of no record before.
    have issued := t.issue?_eq op
    have first := t.supplies_perform op
    rw [issued, new] at first
    have fresh := sound.get?_issue first
    simp [same, sound.get? mem] at fresh

/-- The occurrences that take the events of a side of a record, or the side with them: `r` is the
record before and `s` after. -/
inductive Occurrence.Consumes (r s : Record) : Side → Occurrence → Prop where
  /-- The holder of the side reports an access. -/
  | report {side : Side} {conn : ConnId} (held : (r.partner side).conn = some conn) (used : Bool) :
      Consumes r s side (.request conn (.setState r.key used))
  | clear (side : Side) (conn : ConnId) :
      Consumes r s side (.request conn (.clearAllEvents (r.partner side).id))
  | retract {side : Side} {conn : ConnId} (held : (r.partner side).conn = some conn)
      (vacated : (s.partner side).isActive = false) :
        Consumes r s side (.request conn (.retractOffer r.key))
  | depart {side : Side} (conn : ConnId) (held : (r.partner side).isActive = true)
      (vacated : (s.partner side).isActive = false) : Consumes r s side (.disconnected conn)
  /-- The offer is taken up, and the acceptor takes the place of whoever the offer was to. -/
  | couple {text : String} {wanted requester : Identity} {conn : ConnId}
      (waiting : r.isPending = true)
      (taken : s.accepting = .active requester conn) (coupled : s.coupling = .coupled) :
      Consumes r s .accepting (.request conn (.matchOrMake text wanted requester))

namespace Broker

variable {b : Broker} {conn : ConnId} {request : Signal} {op : Table.Operation} {r s : Record}

theorem Enacts.consumes (enacts : Enacts b conn request op) (upkept : b.Upkept [])
    (mem : r ∈ b.table.records) (left : b.table.fate op r = some s) (side : Side) :
    (r.partner side).events ⊆ (s.partner side).events ∨
      (Occurrence.request conn request).Consumes r s side := by
  -- The record under the key of a request that needs a held side, and that side.
  have holder : ∀ {key u own}, r.key = key → b.held conn key = .ok (u, own) →
      (r.partner own).conn = some conn := by
    rintro key u own rfl holds
    obtain ⟨found, reached⟩ := upkept.agrees.held_own holds
    obtain rfl := Option.some.inj ((upkept.sound.get? mem).symm.trans found)
    exact reached
  cases enacts with
  | @share text name wanted requester acts told =>
    obtain rfl := Option.some.inj left
    split
    · rename_i pending
      have fits := (Table.oldestIn_some pending).2
      simp only [Bool.and_eq_true] at fits
      have offers : r.offering.isActive = true := by
        have waiting := fits.1.1
        simp only [Record.isPending, Bool.and_eq_true] at waiting
        exact waiting.1
      cases side with
      | offering => exact .inl (Events.subset_union _ _)
      | accepting =>
        have accepts : (Partner.active requester conn).isActive = true := rfl
        refine .inr (.couple fits.1.1 rfl ?_)
        simp [Record.coupling, Record.couple, offers, accepts, Coupling.ofActive]
    · exact .inl (Events.subset_refl _)
  | @retract key id acts =>
    simp only [Table.fate] at left
    split at left
    · rename_i here
      subst key
      unfold Record.withdrawn at left
      split at left
      · rename_i own plays
        obtain ⟨rfl, -⟩ := Option.guard_eq_some_iff.mp left
        obtain ⟨plays, active⟩ := Record.activeSideOf?_eq_some plays
        by_cases apart : side = own
        · subst own
          exact .inr (.retract (upkept.agrees.own_side acts mem plays active)
            (by simp [Partner.isActive]))
        · exact .inl (r.events_release apart)
      · obtain rfl := Option.some.inj left
        exact .inl (Events.subset_refl _)
    · obtain rfl := Option.some.inj left
      exact .inl (Events.subset_refl _)
  | @report key used u own holds =>
    obtain rfl := Option.some.inj left
    split
    · rename_i here
      by_cases apart : side = own
      · subst own
        exact .inr (here ▸ .report (holder here holds) used)
      · exact .inl (r.events_report used apart)
    · exact .inl (Events.subset_refl _)
  | restrain =>
    obtain rfl := Option.some.inj left
    split
    · exact .inl (r.events_setControl _ _ side)
    · exact .inl (Events.subset_refl _)
  | assign =>
    obtain rfl := Option.some.inj left
    split
    · cases side <;> exact .inl (Events.subset_refl _)
    · exact .inl (Events.subset_refl _)
  | alert key id events =>
    obtain rfl := Option.some.inj left
    split
    · exact .inl (r.events_alerted id events side)
    · exact .inl (Events.subset_refl _)
  | clear id =>
    obtain rfl := Option.some.inj left
    by_cases named : (r.partner side).id = id
    · subst id
      exact .inr (.clear side conn)
    · exact .inl (r.events_clear named)

theorem events_remains {gone : List ConnId} (left : r.remains gone = some s) (conn : ConnId)
    (side : Side) :
    (r.partner side).events ⊆ (s.partner side).events ∨
      (Occurrence.disconnected conn).Consumes r s side := by
  have became := Record.partner_remains left side
  split at became
  · rename_i lost
    refine .inr (.depart conn ?_ (by rw [became]; rfl))
    refine Classical.byContradiction fun inactive => ?_
    have kept := Partner.isOver_of_inactive (Bool.eq_false_iff.mpr inactive) gone
    simp [lost] at kept
  · rw [became]
    split
    · exact .inl (Events.subset_union _ _)
    · exact .inl (Events.subset_refl _)

/-- Whatever happens, the events that wait for a side of a record wait for it afterwards, unless
what happens takes them. -/
theorem events_wait_until_consumed (capacity : Option Nat) (wording : Wording)
    (events : List Occurrence) (event : Occurrence)
    (distinct : (events.filterMap Occurrence.opened).Nodup) :
    let b := ((new capacity wording).run events).1
    ∀ key r s, b.table.get? key = some r → (b.step event).1.table.get? key = some s → ∀ side,
      (r.partner side).events ⊆ (s.partner side).events ∨ event.Consumes r s side := by
  intro b key r s before after side
  have upkept : b.Upkept [] := upkept_run capacity wording distinct
  have mem := Table.mem_of_get? before
  obtain rfl : r.key = key := by simpa using List.find?_some before
  have unchanged : (b.step event).1.table = b.table →
      (r.partner side).events ⊆ (s.partner side).events ∨ event.Consumes r s side := by
    intro same
    rw [same, before] at after
    obtain rfl := Option.some.inj after
    exact .inl (Events.subset_refl _)
  cases event with
  | connected | malformed => exact unchanged rfl
  | request conn request =>
    simp only [step, dispatch_broker] at after unchanged
    rcases handle_enacts upkept.sound conn request with same | ⟨op, enacts, done⟩
    · exact unchanged same
    · rw [done] at after
      exact enacts.consumes upkept mem (upkept.sound.fate_of_get? mem after) side
  | disconnected conn =>
    have lost := upkept.depart conn
    simp only [step, lost.left, without, upkept.sound.get?_without, before,
      Option.bind_some] at after
    exact events_remains after conn side

/-- The acceptor sets the variable. It has seen what waited for it; what waited for the offerer
waits on. -/
theorem events_wait_while_partner_sets :
    let r := Sharing.opened (.setBit .offering)
    let s := r.report false .accepting
    let b := ((new none {}).run (Sharing.opening (.setBit .offering))).1
    let event : Occurrence := .request ⟨2⟩ (.setState r.key false)
    b.table.get? r.key = some r ∧ (b.step event).1.table.get? r.key = some s ∧
      r.accepting.events = .control ∧ s.accepting.events = ∅ ∧ event.Consumes r s .accepting ∧
      r.offering.events = .matched ∧ r.offering.events ⊆ s.offering.events := by
  intro r s b event
  have before : b.table.get? r.key = some r := by decide +kernel
  have after : (b.step event).1.table.get? r.key = some s := by decide +kernel
  have kept := events_wait_until_consumed none {} (Sharing.opening (.setBit .offering)) event
    (Sharing.distinct_opening _) r.key r s before after .offering
  refine ⟨before, after, rfl, rfl, .report rfl false, rfl, kept.resolve_right ?_⟩
  intro consumes
  generalize same : event = e at consumes
  cases consumes with
  | report held =>
    obtain ⟨rfl, -⟩ := Occurrence.request.inj same
    exact absurd held (by decide)
  | _ => simp [event] at same

end Broker
end SharedVariables
