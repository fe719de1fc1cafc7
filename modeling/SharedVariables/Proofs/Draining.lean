import SharedVariables.Proofs.PendingEvents
import SharedVariables.Proofs.Seniority

/-! Polling for events and taking them all. Taking visits both sides of a record, polling the one
side that an identity plays, so they differ on an offer that a processor makes to itself: its event
waits on the side that is not polled. -/
namespace SharedVariables

namespace Events

variable {e f bound : Events}

theorem union_subset_iff : e ∪ f ⊆ bound ↔ e ⊆ bound ∧ f ⊆ bound := by
  cases e
  cases f
  cases bound
  simp only [HasSubset.Subset, Union.union, mk.injEq]
  grind

theorem empty_subset (e : Events) : ∅ ⊆ e := empty_union e

theorem subset_empty_iff : e ⊆ ∅ ↔ e = ∅ := by
  simp only [HasSubset.Subset, union_empty]

end Events

namespace Record

variable {r : Record} {id : Identity} {bound : Events}

/-- An event waits for an identity on a side that carries it. -/
def HasEvents (id : Identity) (r : Record) :
    Prop := ∃ side, (r.partner side).id = id ∧ (r.partner side).events ≠ ∅

/-- An offer of an identity to itself with nothing on its offering side. -/
structure Hides (id : Identity) (r : Record) : Prop where
  offerer : r.offering.id = id
  target : r.accepting.id = id
  silent : r.offering.events = ∅

/-- Polling sees what waits for an identity, but for what the offering side of a record to itself
hides. -/
theorem eventsFor_ne_empty_iff : r.eventsFor id ≠ ∅ ↔ r.HasEvents id ∧ ¬ r.Hides id := by
  by_cases offers : r.offering.id = id
  · have polled : r.eventsFor id = r.offering.events := by
      simp [eventsFor, sideOf?, offers, partner]
    rw [polled]
    constructor
    · intro waits
      exact ⟨⟨.offering, offers, waits⟩, fun hides => waits hides.silent⟩
    · rintro ⟨⟨side, own, waits⟩, visible⟩ silent
      cases side with
      | offering => exact waits silent
      | accepting => exact visible ⟨offers, own, silent⟩
  · have visible : ¬ r.Hides id := fun hides => offers hides.offerer
    constructor
    · intro waits
      refine ⟨?_, visible⟩
      unfold eventsFor at waits
      split at waits
      · rename_i side plays
        exact ⟨side, sideOf?_eq_some plays, waits⟩
      · exact absurd rfl waits
    · rintro ⟨⟨side, own, waits⟩, -⟩
      cases side with
      | offering => exact absurd own offers
      | accepting =>
        have accepts : r.accepting.id = id := own
        simp only [eventsFor, sideOf?, if_neg offers, if_pos accepts]
        exact waits

theorem eventsFor_subset
    (all : ∀ side, (r.partner side).id = id → (r.partner side).events ⊆ bound) :
    r.eventsFor id ⊆ bound := by
  unfold eventsFor
  split
  · rename_i side plays
    exact all side (sideOf?_eq_some plays)
  · exact Events.empty_subset bound

theorem drained_subset_iff :
    r.drained id ⊆ bound ↔ ∀ side, (r.partner side).id = id → (r.partner side).events ⊆ bound := by
  have part : ∀ p : Partner, (if p.id = id then p.events else ∅) ⊆ bound ↔
      (p.id = id → p.events ⊆ bound) := by
    intro p
    split
    · rename_i own
      simp [own]
    · rename_i other
      simp [other, Events.empty_subset]
  rw [drained, Events.union_subset_iff, part, part]
  constructor
  · rintro ⟨offering, accepting⟩ (_ | _)
    · exact offering
    · exact accepting
  · intro all
    exact ⟨all .offering, all .accepting⟩

theorem partner_clear (r : Record) (id : Identity) (side : Side) :
    (r.clear id).partner side =
      if (r.partner side).id = id then { r.partner side with events := ∅ } else r.partner side := by
  cases side <;> rfl

theorem not_hasEvents_clear (r : Record) (id : Identity) : ¬ (r.clear id).HasEvents id := by
  rintro ⟨side, own, waits⟩
  rw [partner_clear] at own waits
  split at waits
  · exact waits rfl
  · rename_i other
    rw [if_neg other] at own
    exact other own

end Record

namespace Table

variable {t : Table} {history : List Key} {id : Identity} {bound : Events}

theorem foldl_drained_subset_iff (rs : List Record) (id : Identity) (start bound : Events) :
    rs.foldl (fun e r => e ∪ r.drained id) start ⊆ bound ↔
      start ⊆ bound ∧ ∀ r ∈ rs, r.drained id ⊆ bound := by
  induction rs generalizing start with
  | nil => simp
  | cons r rest ih => simp [ih, Events.union_subset_iff, and_assoc]

/-- What is taken holds the events of every side that carries the identity, and no others. -/
theorem clearEvents_subset_iff :
    (t.clearEvents id).1 ⊆ bound ↔
      ∀ r ∈ t.records, ∀ side, (r.partner side).id = id → (r.partner side).events ⊆ bound := by
  simp only [clearEvents, foldl_drained_subset_iff, Events.empty_subset, true_and,
    Record.drained_subset_iff]

theorem clearEvents_eq_empty_iff :
    (t.clearEvents id).1 = ∅ ↔ ∀ r ∈ t.records, ¬ r.HasEvents id := by
  rw [← Events.subset_empty_iff, clearEvents_subset_iff]
  simp [Events.subset_empty_iff, Record.HasEvents]

theorem polled_iff (r : Record) :
    (!(r.eventsFor id).isEmpty) = true ↔ r.HasEvents id ∧ ¬ r.Hides id := by
  rw [← Record.eventsFor_ne_empty_iff]
  simp [Events.isEmpty]

theorem events?_eq_none_iff :
    t.events? id = none ↔ ∀ r ∈ t.records, ¬ (r.HasEvents id ∧ ¬ r.Hides id) := by
  rw [events?, Option.map_eq_none_iff, oldest?_eq_none_iff polled_iff]

theorem Dated.events?_iff (dated : t.Dated history) {key : Key} {e : Events} :
    t.events? id = some (key, e) ↔
      ∃ r, t.Eldest history (fun r => r.HasEvents id ∧ ¬ r.Hides id) r ∧ r.key = key ∧
        r.eventsFor id = e := by
  simp only [events?, Option.map_eq_some_iff, dated.oldest?_iff polled_iff, Prod.mk.injEq]

/-- Polling tells of nothing where nothing can be taken, and otherwise of the variable whose events
came first. -/
structure PollAgrees (history : List Key) (t : Table) (id : Identity) : Prop where
  silent : t.events? id = none ↔ (t.clearEvents id).1 = ∅
  eldest : ∀ key e, t.events? id = some (key, e) →
    ∃ r, t.Eldest history (Record.HasEvents id) r ∧ r.key = key

/-- Polling is right unless the eldest record with events for an identity hides them. -/
theorem Dated.pollAgrees_iff (dated : t.Dated history) :
    t.PollAgrees history id ↔ ∀ r, t.Eldest history (Record.HasEvents id) r → ¬ r.Hides id := by
  constructor
  · intro agrees r eldest hides
    cases polled : t.events? id with
    | none => exact clearEvents_eq_empty_iff.mp (agrees.silent.mp polled) r eldest.mem eldest.fits
    | some told =>
      obtain ⟨first, isFirst, same⟩ := agrees.eldest told.1 told.2 polled
      obtain ⟨seen, isSeen, here, -⟩ := dated.events?_iff.mp polled
      obtain rfl := isFirst.unique eldest
      obtain rfl := dated.sound.eq_of_key isSeen.mem isFirst.mem (here.trans same.symm)
      exact isSeen.fits.2 hides
  · intro visible
    constructor
    · rw [clearEvents_eq_empty_iff, events?_eq_none_iff]
      constructor
      · intro unseen r mem waits
        obtain ⟨eldest, isEldest⟩ := dated.exists_eldest mem waits
        exact unseen eldest isEldest.mem ⟨isEldest.fits, visible eldest isEldest⟩
      · intro none r mem waits
        exact none r mem waits.1
    · intro key e polled
      obtain ⟨seen, isSeen, here, -⟩ := dated.events?_iff.mp polled
      obtain ⟨eldest, isEldest⟩ := dated.exists_eldest isSeen.mem isSeen.fits.1
      obtain rfl := isSeen.unique (isEldest.and (visible eldest isEldest))
      exact ⟨seen, isEldest, here⟩

theorem get?_clearEvents (t : Table) (id : Identity) (key : Key) :
    (t.clearEvents id).2.get? key = (t.get? key).map (·.clear id) := by
  rw [get?, clearEvents, List.find?_map]
  rfl

theorem not_hasEvents_clearEvents (t : Table) (id : Identity) :
    ∀ r ∈ (t.clearEvents id).2.records, ¬ r.HasEvents id := by
  intro r mem
  obtain ⟨old, -, rfl⟩ := mem_clearEvents mem
  exact old.not_hasEvents_clear id

end Table

namespace Broker

/-- In every state that a broker comes to, polling agrees with taking exactly where the eldest
record with events for the identity is not one that it offers to itself with nothing on the offering
side. What polling tells of is there, and taking gives all that waits for the identity, leaves
nothing to poll or take, and touches the events of no other. -/
theorem poll_agrees_with_drain (capacity : Option Nat) (wording : Wording)
    (events : List Occurrence) (id : Identity) :
    let b := new capacity wording
    let t := (b.run events).1.table
    let drained := (t.clearEvents id).1
    let after := (t.clearEvents id).2
    (t.PollAgrees (b.creations events) id ↔
      ∀ r, t.Eldest (b.creations events) (Record.HasEvents id) r → ¬ r.Hides id) ∧
    (∀ key e, t.events? id = some (key, e) → e ≠ ∅ ∧ e ⊆ drained ∧
      ∃ r, t.Eldest (b.creations events) (fun r => r.HasEvents id ∧ ¬ r.Hides id) r ∧ r.key = key) ∧
    (∀ bound, drained ⊆ bound ↔
      ∀ r ∈ t.records, ∀ side, (r.partner side).id = id → (r.partner side).events ⊆ bound) ∧
    after.events? id = none ∧ (after.clearEvents id).1 = ∅ ∧
      after = { t with records := after.records } ∧
    ∀ key, (t.get? key = none → after.get? key = none) ∧
      ∀ r, t.get? key = some r → ∃ s, after.get? key = some s ∧ r.SameButEvents s ∧
        ∀ side, (s.partner side).events = if (r.partner side).id = id then ∅ else
          (r.partner side).events := by
  intro b t drained after
  have dated : t.Dated (b.creations events) := dated_run capacity wording events
  have cleared := t.not_hasEvents_clearEvents id
  refine ⟨dated.pollAgrees_iff, ?_, fun _ => Table.clearEvents_subset_iff, ?_, ?_, rfl, ?_⟩
  · intro key e polled
    obtain ⟨r, eldest, here, rfl⟩ := dated.events?_iff.mp polled
    refine ⟨Record.eventsFor_ne_empty_iff.mpr eldest.fits, ?_, r, eldest, here⟩
    exact Record.eventsFor_subset
      (Table.clearEvents_subset_iff.mp (Events.subset_refl drained) r eldest.mem)
  · exact Table.events?_eq_none_iff.mpr fun r mem waits => cleared r mem waits.1
  · exact Table.clearEvents_eq_empty_iff.mpr cleared
  · intro key
    have found := t.get?_clearEvents id key
    constructor
    · intro absent
      rw [found, absent]
      rfl
    · intro r there
      refine ⟨r.clear id, by rw [found, there]; rfl, r.sameButEvents_clear id, ?_⟩
      intro side
      rw [Record.partner_clear]
      split <;> rfl

/-- A processor that offers a variable to itself polls in vain, though an event waits for it. -/
theorem own_offer_is_not_polled :
    let id : Identity := ⟨2001, 0, 0⟩
    let events : List Occurrence := [.connected ⟨1⟩ "", .request ⟨1⟩ (.registerProcessor id 7),
      .request ⟨1⟩ (.matchOrMake "X" id id)]
    let t := ((new none {}).run events).1.table
    t.events? id = none ∧ (t.clearEvents id).1 = .made ∧
      ¬ t.PollAgrees ((new none {}).creations events) id := by
  intro id events t
  have polled : t.events? id = none := by decide +kernel
  have taken : (t.clearEvents id).1 = .made := by decide +kernel
  refine ⟨polled, taken, fun agrees => ?_⟩
  have nothing := agrees.silent.mp polled
  rw [taken] at nothing
  exact absurd nothing (by decide)

/-- An offer of another processor came before the one to itself, so polling tells of that and is
right. -/
theorem poll_agrees_with_drain_older_offer :
    let id : Identity := ⟨2001, 0, 0⟩
    let other : Identity := ⟨2002, 0, 0⟩
    let key : Key := .compose 2002 0
    let events : List Occurrence := [.connected ⟨1⟩ "", .request ⟨1⟩ (.registerProcessor id 7),
      .connected ⟨2⟩ "", .request ⟨2⟩ (.registerProcessor other 8),
      .request ⟨2⟩ (.matchOrMake "X" id other), .request ⟨1⟩ (.matchOrMake "Y" id id)]
    let t := ((new none {}).run events).1.table
    let history := (new none {}).creations events
    (∃ r ∈ t.records, r.HasEvents id ∧ r.Hides id) ∧ t.PollAgrees history id ∧
      t.events? id = some (key, .made) ∧ Events.made ⊆ (t.clearEvents id).1 := by
  intro id other key events t history
  have polled : t.events? id = some (key, .made) := by decide +kernel
  have hidden : ∃ r ∈ t.records, r.offering.id = id ∧ r.accepting.id = id ∧ r.offering.events = ∅ ∧
      r.accepting.events ≠ ∅ := by decide +kernel
  have elder : ∃ r ∈ t.records, r.accepting.id = id ∧ r.accepting.events ≠ ∅ ∧
      ∀ s ∈ t.records, s.offering.id = id →
        s ≠ r ∧ history.idxOf r.key < history.idxOf s.key := by decide +kernel
  have result := poll_agrees_with_drain none {} events id
  refine ⟨?_, result.1.mpr ?_, polled, (result.2.1 key .made polled).2.1⟩
  · obtain ⟨r, mem, offerer, target, silent, waits⟩ := hidden
    exact ⟨r, mem, ⟨.accepting, target, waits⟩, offerer, target, silent⟩
  · intro s eldest hides
    obtain ⟨r, mem, target, waits, first⟩ := elder
    obtain ⟨apart, older⟩ := first s eldest.mem hides.offerer
    have younger := eldest.first r mem ⟨.accepting, target, waits⟩ fun same => apart same.symm
    exact Nat.lt_asymm older younger

end Broker
end SharedVariables
