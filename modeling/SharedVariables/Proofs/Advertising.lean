import SharedVariables.Proofs.Eligibility

/-! What is told of the offers of others. The list of offered variables has its own idea of whom an
offer is open to. It is that of the matching rule but for one case: a processor that asks is told of
its own offers, which it can never take up. -/
namespace SharedVariables

namespace Record

variable {target : Identity} {r : Record}

/-- A processor could take up a pending offer, by a request for its offerer or by one to anyone. -/
def Acceptable (target : Identity) (r : Record) : Prop :=
  r.isPending = true ∧ (r.fits r.offering.id target = true ∨ r.fits .general target = true)

/-- A pending offer that a processor made to anyone or to its own number. -/
structure OwnOffer (target : Identity) (r : Record) : Prop where
  pending : r.isPending = true
  own : r.offering.id = target
  reaches : r.accepting.id.isGeneral = true ∨ r.accepting.id.proc = target.proc

theorem Acceptable.other (acceptable : r.Acceptable target) : r.offering.id ≠ target := by
  rcases acceptable.2 with fits | fits
  · exact (fits_iff.mp fits).1
  · exact (fits_iff.mp fits).1

/-- The offers that reach a processor are those that it could take up and its own. -/
theorem isOpenTo_iff (offerer : r.isPending = true → r.offering.id.isGeneral = false) :
    r.isOpenTo target.proc = true ↔ r.Acceptable target ∨ r.OwnOffer target := by
  simp only [isOpenTo, Bool.and_eq_true, Bool.or_eq_true, beq_iff_eq]
  constructor
  · rintro ⟨pending, reaches⟩
    by_cases own : r.offering.id = target
    · exact .inr ⟨pending, own, reaches.symm⟩
    · refine .inl ⟨pending, ?_⟩
      rw [fits_iff, fits_iff]
      -- An offer to anyone is asked of its offerer, one to a number by a request to anyone.
      cases general : r.accepting.id.isGeneral with
      | true => exact .inl ⟨own, .offerToAnyone general (offerer pending) rfl⟩
      | false =>
        exact .inr ⟨own, .requestToAnyone rfl general (reaches.resolve_right (by simp [general]))⟩
  · rintro (⟨pending, fits⟩ | ⟨pending, -, reaches⟩)
    · refine ⟨pending, ?_⟩
      rw [fits_iff, fits_iff] at fits
      rcases fits with ⟨-, addressed⟩ | ⟨-, addressed⟩
      all_goals
        cases addressed with
        | offerToAnyone general => exact .inr general
        | requestToAnyone _ _ number => exact .inl number
        | eachOther _ _ _ named => exact .inl (congrArg Identity.proc named)
    · exact ⟨pending, reaches.symm⟩

end Record

namespace Broker

variable {b : Broker}

/-- No processor is named like anyone, so no pending offer is one of anyone. -/
theorem Upkept.offerer_particular (upkept : b.Upkept []) {r : Record} (mem : r ∈ b.table.records)
    (pending : r.isPending = true) : r.offering.id.isGeneral = false := by
  simp only [Record.isPending, Bool.and_eq_true] at pending
  obtain ⟨conn, held⟩ := Option.isSome_iff_exists.mp pending.1
  exact (upkept.agrees.proper _ conn ((upkept.agrees.backed r mem .offering).held conn held)).2

theorem Upkept.offers_listing {history : List Key} (upkept : b.Upkept [])
    (dated : b.table.Dated history) (target offerer : Identity) :
    ∃ rs, b.table.Listing history
        (fun r => r.offering.id.proc = offerer.proc ∧
          (r.Acceptable target ∨ r.OwnOffer target)) rs ∧
      b.table.offeredVariables target offerer = rs.map (·.name) := by
  have listing :=
    dated.listing (p := fun r => r.isOpenTo target.proc && r.offering.id.proc == offerer.proc)
    fun r => Iff.rfl
  refine ⟨_, listing.congr ?_, rfl⟩
  intro r mem
  rw [← Record.isOpenTo_iff (upkept.offerer_particular mem)]
  simp [and_comm]

/-- The names told to a processor that asks are those of the offers which it could take up and of
its own that reach it, in the order of their creation. So they are what it could take up exactly
where it has none of its own, or asks for the offers of another number. -/
theorem offers_advertised (capacity : Option Nat) (wording : Wording) (events : List Occurrence)
    (target offerer : Identity) (distinct : (events.filterMap Occurrence.opened).Nodup) :
    let t := ((new capacity wording).run events).1.table
    let history := (new capacity wording).creations events
    (∃ rs, t.Listing history
        (fun r => r.offering.id.proc = offerer.proc ∧
          (r.Acceptable target ∨ r.OwnOffer target)) rs ∧
      t.offeredVariables target offerer = rs.map (·.name)) ∧
    ∃ rs, t.Listing history (fun r => r.offering.id.proc = offerer.proc ∧ r.Acceptable target) rs ∧
      (t.offeredVariables target offerer = rs.map (·.name) ↔
        (target.proc = offerer.proc → ∀ r ∈ t.records, ¬ r.OwnOffer target)) := by
  intro t history
  have dated : t.Dated history := dated_run capacity wording events
  obtain ⟨rs, listing, told⟩ :=
    (upkept_run capacity wording distinct).offers_listing dated target offerer
  refine ⟨⟨rs, listing, told⟩, rs.filter (·.offering.id != target), ?_, ?_⟩
  · refine (listing.filter _).congr fun r _ => ?_
    simp only [bne_iff_ne]
    constructor
    · rintro ⟨⟨number, acceptable | ownOffer⟩, other⟩
      · exact ⟨number, acceptable⟩
      · exact absurd ownOffer.own other
    · rintro ⟨number, acceptable⟩
      exact ⟨⟨number, .inl acceptable⟩, acceptable.other⟩
  · rw [told]
    constructor
    · intro same number r mem ownOffer
      have length : (rs.filter (·.offering.id != target)).length = rs.length := by
        simpa using (congrArg List.length same).symm
      have all := List.filter_eq_self.mp (List.filter_sublist.eq_of_length length)
      have listed : r ∈ rs :=
        (listing.mem_iff r).mpr ⟨mem, by rw [ownOffer.own, number], .inr ownOffer⟩
      simpa [ownOffer.own] using all r listed
    · intro none
      rw [List.filter_eq_self.mpr]
      intro r listed
      obtain ⟨mem, number, acceptable | ownOffer⟩ := (listing.mem_iff r).mp listed
      · simpa using acceptable.other
      · exact absurd ownOffer (none (by rw [← ownOffer.own, number]) r mem)

/-- A processor asks for the offers of its own number. It has offered a variable to anyone, so it is
told of that, though there is nothing that it could take up. -/
theorem own_offer_is_advertised :
    let target : Identity := ⟨2001, 0, 0⟩
    let events : List Occurrence := [.connected ⟨1⟩ "", .request ⟨1⟩ (.registerProcessor target 7),
      .request ⟨1⟩ (.matchOrMake "X" .general target)]
    let t := ((new none {}).run events).1.table
    t.offeredVariables target target = [⟨"X", by decide⟩] ∧ ∀ r ∈ t.records,
      ¬ r.Acceptable target := by
  intro target events t
  have own : ∀ r ∈ t.records, r.offering.id = target := by decide +kernel
  refine ⟨by decide +kernel, ?_⟩
  intro r mem acceptable
  exact acceptable.other (own r mem)

/-- Two processors have one number. One has offered a variable to anyone and another to its twin.
What the twin has offered is for a third processor, so when it asks it is told of the two that it
could take up. -/
theorem offers_advertised_same_number :
    let target : Identity := ⟨2001, 0, 0⟩
    let twin : Identity := ⟨2001, 3000, 0⟩
    let events : List Occurrence := [.connected ⟨1⟩ "", .request ⟨1⟩ (.registerProcessor target 7),
      .connected ⟨2⟩ "", .request ⟨2⟩ (.registerProcessor twin 8),
      .request ⟨2⟩ (.matchOrMake "X" .general twin),
        .request ⟨1⟩ (.matchOrMake "Y" ⟨2002, 0, 0⟩ target),
      .request ⟨2⟩ (.matchOrMake "Z" target twin)]
    let t := ((new none {}).run events).1.table
    (events.filterMap Occurrence.opened).Nodup ∧
      t.offeredVariables target twin = [⟨"X", by decide⟩, ⟨"Z", by decide⟩] ∧
      ∃ rs, t.Listing ((new none {}).creations events)
          (fun r => r.offering.id.proc = twin.proc ∧ r.Acceptable target) rs ∧
        t.offeredVariables target twin = rs.map (·.name) := by
  intro target twin events t
  have distinct : (events.filterMap Occurrence.opened).Nodup := by decide
  have away : ∀ r ∈ t.records, r.offering.id = target →
      r.accepting.id.isGeneral = false ∧ r.accepting.id.proc ≠ target.proc := by decide +kernel
  have sorted : t.byAge = t.records := List.mergeSort_of_pairwise (by decide +kernel)
  have told : t.offeredVariables target twin = [⟨"X", by decide⟩, ⟨"Z", by decide⟩] := by
    rw [Table.offeredVariables, sorted]
    decide +kernel
  obtain ⟨rs, listing, same⟩ := (offers_advertised none {} events target twin distinct).2
  refine ⟨distinct, told, rs, listing, same.mpr ?_⟩
  intro _ r mem ownOffer
  obtain ⟨particular, elsewhere⟩ := away r mem ownOffer.own
  rcases ownOffer.reaches with general | number
  · simp [particular] at general
  · exact elsewhere number

end Broker
end SharedVariables
