import SharedVariables.Proofs.Seniority

/-! What becomes of a request to share a variable. It takes up the first created of the offers that
are eligible, also where the table is full; without one it becomes an offer itself if there is room.
Nothing else in the table moves. -/
namespace SharedVariables

namespace Record

variable {name : Name} {wanted requester : Identity} {r : Record}

/-- Whom an offer and a request name. An offer to anyone meets a request that names its offerer, a
request to anyone meets an offer to the requester's number, and otherwise each names the other. -/
inductive Addressed (wanted requester : Identity) (r : Record) : Prop where
  | offerToAnyone (general : r.accepting.id.isGeneral = true)
      (particular : wanted.isGeneral = false)
      (named : wanted = r.offering.id) : Addressed wanted requester r
  | requestToAnyone (general : wanted.isGeneral = true)
      (particular : r.accepting.id.isGeneral = false)
      (number : r.accepting.id.proc = requester.proc) : Addressed wanted requester r
  | eachOther (offer : r.accepting.id.isGeneral = false) (request : wanted.isGeneral = false)
      (offerer : r.offering.id = wanted) (target : r.accepting.id = requester) :
        Addressed wanted requester r

structure Eligible (name : Name) (wanted requester : Identity) (r : Record) : Prop where
  offered : r.offering.isActive = true
  vacant : r.accepting.isActive = false
  name : r.name = name
  other : r.offering.id ≠ requester
  addressed : r.Addressed wanted requester

theorem fits_iff :
    r.fits wanted requester = true ↔ r.offering.id ≠ requester ∧ r.Addressed wanted requester := by
  unfold fits
  by_cases own : r.offering.id = requester
  · simp [own]
  · simp only [own, if_false, ne_eq, not_false_eq_true, true_and]
    constructor
    · intro fits
      split at fits
      · rename_i general
        simp only [Bool.and_eq_true, Bool.not_eq_true', beq_iff_eq] at fits
        exact .offerToAnyone general fits.1 fits.2.symm
      · rename_i offer
        split at fits
        · rename_i general
          exact .requestToAnyone general (by simpa using offer) (by simpa using fits)
        · rename_i request
          simp only [Bool.and_eq_true, beq_iff_eq] at fits
          exact .eachOther (by simpa using offer) (by simpa using request) fits.1 fits.2
    · intro addressed
      cases addressed with
      | offerToAnyone general particular named => simp [general, particular, named.symm]
      | requestToAnyone general particular number => simp [general, particular, number]
      | eachOther offer request offerer target =>
        rw [target] at offer
        simp [offer, request, offerer, target]

theorem eligible_iff (r : Record) :
    (r.isPending && r.name == name && r.fits wanted requester) = true ↔
      r.Eligible name wanted requester := by
  simp only [isPending, Bool.and_eq_true, Bool.not_eq_true', beq_iff_eq, fits_iff]
  constructor
  · rintro ⟨⟨⟨offered, vacant⟩, named⟩, other, addressed⟩
    exact ⟨offered, vacant, named, other, addressed⟩
  · rintro ⟨offered, vacant, named, other, addressed⟩
    exact ⟨⟨⟨offered, vacant⟩, named⟩, other, addressed⟩

end Record

namespace Table

variable {t : Table} {history : List Key} {name : Name}
  {wanted requester : Identity} {conn : ConnId}

/-- There is no room for another record, or no number for another key. -/
def Crowded (t : Table) : Prop :=
  (∃ bound, t.capacity = some bound ∧ bound ≤ t.size) ∨ t.sequence = Key.sequenceLimit

theorem isFull_iff : t.isFull = true ↔ ∃ bound, t.capacity = some bound ∧ bound ≤ t.size := by
  unfold isFull
  cases t.capacity <;> simp

theorem Sound.crowded_iff (sound : t.Sound) :
    t.Crowded ↔ t.isFull = true ∨ Key.sequenceLimit ≤ t.sequence := by
  have bound := sound.bounded
  have spent : t.sequence = Key.sequenceLimit ↔ Key.sequenceLimit ≤ t.sequence := by omega
  rw [Crowded, isFull_iff, spent]

theorem Dated.pendingOffer?_iff (dated : t.Dated history) {r : Record} :
    t.pendingOffer? name wanted requester = some r ↔
      t.Eldest history (Record.Eligible name wanted requester) r :=
  dated.oldest?_iff Record.eligible_iff

/-- The eldest eligible offer is taken up, whether or not the table is full, and no other record
changes. -/
theorem Dated.matchOrMake_eligible (dated : t.Dated history)
    (eligible : ∃ r ∈ t.records, r.Eligible name wanted requester) (conn : ConnId) :
    ∃ eldest, t.Eldest history (Record.Eligible name wanted requester) eldest ∧
      (t.matchOrMake name wanted requester conn).1 = .matched eldest.key eldest.offering.id ∧
      (t.matchOrMake name wanted requester conn).2 =
        t.update eldest.key (·.couple requester conn) := by
  cases pending : t.pendingOffer? name wanted requester with
  | none =>
    obtain ⟨r, mem, fits⟩ := eligible
    exact absurd fits ((oldest?_eq_none_iff Record.eligible_iff).mp pending r mem)
  | some eldest =>
    refine ⟨eldest, dated.pendingOffer?_iff.mp pending, ?_, ?_⟩
    · rw [matchOrMake, pending]
    · rw [matchOrMake, pending]

theorem matchOrMake_ineligible (without : ∀ r ∈ t.records, ¬ r.Eligible name wanted requester)
    (conn : ConnId) :
    t.matchOrMake name wanted requester conn =
      if t.isFull || Key.sequenceLimit ≤ t.nextNumber requester.proc then (.full, t)
      else
        (.created (t.newOffer name wanted requester conn).key wanted,
          { t with
            records := t.records ++ [t.newOffer name wanted requester conn]
            sequence := t.nextNumber requester.proc + 1
            serial := t.serial + 1 }) := by
  have none : t.pendingOffer? name wanted requester = none :=
    (oldest?_eq_none_iff Record.eligible_iff).mpr without
  by_cases full : (t.isFull || Key.sequenceLimit ≤ t.nextNumber requester.proc) = true
  · simp only [matchOrMake, none, createOffer_eq, if_pos full]
  · simp only [matchOrMake, none, createOffer_eq, if_neg full]

theorem get?_append_new {u : Table} {new : Record} (absent : t.get? new.key = none)
    (records : u.records = t.records ++ [new]) (key : Key) :
    u.get? key = if key = new.key then some new else t.get? key := by
  rw [get?, records, List.find?_append]
  by_cases here : key = new.key
  · subst here
    rw [get?] at absent
    simp [absent]
  · have passed : (new.key == key) = false := by simpa using fun same => here same.symm
    simp [here, passed, get?]

/-- A request takes up the eldest eligible offer, however full the table is: that record gets the
requester as its acceptor, its offerer is told, and the rest of it and of the table stays. Without
an eligible offer a crowded table refuses and stays as it is, and one with room takes the request in
as a new offer under a key never given out before. -/
theorem request_takes_eldest_or_offers (capacity : Option Nat) (ops : List Operation) (name : Name)
    (wanted requester : Identity) (conn : ConnId) :
    let t := (new capacity).performAll ops
    let history := ((new capacity).issues ops).map (·.key)
    let outcome := (t.matchOrMake name wanted requester conn).1
    let after := (t.matchOrMake name wanted requester conn).2
    ((∃ r ∈ t.records, r.Eligible name wanted requester) →
      ∃ eldest, t.Eldest history (Record.Eligible name wanted requester) eldest ∧
        outcome = .matched eldest.key eldest.offering.id ∧
          after = { t with records := after.records } ∧
        ∀ key, after.get? key =
          if key = eldest.key then
            some { eldest with
              accepting := { id := requester, conn := some conn, control := ∅, events := ∅ }
              offering := { eldest.offering with events := eldest.offering.events ∪ .matched }
              state := if eldest.state = .notShared then .idle else eldest.state }
          else t.get? key) ∧
    ((∀ r ∈ t.records, ¬ r.Eligible name wanted requester) →
      (t.Crowded → outcome = .full ∧ after = t) ∧
      (¬ t.Crowded → ∃ key, key ∉ history ∧ key ≠ .null ∧ t.get? key = none ∧
        outcome = .created key wanted ∧
        ∀ other, after.get? other =
          if other = key then
            some { key, name, serial := history.length, state := .notShared, value := none
                   offering := { id := requester, conn := some conn, control := ∅, events := ∅ }
                   accepting := { id := wanted, conn := none, control := ∅
                                  events := if wanted.isGeneral then ∅ else .made } }
          else t.get? other)) := by
  intro t history outcome after
  have dated : t.Dated history := dated_performAll capacity ops
  constructor
  · intro eligible
    obtain ⟨eldest, first, matched, updated⟩ := dated.matchOrMake_eligible eligible conn
    have same : after = t.update eldest.key (·.couple requester conn) := updated
    refine ⟨eldest, first, matched, ?_, ?_⟩
    · rw [same]
      rfl
    · intro key
      rw [same, t.get?_update eldest.key (·.couple requester conn) fun _ =>
        rfl, dated.sound.get? first.mem]
      rfl
  · intro without
    have result := matchOrMake_ineligible without conn
    have crowded : t.Crowded ↔
        (t.isFull || Key.sequenceLimit ≤ t.nextNumber requester.proc) = true := by
      rw [dated.sound.crowded_iff, ← sequenceLimit_le_nextNumber t requester.proc]
      simp
    constructor
    · intro full
      rw [if_pos (crowded.mp full)] at result
      exact ⟨congrArg Prod.fst result, congrArg Prod.snd result⟩
    · intro room
      rw [if_neg fun full => room (crowded.mpr full)] at result
      have made : outcome = .created (t.newOffer name wanted requester conn).key wanted :=
        congrArg Prod.fst result
      have issued : t.issue? (.matchOrMake name wanted requester conn) =
          some ⟨(t.newOffer name wanted requester conn).key, requester⟩ := by
        simp only [issue?, result]
      obtain ⟨unused, proper, absent⟩ := fresh_issue issued
      have serial : t.serial = history.length := by
        rw [(chronicled_run capacity ops).counted, List.length_map]
      refine ⟨_, unused, proper, absent, made, ?_⟩
      intro other
      rw [get?_append_new absent (congrArg (·.2.records) result), newOffer, serial]
      rfl

/-- Two offers wait for one processor in a full table, the older one after it was taken up, used and
left again. A request to anyone takes up the older one, and a request for another name finds no
room. -/
theorem request_takes_eldest_or_offers_crowded :
    let name : Name := ⟨"X", by decide⟩
    let other : Name := ⟨"Y", by decide⟩
    let first : Identity := ⟨2001, 0, 0⟩
    let second : Identity := ⟨2002, 0, 0⟩
    let requester : Identity := ⟨2003, 0, 0⟩
    let key : Key := .compose 2001 0
    let ops : List Operation :=
      [.matchOrMake name requester first ⟨1⟩, .matchOrMake name first requester ⟨3⟩,
      .amend key (.assign [7]), .retract key requester, .matchOrMake name requester second ⟨2⟩]
    let t := (new (some 2)).performAll ops
    let history := ((new (some 2)).issues ops).map (·.key)
    (∃ r ∈ t.records, r.Eligible name .general requester) ∧ t.Crowded ∧
      (∃ eldest, t.Eldest history (Record.Eligible name .general requester)
        eldest ∧ eldest.key = key ∧
        (t.matchOrMake name .general requester ⟨4⟩).1 = .matched key first) ∧
      (∀ r ∈ t.records, ¬ r.Eligible other .general requester) ∧
      (t.matchOrMake other .general requester ⟨4⟩).1 = .full := by
  intro name other first second requester key ops t history
  have eligible : ∃ r ∈ t.records, r.Eligible name .general requester := by
    have found : ∃ r ∈ t.records,
        (r.isPending && r.name == name && r.fits .general requester) = true := by
      decide +kernel
    obtain ⟨r, mem, fits⟩ := found
    exact ⟨r, mem, (Record.eligible_iff r).mp fits⟩
  have crowded : t.Crowded := .inl ⟨2, by decide +kernel, by decide +kernel⟩
  have none : ∀ r ∈ t.records, ¬ r.Eligible other .general requester :=
    (oldest?_eq_none_iff Record.eligible_iff).mp (by decide +kernel)
  obtain ⟨eldest, isEldest, taken, -⟩ :=
    (request_takes_eldest_or_offers (some 2) ops name .general requester ⟨4⟩).1 eligible
  have told : (t.matchOrMake name .general requester ⟨4⟩).1 = .matched key first := by
    decide +kernel
  obtain ⟨same, -⟩ := MatchOutcome.matched.inj (told.symm.trans taken)
  refine ⟨eligible, crowded, ⟨eldest, isEldest, same.symm, told⟩, none, ?_⟩
  have refused :=
    ((request_takes_eldest_or_offers (some 2) ops other .general requester ⟨4⟩).2 none).1
  exact (refused crowded).1

end Table
end SharedVariables
