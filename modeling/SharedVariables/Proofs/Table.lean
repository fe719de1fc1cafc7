import SharedVariables.Proofs.Lookup
import SharedVariables.Table.Matching
import SharedVariables.Table.Query
import SharedVariables.Table.Release

/-! Where the records of a table come from after each of its operations. -/
namespace SharedVariables

namespace Key

theorem toNat_compose (proc : UInt32) {n : Nat} (small : n < sequenceLimit) :
    (compose proc n).bits.toNat = n / 65536 * 281474976710656 + proc.toNat * 65536 + n % 65536 := by
  have bound := proc.toNat_lt
  simp only [sequenceLimit] at small
  simp only [compose, UInt64.toNat_ofNat']
  omega

theorem isNull_compose (proc : UInt32) {n : Nat} (small : n < sequenceLimit) :
    (compose proc n).isNull = true ↔ proc = 0 ∧ n = 0 := by
  have bits := toNat_compose proc small
  have zero : (0 : UInt64).toNat = 0 := rfl
  rw [isNull, beq_iff_eq, ← UInt64.toNat_inj, bits, zero, ← UInt32.toNat_inj]
  have none : (0 : UInt32).toNat = 0 := rfl
  omega

end Key

namespace Record

@[simp] theorem partner_modify (r : Record) (f : Partner → Partner) (side other : Side) :
    (r.modify f side).partner other = if other = side then f (r.partner other) else
      r.partner other := by
  cases side <;> cases other <;> rfl

theorem partner_release (r : Record) (side other : Side) :
    (r.release side).partner other =
      if other = side then (r.partner other).deactivate
      else if (r.partner other).isActive then (r.partner other).addEvents .retracted else
        r.partner other := by
  cases offerer : r.offering.isActive <;> cases acceptor : r.accepting.isActive <;>
    cases side <;> cases other <;>
    simp [release, modify, partner, Side.other, offerer, acceptor]

/-- What holds of an inactive side and is kept by new events survives a release. -/
theorem partner_release_of {P : Partner → Prop} (r : Record) (side other : Side)
    (inactive : ∀ p : Partner, P p.deactivate) (told : ∀ p e, P p → P (p.addEvents e))
    (old : P (r.partner other)) :
    P ((r.release side).partner other) := by
  rw [partner_release]
  split
  · exact inactive _
  · split
    · exact told _ _ old
    · exact old

@[simp] theorem conn_release (r : Record) (side other : Side) :
    ((r.release side).partner other).conn = if other = side then none else
      (r.partner other).conn := by
  rw [partner_release]
  cases (r.partner other).isActive <;> by_cases same : other = side <;>
    simp [same, Partner.deactivate, Partner.addEvents]

/-- The offering side leaves first, and then the accepting side if it is held over the same
connection. -/
theorem releaseHeld_record (r : Record) (conn : ConnId) :
    (r.releaseHeld conn).2 =
      let first := if (r.partner .offering).conn = some conn then r.release .offering else r
      if (r.partner .accepting).conn = some conn then first.release .accepting else first := by
  simp only [releaseHeld, Side.both, List.foldl_cons, List.foldl_nil]
  by_cases first : (r.partner .offering).conn = some conn
  · by_cases second : (r.partner .accepting).conn = some conn <;> simp [first, second]
  · by_cases second : (r.partner .accepting).conn = some conn <;> simp [first, second]

@[simp] theorem value_modify (r : Record) (f : Partner → Partner) (side : Side) :
    (r.modify f side).value = r.value := by
  cases side <;> rfl

@[simp] theorem value_release (r : Record) (side : Side) : (r.release side).value = r.value := by
  unfold release
  simp only
  split <;> simp

@[simp] theorem value_releaseHeld (r : Record) (conn : ConnId) :
    (r.releaseHeld conn).2.value = r.value := by
  rw [releaseHeld_record]
  simp only
  split <;> split <;> simp

@[simp] theorem value_report (r : Record) (used : Bool) (side : Side) :
    (r.report used side).value = r.value := by
  unfold report
  simp only
  split
  · split <;> simp
  · simp

@[simp] theorem value_setControl (r : Record) (side : Side) (mask : Mask) :
    (r.setControl side mask).value = r.value := by
  simp [setControl]

@[simp] theorem value_addEvents (r : Record) (side : Side) (e : Events) :
    (r.addEvents side e).value = r.value := by
  simp [addEvents]

theorem sideOf?_eq_some {r : Record} {id : Identity} {side : Side}
    (plays : r.sideOf? id = some side) :
    (r.partner side).id = id := by
  unfold sideOf? at plays
  split at plays
  · rename_i offerer
    obtain rfl := Option.some.inj plays
    exact offerer
  · split at plays
    · rename_i acceptor
      obtain rfl := Option.some.inj plays
      exact acceptor
    · simp at plays

end Record

namespace Table

theorem mem_of_get? {t : Table} {key : Key} {r : Record} (found : t.get? key = some r) :
    r ∈ t.records :=
  List.mem_of_find?_eq_some found

theorem mem_update {t : Table} {key : Key} {f : Record → Record} {r : Record} :
    r ∈ (t.update key f).records ↔
      (r ∈ t.records ∧ r.key ≠ key) ∨ ∃ s ∈ t.records, s.key = key ∧ r = f s := by
  simp only [update, List.mem_map]
  constructor
  · rintro ⟨s, old, rfl⟩
    by_cases here : s.key = key
    · exact .inr ⟨s, old, here, by simp [here]⟩
    · exact .inl (by simpa [here] using old)
  · rintro (⟨old, elsewhere⟩ | ⟨s, old, here, rfl⟩)
    · exact ⟨r, old, by simp [elsewhere]⟩
    · exact ⟨s, old, by simp [here]⟩

theorem get?_update (t : Table) (key : Key) (f : Record → Record) (keeps : ∀ r, (f r).key = r.key)
    (other : Key) :
    (t.update key f).get? other = if other = key then (t.get? key).map f else t.get? other :=
  Lookup.find_change Record.key t.records key f (fun r here => (keeps r).trans here) other

theorem get?_erase (t : Table) (key other : Key) :
    (t.erase key).get? other = if other = key then none else t.get? other :=
  Lookup.find_strike Record.key t.records key other

theorem partnerOf_ok {t : Table} {key : Key} {id : Identity} {r : Record} {side : Side}
    (found : t.partnerOf key id = .ok (r, side)) :
    t.get? key = some r ∧ (r.partner side).id = id := by
  unfold partnerOf at found
  split at found
  · simp at found
  · rename_i here
    split at found
    · simp at found
    · rename_i plays
      obtain ⟨rfl, rfl⟩ := Prod.mk.inj (Except.ok.inj found)
      exact ⟨here, Record.sideOf?_eq_some plays⟩

theorem activePartnerOf_ok {t : Table} {key : Key} {id : Identity} {r : Record} {side : Side}
    (found : t.activePartnerOf key id = .ok (r, side)) :
    t.get? key = some r ∧ (r.partner side).id = id ∧ (r.partner side).isActive = true := by
  unfold activePartnerOf at found
  split at found
  · simp at found
  · rename_i partner
    split at found
    · rename_i active
      obtain ⟨rfl, rfl⟩ := Prod.mk.inj (Except.ok.inj found)
      obtain ⟨here, plays⟩ := partnerOf_ok partner
      exact ⟨here, plays, active⟩
    · simp at found

/-- The running number that the next key of a processor takes. -/
def nextNumber (t : Table) (proc : UInt32) : Nat :=
  if proc = 0 ∧ t.sequence = 0 then 1 else t.sequence

theorem le_nextNumber (t : Table) (proc : UInt32) : t.sequence ≤ t.nextNumber proc := by
  unfold nextNumber
  split <;> omega

theorem nextKey_eq (t : Table) (proc : UInt32) :
    t.nextKey proc =
      if Key.sequenceLimit ≤ t.nextNumber proc then (none, t)
      else (some (.compose proc (t.nextNumber proc)),
        { t with sequence := t.nextNumber proc + 1 }) := by
  unfold nextKey drawKey nextNumber
  by_cases used : Key.sequenceLimit ≤ t.sequence
  · have started : t.sequence ≠ 0 := by
      intro none
      simp [none, Key.sequenceLimit] at used
    simp [used, started]
  · have null := Key.isNull_compose proc (Nat.lt_of_not_le used)
    by_cases skipped : proc = 0 ∧ t.sequence = 0
    · have passed : (Key.compose 0 0).isNull = true := rfl
      simp [skipped, passed, Key.sequenceLimit]
    · simp [used, null, skipped]

/-- The record of a new offer. -/
def newOffer (t : Table) (name : Name) (wanted offerer : Identity) (conn : ConnId) : Record :=
  { key := .compose offerer.proc (t.nextNumber offerer.proc), name
    offering := .active offerer conn
    accepting := { id := wanted, events := if wanted.isGeneral then ∅ else .made }
    serial := t.serial }

theorem createOffer_eq (t : Table) (name : Name) (wanted offerer : Identity) (conn : ConnId) :
    t.createOffer name wanted offerer conn =
      if t.isFull || Key.sequenceLimit ≤ t.nextNumber offerer.proc then (none, t)
      else
        (some (t.newOffer name wanted offerer conn).key,
          { t with
            records := t.records ++ [t.newOffer name wanted offerer conn]
            sequence := t.nextNumber offerer.proc + 1
            serial := t.serial + 1 }) := by
  rw [createOffer, nextKey_eq]
  by_cases full : t.isFull
  · simp [full]
  · by_cases used : Key.sequenceLimit ≤ t.nextNumber offerer.proc
    · simp [used]
    · simp [full, used, newOffer]

theorem createOffer_some {t s : Table} {name : Name} {wanted offerer : Identity} {conn : ConnId}
    {key : Key} (made : t.createOffer name wanted offerer conn = (some key, s)) :
    t.isFull = false ∧ t.nextNumber offerer.proc < Key.sequenceLimit ∧
      key = (t.newOffer name wanted offerer conn).key ∧
      s = { t with
        records := t.records ++ [t.newOffer name wanted offerer conn]
        sequence := t.nextNumber offerer.proc + 1
        serial := t.serial + 1 } := by
  rw [createOffer_eq] at made
  split at made
  · simp at made
  · rename_i room
    simp only [Bool.or_eq_true, not_or, decide_eq_true_eq, Nat.not_le, Bool.not_eq_true] at room
    obtain ⟨same, rfl⟩ := Prod.mk.inj made
    exact ⟨room.1, room.2, (Option.some.inj same).symm, rfl⟩

theorem createOffer_none {t s : Table} {name : Name} {wanted offerer : Identity} {conn : ConnId}
    (refused : t.createOffer name wanted offerer conn = (none, s)) : s = t := by
  rw [createOffer_eq] at refused
  split at refused
  · exact (Prod.mk.inj refused).2.symm
  · simp at refused

theorem sequenceLimit_le_nextNumber (t : Table) (proc : UInt32) :
    Key.sequenceLimit ≤ t.nextNumber proc ↔ Key.sequenceLimit ≤ t.sequence := by
  unfold nextNumber Key.sequenceLimit
  split <;> omega

theorem createOffer_eq_none_iff {t : Table} {name : Name} {wanted offerer : Identity}
    {conn : ConnId} :
    t.createOffer name wanted offerer conn = (none, t) ↔
      t.isFull = true ∨ Key.sequenceLimit ≤ t.sequence := by
  rw [createOffer_eq, ← sequenceLimit_le_nextNumber t offerer.proc]
  split
  · rename_i crowded
    simpa using crowded
  · rename_i room
    simpa using room

theorem matchOrMake_full {t s : Table} {name : Name} {wanted requester : Identity} {conn : ConnId}
    (refused : t.matchOrMake name wanted requester conn = (.full, s)) : s = t := by
  unfold matchOrMake at refused
  split at refused
  · simp at refused
  · split at refused
    · simp at refused
    · rename_i none
      obtain ⟨-, rfl⟩ := Prod.mk.inj refused
      exact createOffer_none none

theorem mem_matchOrMake {t s : Table} {name : Name} {wanted requester : Identity} {conn : ConnId}
    {outcome : MatchOutcome} {r : Record}
    (done : t.matchOrMake name wanted requester conn = (outcome, s)) (new : r ∈ s.records) :
    r ∈ t.records ∨ r = t.newOffer name wanted requester conn ∨ ∃ old ∈ t.records,
      r = old.couple requester conn := by
  unfold matchOrMake at done
  split at done
  · obtain ⟨-, rfl⟩ := Prod.mk.inj done
    rcases mem_update.mp new with ⟨kept, -⟩ | ⟨old, mem, -, rfl⟩
    · exact .inl kept
    · exact .inr (.inr ⟨old, mem, rfl⟩)
  · split at done
    · rename_i made
      obtain ⟨-, rfl⟩ := Prod.mk.inj done
      obtain ⟨-, -, -, rfl⟩ := createOffer_some made
      rcases List.mem_append.mp new with kept | added
      · exact .inl kept
      · exact .inr (.inl (List.mem_singleton.mp added))
    · rename_i refused
      obtain ⟨-, rfl⟩ := Prod.mk.inj done
      obtain rfl := createOffer_none refused
      exact .inl new

theorem mem_retract {t s : Table} {key : Key} {id : Identity} {release : Release} {r : Record}
    (done : t.retract key id = .ok (release, s)) (new : r ∈ s.records) :
    (r ∈ t.records ∧ r.key ≠ key) ∨ ∃ old ∈ t.records, ∃ first side,
      t.activePartnerOf key id = .ok (first, side) ∧
      old.key = key ∧ r = old.release side := by
  unfold retract at done
  split at done
  · simp at done
  · rename_i first side active
    simp only at done
    split at done
    · obtain ⟨-, rfl⟩ := Prod.mk.inj (Except.ok.inj done)
      simp only [erase, List.mem_filter, bne_iff_ne] at new
      exact .inl new
    · obtain ⟨-, rfl⟩ := Prod.mk.inj (Except.ok.inj done)
      rcases mem_update.mp new with kept | ⟨old, mem, here, rfl⟩
      · exact .inl kept
      · exact .inr ⟨old, mem, first, side, active, here, rfl⟩

theorem mem_disconnect {t : Table} {conn : ConnId} {r : Record}
    (new : r ∈ (t.disconnect conn).2.records) :
    ∃ old ∈ t.records, r = (old.releaseHeld conn).2 := by
  simp only [disconnect, reap, List.mem_filter, List.mem_map] at new
  obtain ⟨⟨-, ⟨old, mem, rfl⟩, rfl⟩, -⟩ := new
  exact ⟨old, mem, rfl⟩

theorem mem_clearEvents {t : Table} {id : Identity} {r : Record}
    (new : r ∈ (t.clearEvents id).2.records) :
    ∃ old ∈ t.records, r = old.clear id := by
  simp only [clearEvents, List.mem_map] at new
  obtain ⟨old, mem, rfl⟩ := new
  exact ⟨old, mem, rfl⟩

theorem mem_addEvents {t s : Table} {key : Key} {id : Identity} {events : Events} {r : Record}
    (done : t.addEvents key id events = .ok s) (new : r ∈ s.records) :
    (r ∈ t.records ∧ r.key ≠ key) ∨ ∃ old ∈ t.records, ∃ first side,
      t.partnerOf key id = .ok (first, side) ∧
      old.key = key ∧ r = old.addEvents side events := by
  unfold addEvents at done
  split at done
  · simp at done
  · rename_i first side partner
    obtain rfl := Except.ok.inj done
    rcases mem_update.mp new with kept | ⟨old, mem, here, rfl⟩
    · exact .inl kept
    · exact .inr ⟨old, mem, first, side, partner, here, rfl⟩

end Table
end SharedVariables
