import SharedVariables.Proofs.Meeting

/-! The order in which the records of a table are kept. It is nobody's affair: a record is found by
its key, and where several would do, by its age, and no two records have the same. -/
namespace SharedVariables

theorem Events.union_right_comm (e f g : Events) : (e ∪ f) ∪ g = (e ∪ g) ∪ f := by
  cases e
  cases f
  cases g
  simp [Union.union, Bool.or_right_comm]

namespace Table

/-- The same records, listed in whatever order. -/
structure Alike (t u : Table) : Prop where
  records : t.records.Perm u.records
  capacity : t.capacity = u.capacity
  sequence : t.sequence = u.sequence
  serial : t.serial = u.serial

variable {t u v : Table} {log : List Issue}

theorem Alike.refl (t : Table) : t.Alike t := ⟨.refl _, rfl, rfl, rfl⟩

theorem Alike.symm (alike : t.Alike u) : u.Alike t :=
  ⟨alike.records.symm, alike.capacity.symm, alike.sequence.symm, alike.serial.symm⟩

theorem Alike.trans (first : t.Alike u) (second : u.Alike v) : t.Alike v :=
  ⟨first.records.trans second.records, first.capacity.trans second.capacity,
    first.sequence.trans second.sequence,
    first.serial.trans second.serial⟩

theorem Alike.size (alike : t.Alike u) : t.size = u.size := alike.records.length_eq

theorem Alike.isFull (alike : t.Alike u) : t.isFull = u.isFull := by
  rw [Table.isFull, Table.isFull, alike.capacity, alike.size]

theorem Sound.alike (sound : t.Sound) (alike : t.Alike u) : u.Sound where
  distinct := (alike.records.map (·.key)).nodup_iff.mp sound.distinct
  issued := by
    intro r mem
    obtain ⟨proc, n, below, key⟩ := sound.issued r (alike.records.mem_iff.mpr mem)
    exact ⟨proc, n, alike.sequence ▸ below, key⟩
  bounded := alike.sequence ▸ sound.bounded
  records := fun r mem => sound.records r (alike.records.mem_iff.mpr mem)

theorem Chronicled.alike (kept : t.Chronicled log) (alike : t.Alike u) : u.Chronicled log where
  sound := kept.sound.alike alike
  counted := alike.serial ▸ kept.counted
  created := fun r mem => kept.created r (alike.records.mem_iff.mpr mem)
  shared := fun r mem => kept.shared r (alike.records.mem_iff.mpr mem)
  roomy := by
    intro bound limited
    rw [← alike.size]
    exact kept.roomy bound (alike.capacity.trans limited)

theorem Sound.get?_alike (sound : t.Sound) (alike : t.Alike u) (key : Key) :
    t.get? key = u.get? key := by
  ext r
  rw [sound.get?_iff, (sound.alike alike).get?_iff, alike.records.mem_iff]

/-- Age decides, and no two records are of one age. -/
theorem Chronicled.oldest?_alike (kept : t.Chronicled log) (alike : t.Alike u) (p : Record → Bool) :
    t.oldest? p = u.oldest? p := by
  have older : ∀ {t u : Table}, t.Chronicled log → t.Alike u → ∀ {r}, t.oldest? p = some r →
      u.oldest? p = some r := by
    intro t u kept alike r found
    obtain ⟨mem, fits⟩ := oldestIn_some found
    obtain ⟨s, again, least⟩ := oldestIn_least (alike.records.mem_iff.mp mem) fits
    obtain ⟨other, also⟩ := oldestIn_some again
    have also_mem := alike.records.mem_iff.mpr other
    have le := oldestIn_le found also_mem also
    have same := kept.eq_of_serial mem also_mem (by omega)
    rw [same]
    exact again
  ext r
  exact ⟨older kept alike, older (kept.alike alike) alike.symm⟩

theorem pairwise_byAge (t : Table) : t.byAge.Pairwise fun r s => r.serial ≤ s.serial := by
  have ordered : t.byAge.Pairwise fun r s => decide (r.serial ≤ s.serial) = true := by
    apply List.pairwise_mergeSort
    · intro a b c first second
      simp only [decide_eq_true_eq] at first second ⊢
      omega
    · intro a b
      simp only [Bool.or_eq_true, decide_eq_true_eq]
      omega
  exact ordered.imp fun le => of_decide_eq_true le

theorem Chronicled.byAge_alike (kept : t.Chronicled log) (alike : t.Alike u) :
    t.byAge = u.byAge := by
  have same : t.byAge.Perm u.byAge :=
    (List.mergeSort_perm _ _).trans (alike.records.trans (List.mergeSort_perm _ _).symm)
  refine same.eq_of_pairwise ?_ t.pairwise_byAge u.pairwise_byAge
  intro r s one other le ge
  have mem := List.mem_mergeSort.mp one
  have also := alike.records.mem_iff.mpr (List.mem_mergeSort.mp other)
  exact kept.eq_of_serial mem also (by omega)

theorem Alike.update (alike : t.Alike u) (key : Key) (f : Record → Record) :
    (t.update key f).Alike (u.update key f) :=
  ⟨alike.records.map _, alike.capacity, alike.sequence, alike.serial⟩

theorem Alike.erase (alike : t.Alike u) (key : Key) : (t.erase key).Alike (u.erase key) :=
  ⟨alike.records.filter _, alike.capacity, alike.sequence, alike.serial⟩

theorem Alike.nextNumber (alike : t.Alike u) (proc : UInt32) :
    t.nextNumber proc = u.nextNumber proc := by
  rw [Table.nextNumber, Table.nextNumber, alike.sequence]

theorem Alike.newOffer (alike : t.Alike u) (name : Name) (wanted offerer : Identity)
    (conn : ConnId) :
    t.newOffer name wanted offerer conn = u.newOffer name wanted offerer conn := by
  rw [Table.newOffer, Table.newOffer, alike.nextNumber, alike.serial]

/-- The same answer, and tables that are alike. -/
def SameResult {α : Type} (x y : α × Table) : Prop := x.1 = y.1 ∧ x.2.Alike y.2

/-- The same refusal, or results that correspond. -/
inductive SameOutcome {α : Type} (Same : α → α → Prop) :
    Except Fault α → Except Fault α → Prop where
  | refused (fault : Fault) : SameOutcome Same (.error fault) (.error fault)
  | done {x y : α} (same : Same x y) : SameOutcome Same (.ok x) (.ok y)

theorem Alike.createOffer (alike : t.Alike u) (name : Name) (wanted offerer : Identity)
    (conn : ConnId) :
    SameResult (t.createOffer name wanted offerer conn)
      (u.createOffer name wanted offerer conn) := by
  rw [createOffer_eq, createOffer_eq, alike.isFull, alike.nextNumber, alike.newOffer]
  split
  · exact ⟨rfl, alike⟩
  · exact ⟨rfl, alike.records.append_right _, alike.capacity, rfl, congrArg (· + 1) alike.serial⟩

theorem Chronicled.matchOrMake_alike (kept : t.Chronicled log) (alike : t.Alike u) (name : Name)
    (wanted requester : Identity) (conn : ConnId) :
    SameResult (t.matchOrMake name wanted requester conn)
      (u.matchOrMake name wanted requester conn) := by
  have pending : t.pendingOffer? name wanted requester = u.pendingOffer? name wanted requester :=
    kept.oldest?_alike alike _
  have offered := alike.createOffer name wanted requester conn
  unfold Table.matchOrMake
  rw [pending]
  split
  · exact ⟨rfl, alike.update _ _⟩
  · generalize t.createOffer name wanted requester conn = x at offered
    generalize u.createOffer name wanted requester conn = y at offered
    obtain ⟨first, v⟩ := x
    obtain ⟨second, w⟩ := y
    obtain ⟨same, left⟩ := offered
    obtain rfl : first = second := same
    cases first <;> exact ⟨rfl, left⟩

theorem Sound.partnerOf_alike (sound : t.Sound) (alike : t.Alike u) (key : Key)
    (caller : Identity) :
    t.partnerOf key caller = u.partnerOf key caller := by
  rw [Table.partnerOf, Table.partnerOf, sound.get?_alike alike]

theorem Sound.activePartnerOf_alike (sound : t.Sound) (alike : t.Alike u) (key : Key)
    (caller : Identity) :
    t.activePartnerOf key caller = u.activePartnerOf key caller := by
  rw [Table.activePartnerOf, Table.activePartnerOf, sound.partnerOf_alike alike]

theorem Sound.retract_alike (sound : t.Sound) (alike : t.Alike u) (key : Key) (caller : Identity) :
    SameOutcome SameResult (t.retract key caller) (u.retract key caller) := by
  unfold Table.retract
  rw [sound.activePartnerOf_alike alike]
  split
  · exact .refused _
  · simp only
    split
    · exact .done ⟨rfl, alike.erase key⟩
    · exact .done ⟨rfl, alike.update key _⟩

theorem Alike.disconnect (alike : t.Alike u) (conn : ConnId) :
    (t.disconnect conn).1.Perm (u.disconnect conn).1 ∧
      (t.disconnect conn).2.Alike (u.disconnect conn).2 := by
  have left := alike.records.map (·.releaseHeld conn)
  exact ⟨left.flatMap_right _, (left.map _).filter _, alike.capacity, alike.sequence, alike.serial⟩

theorem Alike.clearEvents (alike : t.Alike u) (id : Identity) :
    SameResult (t.clearEvents id) (u.clearEvents id) := by
  constructor
  · apply alike.records.foldl_eq'
    intro r _ s _ e
    exact Events.union_right_comm e _ _
  · exact ⟨alike.records.map _, alike.capacity, alike.sequence, alike.serial⟩

theorem Sound.addEvents_alike (sound : t.Sound) (alike : t.Alike u) (key : Key) (id : Identity)
    (e : Events) :
    SameOutcome Alike (t.addEvents key id e) (u.addEvents key id e) := by
  unfold Table.addEvents
  rw [sound.partnerOf_alike alike]
  split
  · exact .refused _
  · exact .done (alike.update key _)

theorem Chronicled.perform_alike (kept : t.Chronicled log) (alike : t.Alike u) (op : Operation) :
    (t.perform op).Alike (u.perform op) := by
  cases op with
  | matchOrMake name wanted requester conn =>
    exact (kept.matchOrMake_alike alike name wanted requester conn).2
  | createOffer name wanted offerer conn => exact (alike.createOffer name wanted offerer conn).2
  | retract key caller =>
    have outcome := kept.sound.retract_alike alike key caller
    simp only [Table.perform]
    generalize t.retract key caller = x at outcome
    generalize u.retract key caller = y at outcome
    cases outcome with
    | refused => exact alike
    | done same => exact same.2
  | disconnect conn => exact (alike.disconnect conn).2
  | reap => exact ⟨alike.records.filter _, alike.capacity, alike.sequence, alike.serial⟩
  | addEvents key id events =>
    have outcome := kept.sound.addEvents_alike alike key id events
    simp only [Table.perform]
    generalize t.addEvents key id events = x at outcome
    generalize u.addEvents key id events = y at outcome
    cases outcome with
    | refused => exact alike
    | done same => exact same
  | clearEvents id => exact (alike.clearEvents id).2
  | amend key amendment => exact alike.update key _

theorem Chronicled.events?_alike (kept : t.Chronicled log) (alike : t.Alike u) (id : Identity) :
    t.events? id = u.events? id := by
  rw [events?, events?, kept.oldest?_alike alike]

theorem Chronicled.pairingKey?_alike (kept : t.Chronicled log) (alike : t.Alike u) (key : Key) :
    t.pairingKey? key = u.pairingKey? key := by
  simp only [pairingKey?, kept.sound.get?_alike alike, kept.oldest?_alike alike]

theorem Chronicled.offeringProcessors_alike (kept : t.Chronicled log) (alike : t.Alike u)
    (target : Identity) :
    t.offeringProcessors target = u.offeringProcessors target := by
  rw [offeringProcessors, offeringProcessors, kept.byAge_alike alike]

theorem Chronicled.offeredVariables_alike (kept : t.Chronicled log) (alike : t.Alike u)
    (target offerer : Identity) :
    t.offeredVariables target offerer = u.offeredVariables target offerer := by
  rw [offeredVariables, offeredVariables, kept.byAge_alike alike]

theorem Chronicled.snapshot_alike (kept : t.Chronicled log) (alike : t.Alike u) :
    t.snapshot = u.snapshot := by
  rw [snapshot, snapshot, kept.byAge_alike alike]

/-- Two tables cannot be told apart by what they answer, nor by what is left of them after any
operation. -/
structure SameAnswers (t u : Table) : Prop where
  pendingOffer? : ∀ name wanted requester,
    t.pendingOffer? name wanted requester = u.pendingOffer? name wanted requester
  matchOrMake : ∀ name wanted requester conn,
    (t.matchOrMake name wanted requester conn).1 = (u.matchOrMake name wanted requester conn).1
  events? : ∀ id, t.events? id = u.events? id
  pairingKey? : ∀ key, t.pairingKey? key = u.pairingKey? key
  offeringProcessors : ∀ target, t.offeringProcessors target = u.offeringProcessors target
  offeredVariables : ∀ target offerer,
    t.offeredVariables target offerer = u.offeredVariables target offerer
  byAge : t.byAge = u.byAge
  snapshot : t.snapshot = u.snapshot
  clearEvents : ∀ id, (t.clearEvents id).1 = (u.clearEvents id).1
  releases : ∀ conn, (t.disconnect conn).1.Perm (u.disconnect conn).1
  left : ∀ op, (t.perform op).Alike (u.perform op)

theorem Chronicled.sameAnswers (kept : t.Chronicled log) (alike : t.Alike u) : t.SameAnswers u where
  pendingOffer? _ _ _ := kept.oldest?_alike alike _
  matchOrMake name wanted requester conn :=
    (kept.matchOrMake_alike alike name wanted requester conn).1
  events? := kept.events?_alike alike
  pairingKey? := kept.pairingKey?_alike alike
  offeringProcessors := kept.offeringProcessors_alike alike
  offeredVariables := kept.offeredVariables_alike alike
  byAge := kept.byAge_alike alike
  snapshot := kept.snapshot_alike alike
  clearEvents id := (alike.clearEvents id).1
  releases conn := (alike.disconnect conn).1
  left := kept.perform_alike alike

end Table
end SharedVariables
