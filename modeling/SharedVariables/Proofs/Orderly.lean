import SharedVariables.Proofs.Fate
import SharedVariables.Proofs.Reuse

/-! The order that every operation leaves behind it. The serial of a record counts the offers that
were recorded before its own, so the log of what was created tells the records apart, and their
ages. -/
namespace SharedVariables

namespace Record

variable {r : Record}

theorem Shared.amend (shared : r.Shared) (a : Amendment) : (r.amend a).Shared := by
  refine shared.of_sameSides (r.sameSides_amend a) fun before => ?_
  cases a with
  | report used side =>
    rw [Record.amend, state_report]
    exact nextState_ne_notShared before used side
  | restrain side mask => simpa [Record.amend, setControl] using before
  | alert side events => simpa [Record.amend, Record.addEvents] using before
  | assign payload => exact before

theorem Shared.alerted (shared : r.Shared) (id : Identity) (events : Events) :
    (r.alerted id events).Shared := by
  unfold Record.alerted
  split
  · exact shared.amend (.alert _ events)
  · exact shared

end Record

namespace Table

variable {t : Table} {op : Operation} {log : List Issue}

theorem shared_of_fate {r s : Record} (shared : r.Shared) (left : t.fate op r = some s) :
    s.Shared := by
  apply of_fate left shared
  case couple => exact r.shared_couple
  case release => exact r.shared_release
  case remains =>
    intro conn stays
    rcases Record.remains_cases stays with rfl | ⟨-, side, inactive⟩
    · exact shared
    · exact Record.shared_of_inactive side inactive
  case alerted => exact shared.alerted
  case clear => exact fun id => shared.of_sameSides (r.sameSides_clear id) fun before => before
  case amend => exact shared.amend

theorem issue?_createOffer (t : Table) (name : Name) (wanted offerer : Identity) (conn : ConnId) :
    (t.createOffer name wanted offerer conn).1.map (⟨·, offerer⟩) =
      (t.offer? name wanted offerer conn).map fun r => (⟨r.key, r.offering.id⟩ : Issue) := by
  rw [createOffer_eq, offer?]
  split
  · rfl
  · rfl

/-- A key is given out to the record that joins the others, and to no other. -/
theorem issue?_eq (t : Table) (op : Operation) :
    t.issue? op = (t.newcomer? op).map fun r => ⟨r.key, r.offering.id⟩ := by
  cases op with
  | matchOrMake name wanted requester conn =>
    cases pending : t.pendingOffer? name wanted requester with
    | some r => simp [issue?, newcomer?, Table.matchOrMake, pending]
    | none =>
      simp only [issue?, newcomer?, Table.matchOrMake, pending, if_true, ← issue?_createOffer]
      rcases t.createOffer name wanted requester conn with ⟨_ | key, s⟩ <;> rfl
  | createOffer name wanted offerer conn => exact t.issue?_createOffer name wanted offerer conn
  | retract | disconnect | reap | addEvents | clearEvents | amend => rfl

theorem serial_createOffer (t : Table) (name : Name) (wanted offerer : Identity) (conn : ConnId) :
    (t.createOffer name wanted offerer conn).2.capacity = t.capacity ∧
      (t.createOffer name wanted offerer conn).2.serial =
        t.serial + (t.offer? name wanted offerer conn).toList.length := by
  rw [createOffer_eq, offer?]
  split
  · exact ⟨rfl, rfl⟩
  · exact ⟨rfl, rfl⟩

theorem serial_perform (t : Table) (op : Operation) :
    (t.perform op).capacity = t.capacity ∧
      (t.perform op).serial = t.serial + (t.newcomer? op).toList.length := by
  cases op with
  | matchOrMake name wanted requester conn =>
    have offered := t.serial_createOffer name wanted requester conn
    cases pending : t.pendingOffer? name wanted requester with
    | some r => simp [perform, newcomer?, Table.matchOrMake, pending, update]
    | none =>
      simp only [perform, newcomer?, Table.matchOrMake, pending, if_true]
      rcases made : t.createOffer name wanted requester conn with ⟨_ | key, s⟩
      all_goals
        rw [made] at offered
        exact offered
  | createOffer name wanted offerer conn => exact t.serial_createOffer name wanted offerer conn
  | retract key caller =>
    simp only [perform, Table.retract]
    split
    · exact ⟨rfl, rfl⟩
    · split <;> exact ⟨rfl, rfl⟩
  | addEvents key id events =>
    simp only [perform, Table.addEvents]
    split <;> exact ⟨rfl, rfl⟩
  | disconnect | reap | clearEvents | amend => exact ⟨rfl, rfl⟩

theorem size_lt_of_not_full {bound : Nat} (room : t.isFull = false)
    (limited : t.capacity = some bound) :
    t.size < bound := by
  simpa [isFull, limited] using room

/-- What the operations keep, beyond the soundness of the table, while the log grows with each new
record. -/
structure Chronicled (log : List Issue) (t : Table) : Prop where
  sound : t.Sound
  counted : t.serial = log.length
  created : ∀ r ∈ t.records, log[r.serial]? = some ⟨r.key, r.offering.id⟩
  shared : ∀ r ∈ t.records, r.Shared
  roomy : ∀ bound, t.capacity = some bound → t.size ≤ bound

theorem chronicled_new (capacity : Option Nat) : (new capacity).Chronicled [] where
  sound := sound_new capacity
  counted := rfl
  created := by simp [new]
  shared := by simp [new]
  roomy := by simp [new, size]

theorem Chronicled.perform (kept : t.Chronicled log) (op : Operation) :
    (t.perform op).Chronicled (log ++ (t.issue? op).toList) := by
  obtain ⟨capacity, serial⟩ := t.serial_perform op
  refine ⟨kept.sound.perform op, ?_, ?_, ?_, ?_⟩
  · rw [serial, kept.counted, issue?_eq]
    cases t.newcomer? op <;> simp
  · intro s mem
    rcases (mem_perform kept.sound).mp mem with ⟨r, old, left⟩ | new
    · have origin := sameOrigin_of_fate left
      have before := kept.created r old
      rw [origin.serial, origin.key, origin.offerer,
        List.getElem?_append_left (List.getElem?_eq_some_iff.mp before).1]
      exact before
    · obtain ⟨-, name, wanted, offerer, conn, rfl⟩ := newcomer?_eq_some new
      have last : (t.newOffer name wanted offerer conn).serial = log.length := kept.counted
      rw [last, issue?_eq, new]
      simp
  · intro s mem
    rcases (mem_perform kept.sound).mp mem with ⟨r, old, left⟩ | new
    · exact shared_of_fate (kept.shared r old) left
    · obtain ⟨-, name, wanted, offerer, conn, rfl⟩ := newcomer?_eq_some new
      exact Record.shared_of_inactive .accepting rfl
  · intro bound limited
    rw [capacity] at limited
    have before := kept.roomy bound limited
    have fewer := List.length_filterMap_le (t.fate op) t.records
    rw [size, records_perform kept.sound, List.length_append]
    cases new : t.newcomer? op with
    | none =>
      simp only [Option.toList_none, List.length_nil]
      exact Nat.le_trans fewer before
    | some s =>
      have room := size_lt_of_not_full (newcomer?_eq_some new).1 limited
      simp only [size] at room
      simp only [Option.toList_some, List.length_singleton]
      omega

theorem Chronicled.performAll (kept : t.Chronicled log) (ops : List Operation) :
    (t.performAll ops).Chronicled (log ++ t.issues ops) := by
  induction ops generalizing t log with
  | nil => simpa [Table.performAll, issues] using kept
  | cons op later ih =>
    have run := ih (kept.perform op)
    rw [List.append_assoc] at run
    exact run

theorem chronicled_run (capacity : Option Nat) (ops : List Operation) :
    ((new capacity).performAll ops).Chronicled ((new capacity).issues ops) := by
  simpa using (chronicled_new capacity).performAll ops

/-- Records of one age are one record, since the log has one entry for each age. -/
theorem Chronicled.eq_of_serial (kept : t.Chronicled log) {r s : Record} (one : r ∈ t.records)
    (other : s ∈ t.records) (same : r.serial = s.serial) : r = s := by
  have first := kept.created r one
  have second := kept.created s other
  rw [same, second] at first
  have key : s.key = r.key := congrArg Issue.key (Option.some.inj first)
  exact kept.sound.eq_of_key one other key.symm

theorem Chronicled.nodup_serials (kept : t.Chronicled log) : (t.records.map (·.serial)).Nodup := by
  have distinct := kept.sound.distinct
  rw [List.Nodup, List.pairwise_map] at distinct ⊢
  refine distinct.imp_of_mem ?_
  intro r s one other apart same
  exact apart (congrArg Record.key (kept.eq_of_serial one other same))

theorem Sound.get?_iff (sound : t.Sound) {key : Key} {r : Record} :
    t.get? key = some r ↔ r ∈ t.records ∧ r.key = key := by
  constructor
  · intro found
    exact ⟨mem_of_get? found, by simpa using List.find?_some found⟩
  · rintro ⟨mem, rfl⟩
    exact sound.get? mem

theorem Sound.reap (sound : t.Sound) : t.reap = (0, t) := by
  have live : (t.records.filter fun r => decide (r.coupling ≠ .uncoupled)) = t.records := by
    rw [List.filter_eq_self]
    intro r mem
    simpa using (sound.records r mem).attended
  simp only [Table.reap, live, size, Nat.sub_self]

/-- What holds of a table with room for `capacity` records after every operation; `log` tells who
was given a key for a new offer so far, and which. -/
structure Orderly (capacity : Option Nat) (log : List Issue) (t : Table) : Prop where
  stored : ∀ key r, t.get? key = some r ↔ r ∈ t.records ∧ r.key = key
  keyed : ∀ r ∈ t.records, r.key ≠ .null
  serials : (t.records.map (·.serial)).Nodup
  below : ∀ r ∈ t.records, r.serial < t.serial
  counted : t.serial = log.length
  /-- A serial is the place of the record's creation among all creations. -/
  created : ∀ r ∈ t.records, log[r.serial]? = some ⟨r.key, r.offering.id⟩
  roomy : ∀ bound, capacity = some bound → t.size ≤ bound
  attended : ∀ r ∈ t.records, ∃ side, (r.partner side).isActive = true
  reaped : t.reap = (0, t)
  shared : ∀ r ∈ t.records, r.coupling = .coupled → r.state ≠ .notShared
  apart : ∀ r ∈ t.records, r.accepting.isActive = true → r.offering.id ≠ r.accepting.id

theorem capacity_performAll (t : Table) (ops : List Operation) :
    (t.performAll ops).capacity = t.capacity := by
  induction ops generalizing t with
  | nil => rfl
  | cons op later ih => exact (ih (t.perform op)).trans (t.serial_perform op).1

/-- Whatever is done to a table, and however often, leaves it orderly. -/
theorem run_orderly (capacity : Option Nat) (ops : List Operation) :
    ((new capacity).performAll ops).Orderly capacity ((new capacity).issues ops) := by
  have kept := chronicled_run capacity ops
  have supply := supply_performAll (new capacity) ops
  refine ⟨fun key r =>
    kept.sound.get?_iff, ?_, kept.nodup_serials, ?_, kept.counted, kept.created, ?_, ?_,
    kept.sound.reap, kept.shared, fun r mem => (kept.sound.records r mem).apart⟩
  · intro r mem
    exact supply.key_ne_null (List.mem_of_getElem? (kept.created r mem))
  · intro r mem
    rw [kept.counted]
    exact (List.getElem?_eq_some_iff.mp (kept.created r mem)).1
  · intro bound limited
    exact kept.roomy bound ((capacity_performAll _ ops).trans limited)
  · intro r mem
    refine Classical.byContradiction fun none => (kept.sound.records r mem).attended ?_
    rw [Record.coupling_eq_uncoupled]
    intro side
    exact Bool.eq_false_iff.mpr fun active => none ⟨side, active⟩

end Table
end SharedVariables
