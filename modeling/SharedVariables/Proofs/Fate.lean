import SharedVariables.Proofs.KeySupply

/-! What an operation makes of each record of a table. Said once for all operations, so that what is
true of a run is told record by record: each is changed, kept or removed on its own, and at most one
new record joins them. -/
namespace SharedVariables

namespace Record

/-- The record once a caller has withdrawn; none when nobody is left. -/
def withdrawn (r : Record) (caller : Identity) : Option Record :=
  match r.activeSideOf? caller with
  | some side => Option.guard (fun s => decide (s.coupling ≠ .uncoupled)) (r.release side)
  | none => some r

/-- The record with events for the side that an identity plays. -/
def alerted (r : Record) (id : Identity) (events : Events) : Record :=
  match r.sideOf? id with
  | some side => r.addEvents side events
  | none => r

/-- What a record keeps from its creation to its end. -/
structure SameOrigin (r s : Record) : Prop where
  key : s.key = r.key
  name : s.name = r.name
  serial : s.serial = r.serial
  offerer : s.offering.id = r.offering.id

variable {r s u : Record}

theorem SameOrigin.refl (r : Record) : r.SameOrigin r := ⟨rfl, rfl, rfl, rfl⟩

theorem SameOrigin.trans (first : r.SameOrigin s) (second : s.SameOrigin u) : r.SameOrigin u :=
  ⟨second.key.trans first.key, second.name.trans first.name, second.serial.trans first.serial,
    second.offerer.trans first.offerer⟩

theorem sameOrigin_modify (r : Record) {f : Partner → Partner} (side : Side)
    (keeps : ∀ p, (f p).id = p.id) :
    r.SameOrigin (r.modify f side) := by
  cases side with
  | offering => exact ⟨rfl, rfl, rfl, keeps _⟩
  | accepting => exact ⟨rfl, rfl, rfl, rfl⟩

theorem sameOrigin_addEvents (r : Record) (side : Side) (e : Events) :
    r.SameOrigin (r.addEvents side e) :=
  r.sameOrigin_modify side fun _ => rfl

theorem sameOrigin_report (r : Record) (used : Bool) (side : Side) :
    r.SameOrigin (r.report used side) := by
  have moved : r.SameOrigin { r with state := r.nextState used side } := ⟨rfl, rfl, rfl, rfl⟩
  have seen := moved.trans
    (sameOrigin_modify _ (f := fun p => { p with events := ∅ }) side fun _ => rfl)
  unfold report
  simp only
  split
  · split
    · exact seen
    · exact seen.trans (sameOrigin_addEvents _ side.other .used)
  · exact seen.trans (sameOrigin_addEvents _ side.other .set)

theorem sameOrigin_setControl (r : Record) (side : Side) (mask : Mask) :
    r.SameOrigin (r.setControl side mask) := by
  have restrained := r.sameOrigin_modify (f := fun p => { p with control := mask }) side fun _ =>
    rfl
  exact restrained.trans (sameOrigin_addEvents _ side.other .control)

theorem sameOrigin_amend (r : Record) (a : Amendment) : r.SameOrigin (r.amend a) := by
  cases a with
  | report used side => exact r.sameOrigin_report used side
  | restrain side mask => exact r.sameOrigin_setControl side mask
  | alert side events => exact r.sameOrigin_addEvents side events
  | assign payload => exact ⟨rfl, rfl, rfl, rfl⟩

theorem sameOrigin_release (r : Record) (side : Side) : r.SameOrigin (r.release side) := by
  have unshared : r.SameOrigin { r with state := .notShared } := ⟨rfl, rfl, rfl, rfl⟩
  have left := unshared.trans (sameOrigin_modify _ (f := Partner.deactivate) side fun _ => rfl)
  unfold release
  simp only
  split
  · exact left.trans (sameOrigin_addEvents _ side.other .retracted)
  · exact left

theorem sameOrigin_clear (r : Record) (id : Identity) : r.SameOrigin (r.clear id) := by
  refine ⟨rfl, rfl, rfl, ?_⟩
  simp only [clear]
  split <;> rfl

theorem withdrawn_cases {caller : Identity} (left : r.withdrawn caller = some s) :
    s = r ∨ ∃ side, s = r.release side := by
  unfold withdrawn at left
  split at left
  · obtain ⟨rfl, -⟩ := Option.guard_eq_some_iff.mp left
    exact .inr ⟨_, rfl⟩
  · exact .inl (Option.some.inj left).symm

theorem remains_cases {gone : List ConnId} (left : r.remains gone = some s) :
    s = r ∨ r.SameOrigin s ∧ ∃ side, (s.partner side).conn = none := by
  unfold remains at left
  split at left
  · exact .inl (Option.some.inj left).symm
  · obtain ⟨-, kept⟩ := Option.ite_none_right_eq_some.mp left
    obtain rfl := Option.some.inj kept
    exact .inr ⟨⟨rfl, rfl, rfl, rfl⟩, .offering, rfl⟩
  · obtain ⟨-, kept⟩ := Option.ite_none_right_eq_some.mp left
    obtain rfl := Option.some.inj kept
    exact .inr ⟨⟨rfl, rfl, rfl, rfl⟩, .accepting, rfl⟩
  · simp at left

theorem sameOrigin_alerted (r : Record) (id : Identity) (events : Events) :
    r.SameOrigin (r.alerted id events) := by
  unfold alerted
  split
  · exact r.sameOrigin_addEvents _ events
  · exact .refl r

theorem sameSides_alerted (r : Record) (id : Identity) (events : Events) :
    r.SameSides (r.alerted id events) := by
  unfold alerted
  split
  · exact r.sameSides_addEvents _ events
  · exact fun _ => ⟨rfl, rfl⟩

end Record

namespace Table

/-- What becomes of a record; none when it is removed. -/
def fate (t : Table) (op : Operation) (r : Record) : Option Record :=
  match op with
  | .matchOrMake name wanted requester conn =>
    some (if t.pendingOffer? name wanted requester = some r then r.couple requester conn else r)
  | .retract key caller => if r.key = key then r.withdrawn caller else some r
  | .disconnect conn => r.remains [conn]
  | .addEvents key id events => some (if r.key = key then r.alerted id events else r)
  | .clearEvents id => some (r.clear id)
  | .amend key amendment => some (if r.key = key then r.amend amendment else r)
  | .createOffer .. | .reap => some r

/-- The record of a new offer, if there is room for one. -/
def offer? (t : Table) (name : Name) (wanted offerer : Identity) (conn : ConnId) : Option Record :=
  if t.isFull || Key.sequenceLimit ≤ t.nextNumber offerer.proc then none else
    some (t.newOffer name wanted offerer conn)

/-- The record that joins the others. -/
def newcomer? (t : Table) : Operation → Option Record
  | .matchOrMake name wanted requester conn =>
    if t.pendingOffer? name wanted requester = none then
      t.offer? name wanted requester conn else none
  | .createOffer name wanted offerer conn => t.offer? name wanted offerer conn
  | _ => none

variable {t : Table}

/-- Two changes that agree away from a key, and on what is found under it, agree on the whole
table. -/
theorem Sound.filterMap_at (sound : t.Sound) (key : Key) {f g : Record → Option Record}
    (others : ∀ r, r.key ≠ key → f r = g r) (here : ∀ r, t.get? key = some r → f r = g r) :
    t.records.filterMap f = t.records.filterMap g := by
  apply List.filterMap_congr
  intro r mem
  by_cases same : r.key = key
  · exact here r (same ▸ sound.get? mem)
  · exact others r same

theorem Sound.filterMap_found (sound : t.Sound) {key : Key} {r : Record}
    (found : t.get? key = some r) {f g : Record → Option Record}
    (others : ∀ s, s.key ≠ key → f s = g s) (here : f r = g r) :
    t.records.filterMap f = t.records.filterMap g := by
  apply sound.filterMap_at key others
  intro s again
  obtain rfl := Option.some.inj (found.symm.trans again)
  exact here

theorem records_update (t : Table) (key : Key) (f : Record → Record) :
    (t.update key f).records = t.records.filterMap fun r =>
      some (if r.key = key then f r else r) := by
  rw [List.filterMap_eq_map']
  simp [update]

theorem filterMap_records_eq {f : Record → Option Record} (same : ∀ r ∈ t.records, f r = some r) :
    t.records.filterMap f = t.records := by
  rw [List.filterMap_congr same, List.filterMap_some]

theorem records_createOffer (t : Table) (name : Name) (wanted offerer : Identity) (conn : ConnId) :
    (t.createOffer name wanted offerer conn).2.records =
      t.records ++ (t.offer? name wanted offerer conn).toList := by
  rw [createOffer_eq, offer?]
  split <;> simp

theorem records_matchOrMake (sound : t.Sound) (name : Name) (wanted requester : Identity)
    (conn : ConnId) :
    (t.matchOrMake name wanted requester conn).2.records =
      t.records.filterMap (t.fate (.matchOrMake name wanted requester conn)) ++
        (t.newcomer? (.matchOrMake name wanted requester conn)).toList := by
  cases pending : t.pendingOffer? name wanted requester with
  | some offer =>
    have found := sound.get? (oldestIn_some pending).1
    simp only [Table.matchOrMake, newcomer?, pending, records_update, reduceCtorEq, if_false,
      Option.toList_none,
      List.append_nil]
    apply sound.filterMap_found found
    · intro r other
      have apart : offer ≠ r := fun equal => other (equal ▸ rfl)
      simp [fate, pending, other, apart]
    · simp [fate, pending]
  | none =>
    have kept : t.records.filterMap
        (t.fate (.matchOrMake name wanted requester conn)) = t.records :=
      filterMap_records_eq fun r _ => by simp [fate, pending]
    rw [kept, newcomer?, if_pos pending, ← records_createOffer, Table.matchOrMake, pending]
    simp only
    split <;> simp_all

theorem activePartnerOf_of_get? {key : Key} {r : Record} (found : t.get? key = some r)
    (caller : Identity) :
    t.activePartnerOf key caller =
      match r.activeSideOf? caller with
      | some side => .ok (r, side)
      | none => .error (.notPartner key caller) := by
  unfold activePartnerOf partnerOf Record.activeSideOf?
  rw [found]
  simp only
  cases plays : r.sideOf? caller with
  | none => rfl
  | some side =>
    simp only [Option.filter_some]
    split <;> rfl

theorem records_retract (sound : t.Sound) (key : Key) (caller : Identity) :
    (t.perform (.retract key caller)).records =
      t.records.filterMap (t.fate (.retract key caller)) := by
  have others : ∀ r, r.key ≠ key → t.fate (.retract key caller) r = some r := fun r other => by
    simp [fate, other]
  cases found : t.get? key with
  | none =>
    have same := sound.filterMap_at key others fun r here => by simp [found] at here
    rw [same, List.filterMap_some]
    simp [perform, Table.retract, activePartnerOf, partnerOf, found, Except.toOption]
  | some r =>
    have here : r.key = key := by simpa using List.find?_some found
    have active := activePartnerOf_of_get? found caller
    cases plays : r.activeSideOf? caller with
    | none =>
      have same := sound.filterMap_found found others (by simp [fate, Record.withdrawn, plays])
      rw [same, List.filterMap_some]
      simp [perform, Table.retract, active, plays, Except.toOption]
    | some side =>
      rw [plays] at active
      by_cases gone : (r.release side).coupling = .uncoupled
      · simp only [perform, Table.retract, active, gone, if_true, Except.toOption,
          Option.map_some, Option.getD_some,
          erase]
        rw [← List.filterMap_eq_filter]
        apply sound.filterMap_found found
        · intro s other
          simp [others s other, Option.guard, other]
        · simp [fate, Record.withdrawn, plays, gone, here, Option.guard]
      · simp only [perform, Table.retract, active, gone, if_false, Except.toOption,
          Option.map_some, Option.getD_some,
          records_update]
        apply sound.filterMap_found found
        · intro s other
          simp [others s other, other]
        · simp [fate, Record.withdrawn, plays, gone, here]

theorem records_addEvents (sound : t.Sound) (key : Key) (id : Identity) (events : Events) :
    (t.perform (.addEvents key id events)).records =
      t.records.filterMap (t.fate (.addEvents key id events)) := by
  have others : ∀ r, r.key ≠ key → t.fate (.addEvents key id events) r = some r := fun r other => by
    simp [fate, other]
  cases found : t.get? key with
  | none =>
    have same := sound.filterMap_at key others fun r here => by simp [found] at here
    rw [same, List.filterMap_some]
    simp [perform, Table.addEvents, partnerOf, found, Except.toOption]
  | some r =>
    have here : r.key = key := by simpa using List.find?_some found
    cases plays : r.sideOf? id with
    | none =>
      have same := sound.filterMap_found found others (by simp [fate, Record.alerted, plays])
      rw [same, List.filterMap_some]
      simp [perform, Table.addEvents, partnerOf, found, plays, Except.toOption]
    | some side =>
      simp only [perform, Table.addEvents, partnerOf, found, plays, Except.toOption,
        Option.getD_some, records_update]
      apply sound.filterMap_found found
      · intro s other
        simp [others s other, other]
      · simp [fate, Record.alerted, plays, here]

/-- The records after an operation, from those before it. -/
theorem records_perform (sound : t.Sound) (op : Operation) :
    (t.perform op).records = t.records.filterMap (t.fate op) ++ (t.newcomer? op).toList := by
  cases op with
  | matchOrMake name wanted requester conn =>
    exact records_matchOrMake sound name wanted requester conn
  | createOffer name wanted offerer conn =>
    have kept : t.records.filterMap (t.fate (.createOffer name wanted offerer conn)) = t.records :=
      filterMap_records_eq fun r _ => rfl
    rw [kept]
    exact t.records_createOffer name wanted offerer conn
  | retract key caller =>
    rw [records_retract sound]
    exact (List.append_nil _).symm
  | disconnect conn =>
    simp only [perform, disconnect_eq_without sound]
    exact (List.append_nil _).symm
  | reap =>
    have kept : t.records.filterMap (t.fate .reap) = t.records := filterMap_records_eq fun r _ =>
      rfl
    rw [kept]
    refine (List.filter_eq_self.mpr fun r mem => ?_).trans (List.append_nil _).symm
    simpa using (sound.records r mem).attended
  | addEvents key id events =>
    rw [records_addEvents sound]
    exact (List.append_nil _).symm
  | clearEvents id =>
    have changed : t.records.filterMap (t.fate (.clearEvents id)) = t.records.map (·.clear id) := by
      rw [← List.filterMap_eq_map]
      rfl
    rw [changed]
    exact (List.append_nil _).symm
  | amend key amendment =>
    rw [perform, records_update]
    exact (List.append_nil _).symm

/-- What every change to a record keeps, an operation keeps of it. -/
theorem of_fate {P : Record → Prop} {op : Operation} {r s : Record} (left : t.fate op r = some s)
    (same : P r) (couple : ∀ requester conn, P (r.couple requester conn))
    (release : ∀ side, P (r.release side)) (remains : ∀ conn, r.remains [conn] = some s → P s)
    (alerted : ∀ id events, P (r.alerted id events)) (clear : ∀ id, P (r.clear id))
    (amend : ∀ amendment, P (r.amend amendment)) : P s := by
  cases op with
  | matchOrMake name wanted requester conn =>
    obtain rfl := Option.some.inj left
    split
    · exact couple requester conn
    · exact same
  | createOffer | reap =>
    obtain rfl := Option.some.inj left
    exact same
  | retract key caller =>
    simp only [fate] at left
    split at left
    · rcases Record.withdrawn_cases left with rfl | ⟨side, rfl⟩
      · exact same
      · exact release side
    · obtain rfl := Option.some.inj left
      exact same
  | disconnect conn => exact remains conn left
  | addEvents key id events =>
    obtain rfl := Option.some.inj left
    split
    · exact alerted id events
    · exact same
  | clearEvents id =>
    obtain rfl := Option.some.inj left
    exact clear id
  | amend key amendment =>
    obtain rfl := Option.some.inj left
    split
    · exact amend amendment
    · exact same

theorem sameOrigin_of_fate {op : Operation} {r s : Record} (left : t.fate op r = some s) :
    r.SameOrigin s := by
  apply of_fate left (.refl r)
  case couple => exact fun _ _ => ⟨rfl, rfl, rfl, rfl⟩
  case release => exact r.sameOrigin_release
  case remains =>
    intro conn stays
    rcases Record.remains_cases stays with rfl | ⟨origin, -⟩
    · exact .refl _
    · exact origin
  case alerted => exact r.sameOrigin_alerted
  case clear => exact r.sameOrigin_clear
  case amend => exact r.sameOrigin_amend

theorem mem_perform (sound : t.Sound) {op : Operation} {s : Record} :
    s ∈ (t.perform op).records ↔
      (∃ r ∈ t.records, t.fate op r = some s) ∨ t.newcomer? op = some s := by
  rw [records_perform sound, List.mem_append, List.mem_filterMap, Option.mem_toList]

/-- A record that is not removed is found where it was. -/
theorem get?_perform (sound : t.Sound) {op : Operation} {r s : Record} (mem : r ∈ t.records)
    (left : t.fate op r = some s) : (t.perform op).get? r.key = some s := by
  rw [← (sameOrigin_of_fate left).key]
  exact (sound.perform op).get? ((mem_perform sound).mpr (.inl ⟨r, mem, left⟩))

theorem newcomer?_eq_some {op : Operation} {s : Record} (new : t.newcomer? op = some s) :
    t.isFull = false ∧ ∃ name wanted offerer conn, s = t.newOffer name wanted offerer conn := by
  have offered : ∀ {name wanted offerer conn}, t.offer? name wanted offerer conn = some s →
      t.isFull = false ∧ ∃ name wanted offerer conn, s = t.newOffer name wanted offerer conn := by
    intro name wanted offerer conn made
    obtain ⟨room, same⟩ := Option.ite_none_left_eq_some.mp made
    obtain rfl := Option.some.inj same
    simp only [Bool.or_eq_true, not_or, Bool.not_eq_true] at room
    exact ⟨room.1, name, wanted, offerer, conn, rfl⟩
  cases op with
  | matchOrMake name wanted requester conn => exact offered (Option.ite_none_right_eq_some.mp new).2
  | createOffer name wanted offerer conn => exact offered new
  | retract | disconnect | reap | addEvents | clearEvents | amend => simp [newcomer?] at new

end Table
end SharedVariables
