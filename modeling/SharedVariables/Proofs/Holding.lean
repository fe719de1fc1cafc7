import SharedVariables.Proofs.Cascade
import SharedVariables.Proofs.Fate
import SharedVariables.Proofs.Sharing

/-! Who can change what. A request is carried out by one operation on the table. The broker compares
identities only, but roster and table agree, so the side that a request acts on is the one held over
its own connection. -/
namespace SharedVariables

namespace Partner

/-- The side is held by the same identity, over the same connection and under the same
restrictions. -/
structure SameHold (p q : Partner) : Prop where
  id : q.id = p.id
  conn : q.conn = p.conn
  control : q.control = p.control

theorem SameHold.refl (p : Partner) : p.SameHold p := ⟨rfl, rfl, rfl⟩

theorem SameHold.trans {p q r : Partner} (first : p.SameHold q) (second : q.SameHold r) :
    p.SameHold r :=
  ⟨second.id.trans first.id, second.conn.trans first.conn, second.control.trans first.control⟩

theorem sameHold_addEvents (p : Partner) (e : Events) :
    p.SameHold (p.addEvents e) := ⟨rfl, rfl, rfl⟩

end Partner

namespace Record

def SameHolds (r s : Record) : Prop := ∀ side, (r.partner side).SameHold (s.partner side)

structure SameButEvents (r s : Record) : Prop where
  key : s.key = r.key
  name : s.name = r.name
  state : s.state = r.state
  value : s.value = r.value
  sides : r.SameHolds s

variable {r s u : Record}

theorem SameHolds.refl (r : Record) : r.SameHolds r := fun side => .refl (r.partner side)

theorem SameHolds.trans (first : r.SameHolds s) (second : s.SameHolds u) : r.SameHolds u :=
  fun side => (first side).trans (second side)

theorem sameHolds_modify (r : Record) {f : Partner → Partner} (side : Side)
    (keeps : ∀ p : Partner, p.SameHold (f p)) :
    r.SameHolds (r.modify f side) := by
  intro other
  rw [partner_modify]
  split
  · exact keeps _
  · exact .refl _

theorem sameHolds_addEvents (r : Record) (side : Side) (e : Events) :
    r.SameHolds (r.addEvents side e) :=
  r.sameHolds_modify side fun p => p.sameHold_addEvents e

theorem sameHolds_report (r : Record) (used : Bool) (side : Side) :
    r.SameHolds (r.report used side) := by
  have moved : r.SameHolds { r with state := r.nextState used side } := by
    intro other
    cases other <;> exact .refl _
  have seen := moved.trans
    (sameHolds_modify _ (f := fun p => { p with events := ∅ }) side fun _ => ⟨rfl, rfl, rfl⟩)
  unfold report
  simp only
  split
  · split
    · exact seen
    · exact seen.trans (sameHolds_addEvents _ side.other .used)
  · exact seen.trans (sameHolds_addEvents _ side.other .set)

theorem sameHolds_withValue (r : Record) (value : Option Octets) :
    r.SameHolds { r with value } := by
  intro side
  cases side <;> exact .refl _

theorem sameHold_setControl (r : Record) {side other : Side} (apart : other ≠ side) (mask : Mask) :
    (r.partner other).SameHold ((r.setControl side mask).partner other) := by
  have restrained :
      (r.partner other).SameHold
        ((r.modify (fun p => { p with control := mask }) side).partner other) := by
    rw [partner_modify, if_neg apart]
    exact .refl _
  exact restrained.trans (sameHolds_addEvents _ side.other .control other)

theorem sameHold_release (r : Record) {side other : Side} (apart : other ≠ side) :
    (r.partner other).SameHold ((r.release side).partner other) := by
  rw [partner_release, if_neg apart]
  split
  · exact (r.partner other).sameHold_addEvents .retracted
  · exact .refl _

theorem SameButEvents.refl (r : Record) : r.SameButEvents r := ⟨rfl, rfl, rfl, rfl, .refl r⟩

theorem sameButEvents_alerted (r : Record) (id : Identity) (events : Events) :
    r.SameButEvents (r.alerted id events) := by
  unfold alerted
  split
  · rename_i side _
    cases side <;> exact ⟨rfl, rfl, rfl, rfl, r.sameHolds_addEvents _ events⟩
  · exact .refl r

theorem sameButEvents_clear (r : Record) (id : Identity) : r.SameButEvents (r.clear id) := by
  refine ⟨rfl, rfl, rfl, rfl, ?_⟩
  intro side
  cases side <;> simp only [clear, partner] <;> split <;> exact ⟨rfl, rfl, rfl⟩

theorem activeSideOf?_eq_some {id : Identity} {side : Side}
    (plays : r.activeSideOf? id = some side) :
    (r.partner side).id = id ∧ (r.partner side).isActive = true := by
  obtain ⟨plays, active⟩ := Option.filter_eq_some_iff.mp plays
  exact ⟨sideOf?_eq_some plays, active⟩

theorem Sound.activeSideOf?_iff (sound : r.Sound) {id : Identity} {side : Side} :
    r.activeSideOf? id = some side ↔
      (r.partner side).id = id ∧ (r.partner side).isActive = true := by
  constructor
  · exact activeSideOf?_eq_some
  · rintro ⟨plays, active⟩
    cases side with
    | offering =>
      have first : r.sideOf? id = some .offering := if_pos plays
      simp [activeSideOf?, first, active]
    | accepting =>
      -- The offering side would win, but it is someone else's.
      have other : r.offering.id ≠ id := fun same => sound.apart active (same.trans plays.symm)
      have second : r.sideOf? id = some .accepting := (if_neg other).trans (if_pos plays)
      simp [activeSideOf?, second, active]

end Record

theorem Table.Sound.update_const {t : Table} (sound : t.Sound) {key : Key} {r : Record}
    (found : t.get? key = some r) (f : Record → Record) :
    (t.update key fun _ => f r) = t.update key f := by
  unfold Table.update
  congr 1
  apply List.map_congr_left
  intro s mem
  split
  · rename_i here
    have again := sound.get? mem
    rw [beq_iff_eq.mp here, found] at again
    rw [Option.some.inj again]
  · rfl

namespace Broker

/-- The operation on the table by which a request is carried out. -/
inductive Enacts (b : Broker) (conn : ConnId) : Signal → Table.Operation → Prop where
  | share {text : String} {name : Name} {wanted requester : Identity}
      (acts : b.caller conn = .ok requester)
      (told : (b.handle conn (.matchOrMake text wanted requester)).outcome =
        .ok (.matchOrMakeResult (b.table.matchOrMake name wanted requester conn).1.key
          (b.table.matchOrMake name wanted requester conn).1.coupling)) :
      Enacts b conn (.matchOrMake text wanted requester) (.matchOrMake name wanted requester conn)
  | retract {key : Key} {id : Identity} (acts : b.caller conn = .ok id) :
      Enacts b conn (.retractOffer key) (.retract key id)
  | report {key : Key} {used : Bool} {r : Record} {side : Side}
      (holds : b.held conn key = .ok (r, side)) :
      Enacts b conn (.setState key used) (.amend key (.report used side))
  | restrain {key : Key} {mask : Mask} {r : Record} {side : Side}
      (holds : b.held conn key = .ok (r, side)) :
      Enacts b conn (.setControl key mask) (.amend key (.restrain side mask))
  | assign {key : Key} {payload : Octets} {r : Record} {side : Side}
      (holds : b.held conn key = .ok (r, side)) :
      Enacts b conn (.assignValue key payload) (.amend key (.assign payload))
  | alert (key : Key) (id : Identity) (events : Events) :
      Enacts b conn (.addEvent key id events) (.addEvents key id events)
  | clear (id : Identity) : Enacts b conn (.clearAllEvents id) (.clearEvents id)

variable {b : Broker} {conn : ConnId} {request : Signal} {op : Table.Operation} {r : Record}

theorem handle_enacts (sound : b.table.Sound) (conn : ConnId) (request : Signal) :
    (b.handle conn request).broker.table = b.table ∨
      ∃ op, Enacts b conn request op ∧
        (b.handle conn request).broker.table = b.table.perform op := by
  have handled := handle_handled b conn request
  generalize same : b.handle conn request = h at handled
  cases handled with
  | settled | registered | listening => exact .inl rfl
  | @shared text name wanted requester outcome table _ acts done _ =>
    refine .inr ⟨.matchOrMake name wanted requester conn, .share acts ?_, ?_⟩
    · rw [same, done]
    · simp only [Table.perform, done]
  | retracted acts done =>
    refine .inr ⟨_, .retract acts, ?_⟩
    simp [Table.perform, done, Except.toOption]
  | @reported key used r side holds =>
    obtain ⟨id, -, held⟩ := held_ok holds
    have found := (Table.activePartnerOf_ok held).1
    exact .inr ⟨_, .report holds, sound.update_const found (·.report used side)⟩
  | @restrained key mask r side holds =>
    obtain ⟨id, -, held⟩ := held_ok holds
    have found := (Table.activePartnerOf_ok held).1
    exact .inr ⟨_, .restrain holds, sound.update_const found (·.setControl side mask)⟩
  | assigned holds => exact .inr ⟨_, .assign holds, rfl⟩
  | @alerted key id events _ _ done _ =>
    refine .inr ⟨_, .alert key id events, ?_⟩
    simp [Table.perform, done, Except.toOption]
  | cleared id => exact .inr ⟨_, .clear id, rfl⟩

theorem Departing.own_side (agrees : b.Departing []) {id : Identity} (acts : b.caller conn = .ok id)
    (mem : r ∈ b.table.records) {side : Side} (plays : (r.partner side).id = id)
    (active : (r.partner side).isActive = true) : (r.partner side).conn = some conn := by
  obtain ⟨c, held⟩ := Option.isSome_iff_exists.mp active
  have listed := (agrees.backed r mem side).held c held
  rw [plays, agrees.listed acts] at listed
  rw [held, Option.some.inj listed]

theorem Departing.held_own (agrees : b.Departing []) {key : Key} {side : Side}
    (holds : b.held conn key = .ok (r, side)) :
    b.table.get? key = some r ∧ (r.partner side).conn = some conn := by
  obtain ⟨id, acts, held⟩ := held_ok holds
  obtain ⟨found, plays, active⟩ := Table.activePartnerOf_ok held
  exact ⟨found, agrees.own_side acts (Table.mem_of_get? found) plays active⟩

theorem Upkept.key_ne_of_away (upkept : b.Upkept []) (mem : r ∈ b.table.records)
    (away : ∀ side, (r.partner side).conn ≠ some conn) {key : Key} {s : Record} {side : Side}
    (holds : b.held conn key = .ok (s, side)) : r.key ≠ key := by
  rintro rfl
  obtain ⟨found, own⟩ := upkept.agrees.held_own holds
  obtain rfl := Option.some.inj ((upkept.sound.get? mem).symm.trans found)
  exact away side own

theorem dispatch_reply {reply : Signal} (answered : (b.handle conn request).outcome = .ok reply) :
    (b.dispatch conn request).1 = reply := by
  simp only [dispatch, answered]

theorem Enacts.leaves (enacts : Enacts b conn request op) (upkept : b.Upkept [])
    (mem : r ∈ b.table.records) (away : ∀ side, (r.partner side).conn ≠ some conn)
    (uncoupled : (b.dispatch conn request).1 ≠ .matchOrMakeResult r.key .coupled) :
    ∃ s, b.table.fate op r = some s ∧ r.SameButEvents s ∧
      (request.kind ≠ .addEvent → request.kind ≠ .clearAllEvents → s = r) := by
  have still : b.table.fate op r = some r → ∃ s, b.table.fate op r = some s ∧ r.SameButEvents s ∧
      (request.kind ≠ .addEvent → request.kind ≠ .clearAllEvents → s = r) :=
    fun left => ⟨r, left, .refl r, fun _ _ => rfl⟩
  cases enacts with
  | @share text name wanted requester acts told =>
    have passed : b.table.pendingOffer? name wanted requester ≠ some r := by
      intro pending
      apply uncoupled
      rw [dispatch_reply told, Table.matchOrMake, pending]
      rfl
    exact still (by simp [Table.fate, passed])
  | @retract key id acts =>
    have stays : r.withdrawn id = some r := by
      unfold Record.withdrawn
      split
      · rename_i side plays
        obtain ⟨plays, active⟩ := Record.activeSideOf?_eq_some plays
        exact absurd (upkept.agrees.own_side acts mem plays active) (away side)
      · rfl
    exact still (by simp [Table.fate, stays])
  | report holds | restrain holds | assign holds =>
    exact still (by simp [Table.fate, upkept.key_ne_of_away mem away holds])
  | alert key id events =>
    refine ⟨_, rfl, ?_, fun other => absurd rfl other⟩
    split
    · exact r.sameButEvents_alerted id events
    · exact .refl r
  | clear id => exact ⟨_, rfl, r.sameButEvents_clear id, fun _ other => absurd rfl other⟩

theorem Enacts.sameHold (enacts : Enacts b conn request op) (upkept : b.Upkept [])
    (mem : r ∈ b.table.records) {side : Side} {other : ConnId}
    (held : (r.partner side).conn = some other) (apart : other ≠ conn) :
    ∃ s, b.table.fate op r = some s ∧ (r.partner side).SameHold (s.partner side) := by
  -- The side that the request acts on, if it acts on one of this record, is the other.
  have elsewhere : ∀ own, (r.partner own).conn = some conn → side ≠ own := by
    rintro own reached rfl
    exact apart (Option.some.inj (held.symm.trans reached))
  cases enacts with
  | @share text name wanted requester acts told =>
    refine ⟨_, rfl, ?_⟩
    split
    · rename_i pending
      have fits := (Table.oldestIn_some pending).2
      simp only [Bool.and_eq_true, Record.isPending] at fits
      cases side with
      | offering => exact r.offering.sameHold_addEvents .matched
      | accepting =>
        have vacant := fits.1.1.2
        have taken : r.accepting.conn = some other := held
        simp [Partner.isActive, taken] at vacant
    · exact .refl _
  | @retract key id acts =>
    simp only [Table.fate]
    split
    · unfold Record.withdrawn
      split
      · rename_i own plays
        obtain ⟨plays, active⟩ := Record.activeSideOf?_eq_some plays
        have kept := r.sameHold_release
          (elsewhere own (upkept.agrees.own_side acts mem plays active))
        have attended : (r.release own).coupling ≠ .uncoupled := by
          intro uncoupled
          have inactive := (Record.coupling_eq_uncoupled _).mp uncoupled side
          simp [Partner.isActive, kept.conn, held] at inactive
        exact ⟨_, Option.guard_eq_some_iff.mpr ⟨rfl, by simpa using attended⟩, kept⟩
      · exact ⟨r, rfl, .refl _⟩
    · exact ⟨r, rfl, .refl _⟩
  | report =>
    refine ⟨_, rfl, ?_⟩
    split
    · exact r.sameHolds_report _ _ side
    · exact .refl _
  | @restrain key mask s own holds =>
    refine ⟨_, rfl, ?_⟩
    split
    · rename_i here
      obtain ⟨found, reached⟩ := upkept.agrees.held_own holds
      obtain rfl := Option.some.inj ((upkept.sound.get? mem).symm.trans (here ▸ found))
      exact r.sameHold_setControl (elsewhere own reached) mask
    · exact .refl _
  | assign =>
    refine ⟨_, rfl, ?_⟩
    split
    · exact r.sameHolds_withValue _ side
    · exact .refl _
  | alert key id events =>
    refine ⟨_, rfl, ?_⟩
    split
    · exact (r.sameButEvents_alerted id events).sides side
    · exact .refl _
  | clear id => exact ⟨_, rfl, (r.sameButEvents_clear id).sides side⟩

/-- A request leaves a record alone that its connection holds no side of, unless it couples the
record; only requests to add or to clear events change anything of it, and of these only events. A
side held over another connection keeps its holder and its restrictions in any case. The side that
the caller is found to hold is held over the connection that the request came over. -/
theorem acts_on_own_side (capacity : Option Nat) (wording : Wording) (events : List Occurrence)
    (conn : ConnId) (request : Signal) (distinct : (events.filterMap Occurrence.opened).Nodup) :
    let b := ((new capacity wording).run events).1
    let after := (b.step (.request conn request)).1.table
    (∀ r ∈ b.table.records, (∀ side, (r.partner side).conn ≠ some conn) →
      (b.dispatch conn request).1 ≠ .matchOrMakeResult r.key .coupled →
      ∃ s, after.get? r.key = some s ∧ r.SameButEvents s ∧
        (request.kind ≠ .addEvent → request.kind ≠ .clearAllEvents → s = r)) ∧
    (∀ r ∈ b.table.records, ∀ side other, (r.partner side).conn = some other → other ≠ conn →
      ∃ s, after.get? r.key = some s ∧ (r.partner side).SameHold (s.partner side)) ∧
    ∀ id key r side, b.caller conn = .ok id → b.table.activePartnerOf key id = .ok (r, side) →
      (r.partner side).conn = some conn := by
  intro b after
  have upkept : b.Upkept [] := upkept_run capacity wording distinct
  have carried : after = b.table ∨ ∃ op, Enacts b conn request op ∧ after = b.table.perform op := by
    simp only [after, step, dispatch_broker]
    exact handle_enacts upkept.sound conn request
  refine ⟨?_, ?_, ?_⟩
  · intro r mem away uncoupled
    rcases carried with same | ⟨op, enacts, done⟩
    · rw [same]
      exact ⟨r, upkept.sound.get? mem, .refl r, fun _ _ => rfl⟩
    · obtain ⟨s, left, same⟩ := enacts.leaves upkept mem away uncoupled
      rw [done]
      exact ⟨s, Table.get?_perform upkept.sound mem left, same⟩
  · intro r mem side other held apart
    rcases carried with same | ⟨op, enacts, done⟩
    · rw [same]
      exact ⟨r, upkept.sound.get? mem, .refl _⟩
    · obtain ⟨s, left, kept⟩ := enacts.sameHold upkept mem held apart
      rw [done]
      exact ⟨s, Table.get?_perform upkept.sound mem left, kept⟩
  · intro id key r side acts found
    obtain ⟨here, plays, active⟩ := Table.activePartnerOf_ok found
    exact upkept.agrees.own_side acts (Table.mem_of_get? here) plays active

/-- A third processor cannot withdraw what two others share, and one of the two withdraws for itself
alone. -/
theorem acts_on_own_side_withdrawal :
    let bits : Mask := .setBit .offering
    let r := Sharing.opened bits
    let events := Sharing.opening bits ++
      [.connected ⟨3⟩ "", .request ⟨3⟩ (.registerProcessor ⟨2003, 0, 0⟩ 9)]
    let b := ((new none {}).run events).1
    (events.filterMap Occurrence.opened).Nodup ∧ r ∈ b.table.records ∧
      (∀ side, (r.partner side).conn ≠ some ⟨3⟩) ∧
      (b.step (.request ⟨3⟩ (.retractOffer r.key))).1.table.get? r.key = some r ∧
      (r.partner .accepting).conn = some ⟨2⟩ ∧
      ∃ s, (b.step (.request ⟨1⟩ (.retractOffer r.key))).1.table.get? r.key = some s ∧
        (r.partner .accepting).SameHold (s.partner .accepting) := by
  intro bits r events b
  have distinct : (events.filterMap Occurrence.opened).Nodup := by
    have conns : events.filterMap Occurrence.opened = [⟨1⟩, ⟨2⟩, ⟨3⟩] := rfl
    rw [conns]
    decide
  have mem : r ∈ b.table.records := by decide +kernel
  have away : ∀ side, (r.partner side).conn ≠ some ⟨3⟩ := by
    intro side
    cases side <;> decide
  obtain ⟨s, found, -, same⟩ :=
    (acts_on_own_side none {} events ⟨3⟩ (.retractOffer r.key) distinct).1 r mem away
      (by decide +kernel)
  obtain rfl := same (by decide) (by decide)
  have other := (acts_on_own_side none {} events ⟨1⟩ (.retractOffer r.key) distinct).2.1 r
    mem .accepting ⟨2⟩ rfl
  exact ⟨distinct, mem, away, found, rfl, other (by decide)⟩

end Broker
end SharedVariables
