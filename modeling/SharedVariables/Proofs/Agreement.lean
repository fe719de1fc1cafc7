import SharedVariables.Proofs.Departure

/-! Roster and table agree in every state that the broker reaches: each active side of a record is
held over the command connection of its identity, and each directory lists what the entries say. A
departure breaks one clause for a while: the channel of a processor that has left is listed until
its turn comes. `Departing` names the connections whose turn is still to come. -/
namespace SharedVariables

namespace Partner

/-- An active side is held over the command connection of its identity; an inactive one restrains
nothing. -/
structure Backed (commands : Directory) (p : Partner) : Prop where
  held : ∀ c, p.conn = some c → Directory.get? commands p.id = some c
  loose : p.conn = none → p.control = ∅

variable {d : Directory} {p : Partner}

theorem Backed.withEvents (backed : p.Backed d) (e : Events) : { p with events := e }.Backed d :=
  ⟨backed.held, backed.loose⟩

theorem Backed.withControl (backed : p.Backed d) (active : p.isActive = true) (mask : Mask) :
    { p with control := mask }.Backed d :=
  ⟨backed.held, fun inactive => by simp [isActive, show p.conn = none from inactive] at active⟩

theorem backed_active {id : Identity} {conn : ConnId} (listed : Directory.get? d id = some conn) :
    (active id conn).Backed d :=
  ⟨fun c held => by rw [← held]; exact listed, fun inactive => by simp [active] at inactive⟩

theorem backed_deactivate (d : Directory) (p : Partner) : p.deactivate.Backed d :=
  ⟨fun c held => by simp [deactivate] at held, fun _ => rfl⟩

end Partner

namespace Record

def Backed (commands : Directory) (r : Record) : Prop := ∀ side, (r.partner side).Backed commands

variable {d : Directory} {r : Record}

theorem Backed.modify (backed : r.Backed d) (f : Partner → Partner) (side : Side)
    (kept : (r.partner side).Backed d → (f (r.partner side)).Backed d) :
    (r.modify f side).Backed d := by
  intro other
  rw [partner_modify]
  split
  · rename_i same
    subst other
    exact kept (backed side)
  · exact backed other

theorem Backed.mono (backed : r.Backed d) {e : Directory}
    (kept : ∀ id c, Directory.get? d id = some c → Directory.get? e id = some c) : r.Backed e :=
  fun side => ⟨fun c held => kept _ c ((backed side).held c held), (backed side).loose⟩

theorem backed_newOffer (t : Table) (name : Name) (wanted : Identity) {id : Identity}
    {conn : ConnId} (listed : Directory.get? d id = some conn) :
    (t.newOffer name wanted id conn).Backed d := by
  intro side
  cases side with
  | offering => exact Partner.backed_active listed
  | accepting => exact ⟨fun c held => by simp [Table.newOffer, partner] at held, fun _ => rfl⟩

theorem Backed.withState (backed : r.Backed d) (state : State) : { r with state }.Backed d := by
  intro side
  cases side
  · exact backed .offering
  · exact backed .accepting

theorem Backed.withValue (backed : r.Backed d) (value : Option Octets) :
    { r with value }.Backed d := by
  intro side
  cases side
  · exact backed .offering
  · exact backed .accepting

theorem Backed.addEvents (backed : r.Backed d) (side : Side) (e : Events) :
    (r.addEvents side e).Backed d :=
  backed.modify _ side fun p => p.withEvents _

theorem Backed.report (backed : r.Backed d) (used : Bool) (side : Side) :
    (r.report used side).Backed d := by
  have seen := (backed.withState (r.nextState used side)).modify
    (fun p => { p with events := ∅ }) side
    fun p => p.withEvents ∅
  unfold Record.report
  simp only
  split
  · split
    · exact seen
    · exact seen.addEvents side.other .used
  · exact seen.addEvents side.other .set

theorem Backed.setControl (backed : r.Backed d) {side : Side}
    (active : (r.partner side).isActive = true) (mask : Mask) : (r.setControl side mask).Backed d :=
  (backed.modify _ side fun p => p.withControl active mask).addEvents side.other .control

theorem Backed.couple (backed : r.Backed d) {id : Identity} {conn : ConnId}
    (listed : Directory.get? d id = some conn) : (r.couple id conn).Backed d := by
  intro side
  cases side with
  | offering => exact (backed .offering).withEvents _
  | accepting => exact Partner.backed_active listed

theorem Backed.clear (backed : r.Backed d) (id : Identity) : (r.clear id).Backed d := by
  intro side
  cases side <;> simp only [Record.clear, partner] <;> split
  · exact (backed .offering).withEvents ∅
  · exact backed .offering
  · exact (backed .accepting).withEvents ∅
  · exact backed .accepting

/-- As `Backed`, but for the sides held over one connection. -/
def BackedBut (conn : ConnId) (commands : Directory) (r : Record) : Prop :=
  ∀ side, (r.partner side).conn ≠ some conn → (r.partner side).Backed commands

theorem BackedBut.release {conn : ConnId} (backed : r.BackedBut conn d) (side : Side) :
    (r.release side).BackedBut conn d := by
  intro other
  apply partner_release_of r side other (P := fun p => p.conn ≠ some conn → p.Backed d)
  · exact fun p _ => p.backed_deactivate d
  · exact fun p e old elsewhere => (old elsewhere).withEvents _
  · exact backed other

theorem Backed.release (backed : r.Backed d) (side : Side) : (r.release side).Backed d := by
  intro other
  apply partner_release_of r side other
  · exact Partner.backed_deactivate d
  · exact fun p e old => old.withEvents _
  · exact backed other

/-- Releasing the sides held over a connection makes up for striking it. -/
theorem Backed.releaseHeld (backed : r.Backed d) {left : Directory} {conn : ConnId}
    (struck : ∀ id, Directory.get? left id = (Directory.get? d id).filter (· != conn)) :
    (r.releaseHeld conn).2.Backed left := by
  have but : r.BackedBut conn left := by
    intro side elsewhere
    refine ⟨?_, (backed side).loose⟩
    intro c held
    rw [struck, (backed side).held c held]
    have apart : c ≠ conn := fun same => elsewhere (same ▸ held)
    simp [Option.filter_some, apart]
  rw [releaseHeld_record]
  intro side
  by_cases first : (r.partner .offering).conn = some conn
  · by_cases second : (r.partner .accepting).conn = some conn
    · simp only [if_pos first, if_pos second]
      exact (but.release .offering).release .accepting side (by cases side <;> simp)
    · simp only [if_pos first, if_neg second]
      exact but.release .offering side (by cases side <;> simp [second])
  · by_cases second : (r.partner .accepting).conn = some conn
    · simp only [if_neg first, if_pos second]
      exact but.release .accepting side (by cases side <;> simp [first])
    · simp only [if_neg first, if_neg second]
      exact but side (by cases side <;> simp [first, second])

end Record

namespace Broker

/-- Roster and table agree, but for the event channels among the pending connections. -/
structure Departing (pending : List ConnId) (b : Broker) : Prop where
  consistent : b.roster.Consistent
  proper : ∀ id c, Directory.get? b.roster.commands id = some c →
    id.isNobody = false ∧ id.isGeneral = false
  followed : ∀ id c, Directory.get? b.roster.channels id = some c →
    (∃ d, Directory.get? b.roster.commands id = some d) ∨ c ∈ pending
  backed : ∀ r ∈ b.table.records, r.Backed b.roster.commands

variable {b : Broker} {conn : ConnId}

theorem Departing.listed (agrees : b.Departing []) {id : Identity} (acts : b.caller conn = .ok id) :
    Directory.get? b.roster.commands id = some conn :=
  (agrees.consistent.commands id conn).mpr (Roster.identityOf?_eq_some.mp (caller_ok acts))

theorem Departing.absent {rest : List ConnId} (agrees : b.Departing (conn :: rest))
    (gone : b.roster.get? conn = none) : b.Departing rest := by
  refine ⟨agrees.consistent, agrees.proper, ?_, agrees.backed⟩
  intro id c listed
  rcases agrees.followed id c listed with registered | pending
  · exact .inl registered
  · rcases List.mem_cons.mp pending with rfl | later
    · obtain ⟨e, found, _⟩ := (agrees.consistent.channels id c).mp listed
      simp [gone] at found
    · exact .inr later

/-- A connection that is no processor's leaves; at most its listing as a channel goes with it. -/
theorem Departing.plain {rest : List ConnId} {entry : Entry} {roster : Roster}
    (agrees : b.Departing (conn :: rest)) (removed : b.roster.remove conn = (some entry, roster))
    (other : ∀ leaver, entry.identity = some leaver → entry.role ≠ .command) :
    { b with roster }.Departing rest := by
  obtain ⟨commands, channels⟩ := Roster.remove_spec agrees.consistent removed
  have found := Roster.get?_of_remove removed
  have same : ∀ id, Directory.get? roster.commands id = Directory.get? b.roster.commands id := by
    intro id
    rw [commands]
    refine (Directory.unlisted_filter ?_ id).symm
    intro id listed
    obtain ⟨known, role⟩ := agrees.consistent.commands.entry listed found
    exact other id known role
  refine ⟨agrees.consistent.remove removed, ?_, ?_, ?_⟩
  · intro id c listed
    exact agrees.proper id c (same id ▸ listed)
  · intro id c listed
    simp only [channels, Option.filter_eq_some_iff, bne_iff_ne] at listed
    simp only [same]
    rcases agrees.followed id c listed.1 with registered | pending
    · exact .inl registered
    · exact .inr ((List.mem_cons.mp pending).resolve_left listed.2)
  · intro r mem
    exact (agrees.backed r mem).mono fun id c listed => (same id).trans listed

/-- The connection of a processor leaves; its channel is now among those whose turn is to come. -/
theorem Departing.processor {rest : List ConnId} {entry : Entry} {roster : Roster}
    {leaver : Identity} (agrees : b.Departing (conn :: rest))
    (removed : b.roster.remove conn = (some entry, roster)) (known : entry.identity = some leaver)
    (role : entry.role = .command) :
    (b.struck conn roster).Departing ((b.struck conn roster).followers leaver ++ rest) := by
  obtain ⟨commands, channels⟩ := Roster.remove_spec agrees.consistent removed
  have found := Roster.get?_of_remove removed
  refine ⟨agrees.consistent.remove removed, ?_, ?_, ?_⟩
  · intro id c listed
    simp only [struck, commands, Option.filter_eq_some_iff] at listed
    exact agrees.proper id c listed.1
  · intro id c listed
    have before : Directory.get? b.roster.channels id = some c := by
      simp only [struck, channels, Option.filter_eq_some_iff] at listed
      exact listed.1
    rcases agrees.followed id c before with ⟨d, registered⟩ | pending
    · by_cases leaves : d = conn
      · -- The one clause that breaks: this channel has lost its processor, but its turn comes next.
        subst d
        obtain rfl : leaver = id :=
          Option.some.inj (known.symm.trans (agrees.consistent.commands.entry registered found).1)
        refine .inr (List.mem_append_left _ (List.mem_append_right _ ?_))
        simpa [Roster.channelOf?] using listed
      · refine .inl ⟨d, ?_⟩
        simp [struck, commands, registered, Option.filter_some, leaves]
    · rcases List.mem_cons.mp pending with rfl | later
      · obtain ⟨-, channel⟩ := agrees.consistent.channels.entry before found
        simp [role] at channel
      · exact .inr (List.mem_append_right _ later)
  · intro r mem
    obtain ⟨old, was, rfl⟩ := Table.mem_disconnect mem
    exact (agrees.backed old was).releaseHeld commands

/- The induction is on the cascade, and the pending list is part of the invariant; with nothing
pending it is the agreement of roster and table. -/
theorem Departs.agrees {last : Broker} {pending : List ConnId} {posts : List Post}
    (departs : Departs b pending last posts) (agrees : b.Departing pending) :
    last.Departing [] := by
  induction departs with
  | done => exact agrees
  | absent gone _ ih => exact ih (agrees.absent gone)
  | plain removed other _ ih => exact ih (agrees.plain removed other)
  | processor removed known role _ ih => exact ih (agrees.processor removed known role)

theorem Departing.withTable (agrees : b.Departing []) {table : Table}
    (backed : ∀ r ∈ table.records, r.Backed b.roster.commands) : { b with table }.Departing [] :=
  ⟨agrees.consistent, agrees.proper, agrees.followed, backed⟩

theorem Departing.register (agrees : b.Departing []) {id : Identity} {pid : UInt32}
    {roster : Roster} (accepted : b.roster.register conn id pid = .ok roster) :
    { b with roster }.Departing [] := by
  obtain ⟨somebody, particular, unlisted, commands, channels, -⟩ := Roster.register_ok accepted
  have kept : ∀ other c, Directory.get? b.roster.commands other = some c →
      Directory.get? roster.commands other = some c := by
    intro other c listed
    have apart : other ≠ id := by
      rintro rfl
      simp [unlisted] at listed
    rw [commands, Directory.get?_add unlisted, if_neg apart, listed]
  refine ⟨agrees.consistent.register accepted, ?_, ?_, ?_⟩
  · intro other c listed
    simp only [commands, Directory.get?_add unlisted] at listed
    split at listed
    · rename_i same
      subst other
      exact ⟨somebody, particular⟩
    · exact agrees.proper other c listed
  · intro other c listed
    simp only [channels] at listed
    rcases agrees.followed other c listed with ⟨d, registered⟩ | pending
    · exact .inl ⟨d, kept other d registered⟩
    · simp at pending
  · intro r mem
    exact (agrees.backed r mem).mono kept

theorem Departing.registerChannel (agrees : b.Departing []) {id : Identity} {roster : Roster}
    (accepted : b.roster.registerChannel conn id = .ok roster) :
    { b with roster }.Departing [] := by
  obtain ⟨registered, unlisted, commands, channels, -⟩ := Roster.registerChannel_ok accepted
  refine ⟨agrees.consistent.registerChannel accepted, ?_, ?_, ?_⟩ <;> simp only [commands]
  · exact agrees.proper
  · intro other c listed
    simp only [channels, Directory.get?_add unlisted] at listed
    split at listed
    · rename_i same
      subst other
      exact .inl registered
    · exact agrees.followed other c listed
  · exact agrees.backed

theorem Revised.backed {request : Signal} {r : Record} (revised : Revised b conn request r)
    (agrees : b.Departing []) : r.Backed b.roster.commands := by
  cases revised with
  | kept old => exact agrees.backed r old
  | offered acts => exact Record.backed_newOffer _ _ _ (agrees.listed acts)
  | coupled acts old => exact (agrees.backed _ old).couple (agrees.listed acts)
  | released old => exact (agrees.backed _ old).release _
  | reported old => exact (agrees.backed _ old).report _ _
  | restrained old active => exact (agrees.backed _ old).setControl active _
  | assigned old => exact (agrees.backed _ old).withValue _
  | alerted old => exact (agrees.backed _ old).addEvents _ _
  | cleared old => exact (agrees.backed _ old).clear _

theorem Handled.agrees {request : Signal} {h : Handling} (handled : Handled b conn request h)
    (agrees : b.Departing []) : h.broker.Departing [] := by
  have backed := fun r (mem : r ∈ h.broker.table.records) => (handled.revised mem).backed agrees
  cases handled with
  | registered accepted => exact agrees.register accepted
  | listening accepted => exact agrees.registerChannel accepted
  | _ => exact agrees.withTable backed

end Broker

/-- The connection that an event brings in. -/
def Occurrence.opened : Occurrence → Option ConnId
  | .connected conn _ => some conn
  | _ => none

namespace Broker

variable {b : Broker} {conn : ConnId}

/-- A connection that is live after an event was live before it or has just come in. -/
theorem listed_of_step {event : Occurrence} {c : ConnId}
    (listed : ((b.step event).1.roster.get? c).isSome) :
    (b.roster.get? c).isSome ∨ event.opened = some c := by
  cases event with
  | connected conn peer =>
    simp only [step, Roster.get?_insert] at listed
    split at listed
    · rename_i new
      exact .inr (congrArg some new.symm)
    · exact .inl listed
  | request conn request =>
    simp only [step, dispatch_broker] at listed
    exact .inl ((handle_handled b conn request).listed c ▸ listed)
  | malformed conn fault => exact .inl listed
  | disconnected conn =>
    obtain ⟨e, left⟩ := Option.isSome_iff_exists.mp listed
    exact .inl (Option.isSome_of_eq_some ((depart_departs b [conn]).entry left))

theorem Departing.step (agrees : b.Departing []) {event : Occurrence}
    (fresh : ∀ c, event.opened = some c → b.roster.get? c = none) :
    (b.step event).1.Departing [] := by
  cases event with
  | connected conn peer =>
    exact ⟨agrees.consistent.insert (fresh conn rfl) peer, agrees.proper,
      agrees.followed, agrees.backed⟩
  | request conn request =>
    simp only [Broker.step, dispatch_broker]
    exact (handle_handled b conn request).agrees agrees
  | malformed conn fault => exact agrees
  | disconnected conn =>
    apply (depart_departs b [conn]).agrees
    exact ⟨agrees.consistent, agrees.proper, fun id c listed =>
      .inl (by simpa using agrees.followed id c listed),
      agrees.backed⟩

/-- Each connection comes in once, and none of them is live yet. -/
structure Fresh (b : Broker) (events : List Occurrence) : Prop where
  distinct : (events.filterMap Occurrence.opened).Nodup
  unlisted : ∀ c ∈ events.filterMap Occurrence.opened, b.roster.get? c = none

theorem Fresh.first {event : Occurrence} {rest : List Occurrence}
    (fresh : b.Fresh (event :: rest)) (c : ConnId) (opened : event.opened = some c) :
    b.roster.get? c = none :=
  fresh.unlisted c (List.mem_filterMap.mpr ⟨event, List.mem_cons_self, opened⟩)

theorem Fresh.step {event : Occurrence} {rest : List Occurrence} (fresh : b.Fresh (event :: rest)) :
    (b.step event).1.Fresh rest := by
  obtain ⟨distinct, unlisted⟩ := fresh
  rw [List.filterMap_cons] at distinct unlisted
  constructor
  · split at distinct
    · exact distinct
    · exact distinct.of_cons
  · intro c later
    cases present : (b.step event).1.roster.get? c with
    | none => rfl
    | some e =>
      exfalso
      rcases listed_of_step (Option.isSome_of_eq_some present) with before | opened
      · have gone : b.roster.get? c = none := by
          apply unlisted
          split
          · exact later
          · exact List.mem_cons_of_mem _ later
        simp [gone] at before
      · simp only [opened, List.nodup_cons] at distinct
        exact distinct.1 later

theorem Departing.run (agrees : b.Departing []) {events : List Occurrence}
    (fresh : b.Fresh events) :
    (b.run events).1.Departing [] := by
  induction events generalizing b with
  | nil => exact agrees
  | cons event rest ih => exact ih (agrees.step fresh.first) fresh.step

theorem departing_new (capacity : Option Nat) (wording : Wording) :
    (new capacity wording).Departing [] := by
  refine ⟨Roster.consistent_empty, ?_, ?_, ?_⟩
  · intro id c listed
    simp [new, Directory.get?] at listed
  · intro id c listed
    simp [new, Directory.get?] at listed
  · intro r mem
    simp [new, Table.new] at mem

theorem fresh_new (capacity : Option Nat) (wording : Wording) {events : List Occurrence}
    (distinct : (events.filterMap Occurrence.opened).Nodup) : (new capacity wording).Fresh events :=
  ⟨distinct, fun _ _ => rfl⟩

/-- Roster and table agree, with nothing pending. -/
structure Agreement (b : Broker) : Prop where
  commands : ∀ id c, Directory.get? b.roster.commands id = some c ↔
    ∃ e, b.roster.get? c = some e ∧ e.identity = some id ∧ e.role = .command
  channels : ∀ id c, Directory.get? b.roster.channels id = some c ↔
    ∃ e, b.roster.get? c = some e ∧ e.identity = some id ∧ e.role = .events
  followed : ∀ id c, b.roster.channelOf? id = some c → b.roster.isRegistered id = true
  proper : ∀ id, b.roster.isRegistered id = true → id.isGeneral = false ∧ id.isNobody = false
  active : ∀ r ∈ b.table.records, ∀ side c, (r.partner side).conn = some c →
    Directory.get? b.roster.commands (r.partner side).id = some c
  inactive : ∀ r ∈ b.table.records, ∀ side, (r.partner side).conn = none →
    (r.partner side).control = ∅
  /-- A processor has one command connection. -/
  single : ∀ id c d, b.roster.identityOf? c = some id → b.roster.identityOf? d = some id → c = d
  /-- The connection of a side is live and acts for the identity of that side. -/
  live : ∀ r ∈ b.table.records, ∀ side c, (r.partner side).conn = some c →
    b.roster.identityOf? c = some (r.partner side).id

theorem Departing.agreement (agrees : b.Departing []) : b.Agreement where
  commands := agrees.consistent.commands
  channels := agrees.consistent.channels
  followed id c listed := by
    rcases agrees.followed id c listed with ⟨d, registered⟩ | pending
    · simp [Roster.isRegistered, Directory.contains, registered]
    · simp at pending
  proper id registered := by
    obtain ⟨c, listed⟩ := Option.isSome_iff_exists.mp registered
    exact (agrees.proper id c listed).symm
  active r mem side c held := (agrees.backed r mem side).held c held
  inactive r mem side loose := (agrees.backed r mem side).loose loose
  single id c d first second := by
    have listed := (agrees.consistent.commands id c).mpr (Roster.identityOf?_eq_some.mp first)
    have again := (agrees.consistent.commands id d).mpr (Roster.identityOf?_eq_some.mp second)
    exact Option.some.inj (listed.symm.trans again)
  live r mem side c held :=
    Roster.identityOf?_eq_some.mpr
      ((agrees.consistent.commands _ c).mp ((agrees.backed r mem side).held c held))

/-- Whatever the connections report, and whichever connections they name, roster and table agree
afterwards. -/
theorem run_agreement (capacity : Option Nat) (wording : Wording) (events : List Occurrence)
    (distinct : (events.filterMap Occurrence.opened).Nodup) :
    ((new capacity wording).run events).1.Agreement :=
  ((departing_new capacity wording).run (fresh_new capacity wording distinct)).agreement

/-- A processor with an event channel and a child offers a variable; its connection goes, the
child's with it, and what comes over them afterwards is too late. -/
theorem run_agreement_departure :
    let parent : Identity := ⟨2001, 0, 0⟩
    let events : List Occurrence :=
      [.connected ⟨1⟩ "", .request ⟨1⟩ (.registerProcessor parent 7),
        .connected ⟨2⟩ "", .request ⟨2⟩ (.registerEventChannel parent),
        .connected ⟨3⟩ "", .request ⟨3⟩ (.registerProcessor ⟨2002, 2001, 0⟩ 8),
        .request ⟨1⟩ (.matchOrMake "X" ⟨2002, 2001, 0⟩ parent),
          .request ⟨3⟩ (.matchOrMake "X" parent ⟨2002, 2001, 0⟩),
        .disconnected ⟨1⟩,
          .request ⟨3⟩ (.matchOrMake "Y" .general ⟨2002, 2001, 0⟩), .disconnected ⟨9⟩]
    (events.filterMap Occurrence.opened).Nodup ∧ ((new none {}).run events).1.Agreement := by
  intro parent events
  have distinct : (events.filterMap Occurrence.opened).Nodup := by decide
  exact ⟨distinct, run_agreement none {} events distinct⟩

end Broker
end SharedVariables
