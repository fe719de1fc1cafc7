import SharedVariables.Proofs.Seniority

/-! Brokers whose tables list their records in different orders. They answer every request alike and
send the same signals; only the farewells of one departure may come in another order. -/
namespace SharedVariables.Broker

structure Alike (b c : Broker) : Prop where
  table : b.table.Alike c.table
  roster : b.roster = c.roster
  wording : b.wording = c.wording

/-- The same answer, the same posts, and brokers that are alike. -/
structure SameHandling (h k : Handling) : Prop where
  outcome : h.outcome = k.outcome
  posts : h.posts = k.posts
  broker : h.broker.Alike k.broker

variable {b c d : Broker} {u : Table} {log : List Table.Issue}

theorem Alike.refl (b : Broker) : b.Alike b := ⟨.refl _, rfl, rfl⟩

theorem Alike.symm (alike : b.Alike c) :
    c.Alike b := ⟨alike.table.symm, alike.roster.symm, alike.wording.symm⟩

theorem Alike.trans (first : b.Alike c) (second : c.Alike d) : b.Alike d :=
  ⟨first.table.trans second.table, first.roster.trans second.roster,
    first.wording.trans second.wording⟩

theorem Alike.eq_withTable (alike : b.Alike c) : c = { b with table := c.table } := by
  obtain ⟨-, roster, wording⟩ := alike
  rw [roster, wording]

section Requests

variable (alike : b.table.Alike u)
include alike

theorem held_alike (sound : b.table.Sound) (conn : ConnId) (key : Key) :
    b.held conn key = { b with table := u }.held conn key := by
  unfold held
  have acts : b.caller conn = { b with table := u }.caller conn := rfl
  rw [acts]
  split
  · rfl
  · exact sound.activePartnerOf_alike alike key _

theorem record_alike (sound : b.table.Sound) (key : Key) :
    b.record key = { b with table := u }.record key := by
  simp only [record, sound.get?_alike alike]

theorem dump_alike (kept : b.table.Chronicled log) (format : DumpFormat) :
    b.dump format = { b with table := u }.dump format := by
  have text : b.dumpText = { b with table := u }.dumpText := by
    unfold dumpText
    rw [alike.size, kept.snapshot_alike alike]
  have json : b.dumpJson = { b with table := u }.dumpJson := by
    unfold dumpJson
    rw [kept.snapshot_alike alike]
  cases format with
  | text => exact congrArg (Text.cut Limits.stringField) text
  | json => exact congrArg (Text.cut Limits.stringField) json

theorem settle_same {first second : Except Fault Signal} (same : first = second) :
    SameHandling (b.settle first) ({ b with table := u }.settle second) :=
  ⟨same, rfl, alike, rfl, rfl⟩

theorem changeHeld_same (sound : b.table.Sound) (conn : ConnId) (key : Key)
    (change : Record → Side → Record) (reply : Record → Signal) :
    SameHandling (b.changeHeld conn key change reply)
      ({ b with table := u }.changeHeld conn key change reply) := by
  unfold changeHeld
  rw [held_alike alike sound]
  split
  · exact settle_same alike rfl
  · exact ⟨rfl, rfl, alike.update key _, rfl, rfl⟩

theorem matchOrMake_same (kept : b.table.Chronicled log) (conn : ConnId) (text : String)
    (wanted requester : Identity) :
    SameHandling (b.matchOrMake conn text wanted requester)
      ({ b with table := u }.matchOrMake conn text wanted requester) := by
  have acts : b.caller conn = { b with table := u }.caller conn := rfl
  unfold matchOrMake
  rw [acts]
  split
  · exact settle_same alike rfl
  · split
    · exact settle_same alike rfl
    · split
      · exact settle_same alike rfl
      · rename_i name _
        have same := kept.matchOrMake_alike alike name wanted requester conn
        simp only
        generalize b.table.matchOrMake name wanted requester conn = x at same
        generalize u.matchOrMake name wanted requester conn = y at same
        obtain ⟨first, v⟩ := x
        obtain ⟨second, w⟩ := y
        obtain ⟨outcome, left⟩ := same
        obtain rfl : first = second := outcome
        have size : v.size = w.size := left.size
        have capacity : v.capacity = w.capacity := left.capacity
        cases first with
        | full =>
          simp only [size, capacity]
          exact ⟨rfl, rfl, left, rfl, rfl⟩
        | matched | created => exact ⟨rfl, rfl, left, rfl, rfl⟩

theorem retract_same (sound : b.table.Sound) (conn : ConnId) (key : Key) :
    SameHandling (b.retract conn key) ({ b with table := u }.retract conn key) := by
  have acts : b.caller conn = { b with table := u }.caller conn := rfl
  unfold retract
  rw [acts]
  split
  · exact settle_same alike rfl
  · rename_i id _
    have outcome := sound.retract_alike alike key id
    simp only
    generalize b.table.retract key id = x at outcome
    generalize u.retract key id = y at outcome
    cases outcome with
    | refused => exact settle_same alike rfl
    | @done x y same =>
      obtain ⟨first, v⟩ := x
      obtain ⟨second, w⟩ := y
      obtain ⟨release, left⟩ := same
      obtain rfl : first = second := release
      exact ⟨rfl, rfl, left, rfl, rfl⟩

theorem addEvent_same (sound : b.table.Sound) (key : Key) (id : Identity) (events : Events) :
    SameHandling (b.addEvent key id events) ({ b with table := u }.addEvent key id events) := by
  have outcome := sound.addEvents_alike alike key id events
  have after := fun v (done : b.table.addEvents key id events = .ok v) => sound.addEvents done
  unfold addEvent
  simp only
  generalize b.table.addEvents key id events = x at outcome after
  generalize u.addEvents key id events = y at outcome
  cases outcome with
  | refused => exact settle_same alike rfl
  | @done v w left =>
    have found := (after v rfl).get?_alike left key
    refine ⟨rfl, ?_, left, rfl, rfl⟩
    simp only [found]
    rfl

theorem assignValue_same (sound : b.table.Sound) (conn : ConnId) (key : Key) (payload : Octets) :
    SameHandling (b.assignValue conn key payload)
      ({ b with table := u }.assignValue conn key payload) := by
  unfold assignValue
  rw [held_alike alike sound]
  split
  · exact settle_same alike rfl
  · exact ⟨rfl, rfl, alike.update key _, rfl, rfl⟩

/-- Every request is answered alike and has the same consequences. -/
theorem handle_same (kept : b.table.Chronicled log) (conn : ConnId) (request : Signal) :
    SameHandling (b.handle conn request) ({ b with table := u }.handle conn request) := by
  have held := held_alike alike kept.sound conn
  have found := record_alike alike kept.sound
  cases request with
  | registerProcessor id pid =>
    simp only [handle, registerProcessor]
    split
    · exact settle_same alike rfl
    · exact ⟨rfl, rfl, alike, rfl, rfl⟩
  | registerEventChannel id =>
    simp only [handle, registerEventChannel]
    split
    · exact settle_same alike rfl
    · exact ⟨rfl, rfl, alike, rfl, rfl⟩
  | matchOrMake text wanted requester =>
    exact matchOrMake_same alike kept conn text wanted requester
  | retractOffer key => exact retract_same alike kept.sound conn key
  | findPairingKey key => exact settle_same alike (by rw [kept.pairingKey?_alike alike])
  | mayUse key _ | maySet key _ => exact settle_same alike (by rw [held key])
  | setState key used =>
    simp only [handle, setState]
    exact changeHeld_same alike kept.sound conn key _ _
  | setControl key mask =>
    simp only [handle, setControl]
    exact changeHeld_same alike kept.sound conn key _ _
  | getState key | getControl key | getCoupling key | getVarname key | findOfferingId key =>
    exact settle_same alike (by rw [found key])
  | getValue key => exact settle_same alike (by unfold getValue; rw [held key])
  | assignValue key payload => exact assignValue_same alike kept.sound conn key payload
  | getEvents id => exact settle_same alike (by rw [kept.events?_alike alike])
  | clearAllEvents id =>
    obtain ⟨same, left⟩ := alike.clearEvents id
    exact ⟨congrArg (Except.ok ∘ Signal.allEventsCleared) same, rfl, left, rfl, rfl⟩
  | addEvent key id events => exact addEvent_same alike kept.sound key id events
  | getOfferingProcs target => exact settle_same alike (by rw [kept.offeringProcessors_alike alike])
  | getOfferedVars target offerer =>
    exact settle_same alike (by rw [kept.offeredVariables_alike alike])
  | printDatabase format =>
    refine settle_same alike ?_
    unfold printDatabase
    split
    · rw [dump_alike alike kept]
    · rfl
  | _ => exact settle_same alike rfl

end Requests

theorem Alike.request (alike : b.Alike c) (kept : b.table.Chronicled log) (conn : ConnId)
    (request : Signal) :
    (b.step (.request conn request)).2 = (c.step (.request conn request)).2 ∧
      (b.step (.request conn request)).1.Alike (c.step (.request conn request)).1 := by
  have same := handle_same alike.table kept conn request
  rw [← alike.eq_withTable] at same
  obtain ⟨outcome, posts, after⟩ := same
  have reply : (b.dispatch conn request).1 = (c.dispatch conn request).1 := by
    simp only [dispatch, outcome]
    split <;> rfl
  simp only [step, dispatch_broker, dispatch_posts, posts, reply, send, after.roster]
  exact ⟨trivial, after⟩

theorem farewells_alike (alike : b.Alike c) (conn : ConnId) (roster : Roster) (leaver : Identity) :
    (b.farewells conn roster leaver).Perm (c.farewells conn roster leaver) := by
  have released := (alike.table.disconnect conn).1
  have told : (fun r : Release => { b with roster }.announce r.key r.remaining leaver) =
      fun r => { c with roster }.announce r.key r.remaining leaver := rfl
  unfold farewells
  rw [told]
  exact released.flatMap_right _

theorem struck_alike (alike : b.Alike c) (conn : ConnId) (roster : Roster) :
    (b.struck conn roster).Alike (c.struck conn roster) :=
  ⟨(alike.table.disconnect conn).2, rfl, alike.wording⟩

/- The roster decides who leaves and when, so both cascades take the same course. -/
theorem Departs.alike {last other : Broker} {pending : List ConnId} {posts others : List Post}
    (first : Departs b pending last posts) (second : Departs c pending other others)
    (alike : b.Alike c) :
    last.Alike other ∧ posts.Perm others ∧ hungUp posts = hungUp others := by
  induction first generalizing c other others with
  | done b =>
    cases second with
    | done => exact ⟨alike, .refl _, rfl⟩
  | absent gone _ ih =>
    rw [alike.roster] at gone
    cases second with
    | absent _ later => exact ih later alike
    | plain removed | processor removed =>
      have found := Roster.get?_of_remove removed
      simp [gone] at found
  | @plain b _ conn _ posts entry roster removed ordinary _ ih =>
    rw [alike.roster] at removed
    cases second with
    | absent gone =>
      have found := Roster.get?_of_remove removed
      simp [gone] at found
    | plain again _ later =>
      obtain ⟨-, rfl⟩ := Prod.mk.inj (removed.symm.trans again)
      obtain ⟨left, sent, gone⟩ := ih later ⟨alike.table, rfl, alike.wording⟩
      exact ⟨left, sent.cons _, congrArg (conn :: ·) gone⟩
    | processor again known role =>
      obtain ⟨same, -⟩ := Prod.mk.inj (removed.symm.trans again)
      obtain rfl := Option.some.inj same
      exact absurd role (ordinary _ known)
  | @processor b _ conn rest posts entry roster leaver removed known role _ ih =>
    rw [alike.roster] at removed
    cases second with
    | absent gone =>
      have found := Roster.get?_of_remove removed
      simp [gone] at found
    | plain again ordinary =>
      obtain ⟨same, -⟩ := Prod.mk.inj (removed.symm.trans again)
      obtain rfl := Option.some.inj same
      exact absurd role (ordinary _ known)
    | @processor _ _ _ _ others _ _ name again named _ later =>
      obtain ⟨same, rfl⟩ := Prod.mk.inj (removed.symm.trans again)
      obtain rfl := Option.some.inj same
      obtain rfl : leaver = name := Option.some.inj (known.symm.trans named)
      have next := struck_alike alike conn roster
      have followers :
          (b.struck conn roster).followers leaver = (c.struck conn roster).followers leaver := rfl
      rw [← followers] at later
      obtain ⟨left, sent, gone⟩ := ih later next
      refine ⟨left, ((farewells_alike alike conn roster leaver).append sent).cons _, ?_⟩
      rw [hungUp_visit, hungUp_visit, gone]

/-- What brokers that are alike send when something happens: the same, but for the order of the
farewells when somebody departs. -/
structure Echoes (event : Occurrence) (posts others : List Post) : Prop where
  same : (∀ conn, event ≠ .disconnected conn) → posts = others
  perm : posts.Perm others
  hungUp : hungUp posts = hungUp others

theorem Alike.step (alike : b.Alike c) (kept : b.table.Chronicled log) (event : Occurrence) :
    Echoes event (b.step event).2 (c.step event).2 ∧ (b.step event).1.Alike (c.step event).1 := by
  have exactly : (b.step event).2 = (c.step event).2 →
      Echoes event (b.step event).2 (c.step event).2 := by
    intro same
    rw [same]
    exact ⟨fun _ => rfl, .refl _, rfl⟩
  cases event with
  | connected conn peer =>
    exact ⟨exactly rfl, alike.table, congrArg (·.insert conn peer) alike.roster, alike.wording⟩
  | request conn request =>
    obtain ⟨posts, after⟩ := alike.request kept conn request
    exact ⟨exactly posts, after⟩
  | malformed conn fault => exact ⟨exactly (by simp only [Broker.step, send, alike.roster]), alike⟩
  | disconnected conn =>
    obtain ⟨left, sent, gone⟩ := (depart_departs b [conn]).alike (depart_departs c [conn]) alike
    exact ⟨⟨fun other => absurd rfl (other conn), sent, gone⟩, left⟩

/-- The broker handles some events, and before each the records are listed in another order. With
each event comes what was sent. -/
inductive Wanders : Broker → List (Occurrence × List Post) → Broker → Prop where
  | done (b : Broker) : Wanders b [] b
  | step {b c last : Broker} {event : Occurrence} {rest : List (Occurrence × List Post)}
      (shuffled : b.Alike c)
      (later : Wanders (c.step event).1 rest last) :
        Wanders b ((event, (c.step event).2) :: rest) last

theorem Wanders.append {told more : List (Occurrence × List Post)} {mid last : Broker}
    (first : Wanders b told mid) (second : Wanders mid more last) :
    Wanders b (told ++ more) last := by
  induction first with
  | done => exact second
  | step shuffled _ ih => exact .step shuffled (ih second)

/-- A run is one of them. -/
theorem wanders_run (b : Broker) (events : List Occurrence) :
    ∃ told, Wanders b told (b.run events).1 ∧ told.map (·.1) = events ∧
      told.flatMap (·.2) = (b.run events).2 := by
  induction events generalizing b with
  | nil => exact ⟨[], .done b, rfl, rfl⟩
  | cons event rest ih =>
    obtain ⟨told, wanders, same, sent⟩ := ih (b.step event).1
    refine ⟨_, .step (.refl b) wanders, congrArg (event :: ·) same, ?_⟩
    rw [List.flatMap_cons, sent]
    rfl

theorem Wanders.alike {told others : List (Occurrence × List Post)} {last other : Broker}
    (first : Wanders b told last) (second : Wanders c others other) (alike : b.Alike c)
    (kept : b.table.Chronicled log) (same : told.map (·.1) = others.map (·.1)) :
    last.Alike other ∧ List.Forall₂ (fun x y => Echoes x.1 x.2 y.2) told others := by
  induction first generalizing c others other log with
  | done b =>
    cases second with
    | done => exact ⟨alike, .nil⟩
    | step => simp at same
  | @step b d last event rest shuffled _ ih =>
    cases second with
    | done => simp at same
    | @step _ e _ again others shuffled' later =>
      obtain ⟨rfl, rest_same⟩ := List.cons.inj same
      -- Both were listed anew, and are alike as before.
      have near : d.Alike e := (shuffled.symm.trans alike).trans shuffled'
      have there := kept.alike shuffled.table
      obtain ⟨echo, next⟩ := near.step there event
      obtain ⟨ops, done⟩ := step_performs there.sound event
      have kept' := there.performAll ops
      rw [← done] at kept'
      obtain ⟨left, echoes⟩ := ih later next kept' rest_same
      exact ⟨left, .cons echo echoes⟩

/-- The order in which records are listed shows nowhere. Every table that operations lead to answers
as it would with its records in any other order, and any operation leaves the same records. Two
brokers that are told the same, and list their records anew before each event as they please, send
the same, but for the order of the farewells of one departure. -/
theorem answers_independent_of_order (capacity : Option Nat) (wording : Wording) :
    (∀ ops u, ((Table.new capacity).performAll ops).Alike u →
      ((Table.new capacity).performAll ops).SameAnswers u) ∧
    (∀ told others last other, Wanders (new capacity wording) told last →
      Wanders (new capacity wording) others other →
      told.map (·.1) = others.map (·.1) →
        last.Alike other ∧ List.Forall₂ (fun x y => Echoes x.1 x.2 y.2) told others) ∧
    ∀ events, ∃ told, Wanders (new capacity wording) told ((new capacity wording).run events).1 ∧
      told.map (·.1) = events ∧ told.flatMap (·.2) = ((new capacity wording).run events).2 := by
  refine ⟨?_, ?_, wanders_run (new capacity wording)⟩
  · intro ops u alike
    exact (Table.chronicled_run capacity ops).sameAnswers alike
  · intro told others last other first second same
    exact first.alike second (.refl _) (Table.chronicled_new capacity) same

theorem alike_reverse (b : Broker) :
    b.Alike { b with table := { b.table with records := b.table.records.reverse } } :=
  ⟨⟨(List.reverse_perm _).symm, rfl, rfl, rfl⟩, rfl, rfl⟩

/-- A processor offers two variables. Whichever is listed first, both are reported, in the order of
the offers. -/
theorem answers_independent_reversed :
    let id : Identity := ⟨2001, 0, 0⟩
    let target : Identity := ⟨2002, 0, 0⟩
    let events : List Occurrence :=
      [.connected ⟨1⟩ "", .request ⟨1⟩ (.registerProcessor id 7),
        .request ⟨1⟩ (.matchOrMake "X" target id),
        .request ⟨1⟩ (.matchOrMake "Y" target id)]
    let b := ((new none {}).run events).1
    let c : Broker := { b with table := { b.table with records := b.table.records.reverse } }
    let asked : Occurrence := .request ⟨1⟩ (.getOfferedVars target id)
    b.Alike c ∧ b ≠ c ∧ b.table.SameAnswers c.table ∧
      ∃ told, told.map (·.1) = events ∧
        Wanders (new none {}) (told ++ [(asked, (b.step asked).2)]) (b.step asked).1 ∧
        Wanders (new none {}) (told ++ [(asked, (c.step asked).2)]) (c.step asked).1 ∧
        List.Forall₂ (fun x y => Echoes x.1 x.2 y.2) (told ++ [(asked, (b.step asked).2)])
          (told ++ [(asked, (c.step asked).2)]) := by
  intro id target events b c asked
  have alike : b.Alike c := alike_reverse b
  obtain ⟨tables, runs, -⟩ := answers_independent_of_order none {}
  refine ⟨alike, by decide +kernel, ?_, ?_⟩
  · obtain ⟨ops, done⟩ : ∃ ops, b.table = (Table.new none).performAll ops :=
      run_performs (Table.sound_new none) events
    have listed : ((Table.new none).performAll ops).Alike c.table := by
      rw [← done]
      exact alike.table
    rw [done]
    exact tables ops c.table listed
  · obtain ⟨told, wanders, same, -⟩ := wanders_run (new none {}) events
    have first := wanders.append (.step (.refl b) (.done (b.step asked).1))
    have second := wanders.append (.step alike (.done (c.step asked).1))
    exact ⟨told, same, first, second, (runs _ _ _ _ first second (by simp)).2⟩

end SharedVariables.Broker
