import SharedVariables.Proofs.Gaps
import SharedVariables.Proofs.PendingEvents
import SharedVariables.Proofs.Tidings

/-! Those that stay behind. Whoever shares a variable with a processor that departs or withdraws,
and stays, finds the event on the record; an interpreter that listens is told besides, once for each
partner it lost. -/
namespace SharedVariables

namespace Switchboard

variable {s : Switchboard} {c conn : ConnId} {l : Line}

theorem carry_deliver_self (listed : (s.roster.get? c).isSome) (found : s.line? c = some l)
    (reading : l.reading = true) (room : l.queue.length < l.capacity) (signal : Signal) :
    (s.carry (.deliver c signal)).line? c = some { l with queue := l.queue ++ [signal] } := by
  have offered : (l.offer signal).2 = { l with queue := l.queue ++ [signal] } := by
    simp [Line.offer, reading, Nat.not_le.mpr room]
  rw [carry, send_of_listed listed found, ← offered]
  exact s.line?_setLine_self c _

theorem carry_hangUp (s : Switchboard) (other : c ≠ conn) :
    (s.carry (.hangUp conn)).line? c = s.line? c ∧
      (s.carry (.hangUp conn)).roster.get? c = s.roster.get? c := by
  simp only [carry, remove]
  split
  · exact ⟨rfl, rfl⟩
  · rename_i entry roster removed
    refine ⟨line?_onLine { s with roster } conn () _ other, ?_⟩
    rw [roster_onLine, Roster.get?_remove removed, if_neg other]

end Switchboard

namespace Broker

variable {b last : Broker} {conn c : ConnId} {key : Key} {pending : List ConnId} {posts : List Post}

/-- Posts fill the queue of a connection that they do not end, as long as there is room. -/
theorem queue_carried {s : Switchboard} {l : Line} (listed : (s.roster.get? c).isSome)
    (found : s.line? c = some l) (reading : l.reading = true) (stays : c ∉ hungUp posts)
    (room : l.queue.length + (received c posts).length ≤ l.capacity) :
    (posts.foldl Switchboard.carry s).line? c =
      some { l with queue := l.queue ++ received c posts } := by
  induction posts generalizing s l with
  | nil => simpa [received] using found
  | cons post rest ih =>
    rw [List.foldl_cons]
    cases post with
    | hangUp conn =>
      have later : c ∉ conn :: hungUp rest := stays
      rw [List.mem_cons, not_or] at later
      obtain ⟨line, entry⟩ := s.carry_hangUp later.1
      exact ih (entry ▸ listed) (line.trans found) reading later.2 room
    | deliver conn signal =>
      have listed' : ((s.carry (.deliver conn signal)).roster.get? c).isSome := by
        rw [Switchboard.carry, Switchboard.roster_send]
        exact listed
      by_cases here : conn = c
      · subst conn
        have more : received c (.deliver c signal :: rest) = signal :: received c rest := by
          simp [received, Post.signalFor?]
        rw [more, List.length_cons] at room
        rw [more, List.append_cons]
        have next := Switchboard.carry_deliver_self listed found reading (by omega) signal
        refine ih listed' next reading stays ?_
        simp only [List.length_append, List.length_singleton]
        omega
      · have same : received c (.deliver conn signal :: rest) = received c rest := by
          simp [received, Post.signalFor?, here]
        rw [same] at room ⊢
        exact ih listed' ((s.line?_send conn signal (Ne.symm here)).trans found) reading stays room

/-- A record has lost a side, and the other side is still active. -/
structure Parted (b last : Broker) (key : Key) (r s : Record) (side : Side) : Prop where
  before : b.table.get? key = some r
  after : last.table.get? key = some s
  held : (r.partner side).isActive = true
  vacated : (s.partner side).isActive = false
  stays : (s.partner side.other).isActive = true

theorem Lost.parted_iff {roots visited : List ConnId} {r s : Record} {side : Side}
    (lost : b.Lost roots visited last) (upkept : b.Upkept pending) :
    Parted b last key r s side ↔
      b.table.get? key = some r ∧ r.remains visited = some s ∧ r.parting visited = some side := by
  have found : last.table.get? key = (b.table.get? key).bind (Record.remains visited) := by
    rw [lost.left, without, upkept.sound.get?_without]
  constructor
  · rintro ⟨before, after, held, vacated, stays⟩
    rw [found, before, Option.bind_some] at after
    rw [Record.partner_remains after] at vacated stays
    refine ⟨before, after, Record.parting_eq_some.mpr ?_⟩
    rw [Side.other_other] at stays
    cases lost : (r.partner side).isOver visited <;> cases follows :
      (r.partner side.other).isOver visited <;> simp_all
  · rintro ⟨before, left, parts⟩
    obtain ⟨gone, kept, active⟩ := Record.parting_eq_some.mp parts
    refine ⟨before, by rw [found, before, Option.bind_some, left], ?_, ?_, ?_⟩
    · obtain ⟨c, -, held⟩ := Partner.isOver_iff.mp gone
      simp [Partner.isActive, held]
    · rw [Record.partner_remains left, if_pos gone]
      rfl
    · rw [Record.partner_remains left, Side.other_other]
      simp [kept, gone, active]

/-- The event channel of a processor goes with its processor or on its own, and on its own it takes
nothing along. -/
theorem Lost.channel_stays {visited : List ConnId} {r : Record} {side : Side}
    (lost : b.Lost [conn] visited last) (upkept : b.Upkept []) (mem : r ∈ b.table.records)
    (parts : r.parting visited = some side)
    (channel : b.roster.channelOf? (r.partner side.other).id = some c) : c ∉ visited := by
  obtain ⟨gone, kept, active⟩ := Record.parting_eq_some.mp parts
  obtain ⟨d, held⟩ := Option.isSome_iff_exists.mp active
  have command := (upkept.agrees.backed r mem side.other).held d held
  obtain ⟨e, found, known, role⟩ := (upkept.agrees.consistent.channels _ c).mp channel
  rw [lost.doomed]
  intro doomed
  cases doomed with
  | root root =>
    obtain rfl := List.mem_singleton.mp root
    -- The connection that went away is no processor's, so nothing follows it; but a command
    -- connection did.
    have alone : ∀ x, b.roster.Doomed [c] x → x = c := by
      intro x doomed
      induction doomed with
      | root mem => exact List.mem_singleton.mp mem
      | follow _ follows ih =>
        obtain rfl := ih
        obtain ⟨id, acts, -⟩ := follows
        obtain ⟨f, again, -, command⟩ := Roster.identityOf?_eq_some.mp acts
        obtain rfl := Option.some.inj (found.symm.trans again)
        simp [role] at command
    obtain ⟨x, left, was⟩ := Partner.isOver_iff.mp gone
    obtain rfl := alone x ((lost.doomed x).mp left)
    have listed := (upkept.agrees.backed r mem side).held x was
    have other := (upkept.agrees.consistent.commands.entry listed found).2
    simp [role] at other
  | @follow leader _ leaves follows =>
    obtain ⟨id, acts, listed | ⟨other, -, acts⟩⟩ := follows
    · have same := (upkept.agrees.consistent.channels.entry listed found).1
      obtain rfl := Option.some.inj (same.symm.trans known)
      have again := (upkept.agrees.consistent.commands _ leader).mpr
        (Roster.identityOf?_eq_some.mp acts)
      obtain rfl := Option.some.inj (command.symm.trans again)
      have gone := Partner.isOver_iff.mpr ⟨d, (lost.doomed d).mpr leaves, held⟩
      simp [kept] at gone
    · obtain ⟨f, again, -, command⟩ := Roster.identityOf?_eq_some.mp acts
      obtain rfl := Option.some.inj (found.symm.trans again)
      simp [role] at command

/-- What those that stay are told of the partners they lost. -/
structure SurvivorsTold (b last : Broker) (posts : List Post) : Prop where
  marked : ∀ {key r s side}, Parted b last key r s side →
    (s.partner side.other).events.offerRetracted = true
  /-- A processor that stays keeps its event channel. -/
  listening : ∀ {key r s side}, Parted b last key r s side →
    last.roster.channelOf? (s.partner side.other).id = b.roster.channelOf? (s.partner side.other).id
  live : ∀ {key r s side c}, Parted b last key r s side →
    last.roster.channelOf? (s.partner side.other).id = some c → (last.roster.get? c).isSome
  told : ∀ {key r s side}, Parted b last key r s side → ∀ c, (last.roster.get? c).isSome →
    leavers key (received c posts) =
      if last.roster.Hears (s.partner side.other).id c then [(r.partner side).id] else []
  /-- Nothing is said of records that have not lost a side. -/
  only : ∀ c key leaver, (last.roster.get? c).isSome →
    .offerRetracted key leaver ∈ received c posts →
    ∃ r s side, Parted b last key r s side
  /-- What is sent to a connection that stays waits in its queue, if there is room. -/
  queued : ∀ (board : Switchboard) c l, (last.roster.get? c).isSome → (board.roster.get? c).isSome →
    board.line? c = some l → l.reading = true →
      l.queue.length + (received c posts).length ≤ l.capacity →
    (posts.foldl Switchboard.carry board).line? c =
      some { l with queue := l.queue ++ received c posts }

theorem Lost.survivors (lost : b.Lost [conn] (hungUp posts) last) (upkept : b.Upkept [])
    (departs : Departs b [conn] last posts) (consistent : last.roster.Consistent) :
    SurvivorsTold b last posts := by
  have told : ∀ {c}, (last.roster.get? c).isSome → ∀ key,
      leavers key (received c posts) = b.tidings (hungUp posts) c key :=
    fun live key => departs.told (upkept.expecting [conn]) live key
  have partner : ∀ {key r s side}, Parted b last key r s side →
      s.partner side.other = (r.partner side.other).addEvents .retracted := by
    intro key r s side parted
    obtain ⟨-, left, parts⟩ := (lost.parted_iff upkept).mp parted
    obtain ⟨gone, kept, -⟩ := Record.parting_eq_some.mp parts
    rw [Record.partner_remains left, Side.other_other]
    simp [gone, kept]
  refine ⟨?_, ?_, fun _ => consistent.live_channel, ?_, ?_, ?_⟩
  · intro key r s side parted
    rw [partner parted]
    exact Bool.or_true _
  · intro key r s side parted
    obtain ⟨before, -, parts⟩ := (lost.parted_iff upkept).mp parted
    have same : (s.partner side.other).id = (r.partner side.other).id := by rw [partner parted]; rfl
    rw [same, lost.left]
    ext c
    rw [without, Roster.channelOf?_without upkept.single]
    exact and_iff_right_of_imp (lost.channel_stays upkept (Table.mem_of_get? before) parts)
  · intro key r s side parted c live
    obtain ⟨before, -, parts⟩ := (lost.parted_iff upkept).mp parted
    have same : (s.partner side.other).id = (r.partner side.other).id := by rw [partner parted]; rfl
    have hears := Roster.hears_without upkept.single (lost.live live).1 (r.partner side.other).id
    rw [told live, tidings, before, Option.elim_some, parts, same, lost.left]
    simp only [news, without, hears]
  · intro c key leaver live named
    rw [← mem_leavers, told live, tidings] at named
    cases before : b.table.get? key with
    | none => simp [before] at named
    | some r =>
      rw [before, Option.elim_some] at named
      cases parts : r.parting (hungUp posts) with
      | none => simp [parts, news] at named
      | some side =>
        obtain ⟨-, kept, active⟩ := Record.parting_eq_some.mp parts
        obtain ⟨s, left⟩ := Option.ne_none_iff_exists'.mp (Record.remains_of_stays kept active)
        exact ⟨r, s, side, (lost.parted_iff upkept).mpr ⟨before, left, parts⟩⟩
  · intro board c l live listed found reading room
    exact queue_carried listed found reading (lost.live live).1 room

theorem leavers_of_kind {signals : List Signal}
    (kinds : ∀ signal ∈ signals, signal.kind ≠ .offerRetracted) :
    leavers key signals = [] := by
  rw [List.eq_nil_iff_forall_not_mem]
  intro leaver named
  exact kinds _ (mem_leavers.mp named) rfl

theorem leavers_reply (b last : Broker) (conn : ConnId) (about key : Key) (c : ConnId) :
    leavers key (received c (last.send conn (b.dispatch conn (.retractOffer about)).1)) = [] := by
  apply leavers_of_kind
  intro signal mem
  rw [received_send] at mem
  split at mem
  · have kind : signal.kind = .retractResult := by
      rw [List.mem_singleton.mp mem, kind_dispatch]; rfl
    simp [kind]
  · simp at mem

theorem hungUp_send (b : Broker) (conn : ConnId) (signal : Signal) :
    hungUp (b.send conn signal) = [] := by
  unfold send
  split <;> rfl

theorem hungUp_append (first second : List Post) :
    hungUp (first ++ second) = hungUp first ++ hungUp second :=
  List.filterMap_append

theorem Parted.withdrawn {table : Table} {id : Identity} {r s : Record} {side : Side} {about : Key}
    (parted : Parted b { b with table } key r s side) (sound : b.table.Sound)
    (done : table = b.table.perform (.retract about id)) :
    key = about ∧ r.activeSideOf? id = some side ∧ s = r.release side := by
  obtain ⟨before, after, held, vacated, stays⟩ := parted
  obtain rfl : r.key = key := by simpa using List.find?_some before
  simp only [done] at after
  have left := sound.fate_of_get? (Table.mem_of_get? before) after
  simp only [Table.fate] at left
  split at left
  · rename_i here
    unfold Record.withdrawn at left
    split at left
    · rename_i own plays
      obtain ⟨rfl, -⟩ := Option.guard_eq_some_iff.mp left
      have same : side = own := by
        refine Classical.byContradiction fun apart => ?_
        simp [Partner.isActive, apart] at vacated held
        simp [vacated] at held
      exact ⟨here, same ▸ plays, same ▸ rfl⟩
    · obtain rfl := Option.some.inj left
      simp [held] at vacated
  · obtain rfl := Option.some.inj left
    simp [held] at vacated

theorem retract_ok {t u : Table} {id : Identity} {release : Release}
    (done : t.retract key id = .ok (release, u)) :
    ∃ r side, t.get? key = some r ∧ r.activeSideOf? id = some side ∧ (r.partner side).id = id ∧
      release.remaining = (r.departure side).remaining ∧ u = t.perform (.retract key id) := by
  have performed : u = t.perform (.retract key id) := by simp [Table.perform, done, Except.toOption]
  unfold Table.retract at done
  split at done
  · simp at done
  · rename_i r side active
    obtain ⟨found, plays, -⟩ := Table.activePartnerOf_ok active
    rw [Table.activePartnerOf_of_get? found] at active
    have own : r.activeSideOf? id = some side := by
      split at active
      · rename_i own
        rw [own, (Prod.mk.inj (Except.ok.inj active)).2]
      · simp at active
    refine ⟨r, side, found, own, plays, ?_, performed⟩
    simp only at done
    split at done <;> obtain ⟨rfl, -⟩ := Prod.mk.inj (Except.ok.inj done) <;> rfl

theorem parted_of_withdrawn {id : Identity} {r : Record} {side : Side} (sound : b.table.Sound)
    (found : b.table.get? key = some r) (plays : r.activeSideOf? id = some side)
    (stays : (r.partner side.other).isActive = true) :
    Parted b { b with table := b.table.perform (.retract key id) } key r (r.release side) side := by
  have here : r.key = key := by simpa using List.find?_some found
  have kept : ((r.release side).partner side.other).isActive = true := by
    rw [Partner.isActive, Record.conn_release, if_neg side.other_ne]
    exact stays
  refine ⟨found, ?_, (Record.activeSideOf?_eq_some plays).2, by simp [Partner.isActive], kept⟩
  have attended : (r.release side).coupling ≠ .uncoupled := by
    simp [Record.uncoupled_release, stays]
  have left : b.table.fate (.retract key id) r = some (r.release side) := by
    simp [Table.fate, here, Record.withdrawn, plays, attended]
  rw [← here] at left ⊢
  exact Table.get?_perform sound (Table.mem_of_get? found) left

theorem Upkept.survivors_of_retract (upkept : b.Upkept []) {id : Identity} {release : Release}
    {table : Table} (done : b.table.retract key id = .ok (release, table)) {reply : List Post}
    (settled : hungUp reply = []) (silent : ∀ key c, leavers key (received c reply) = []) :
    SurvivorsTold b { b with table } (b.announce key release.remaining id ++ reply) := by
  obtain ⟨r, own, found, plays, named, remaining, performed⟩ := retract_ok done
  have calm : hungUp (b.announce key release.remaining id ++ reply) = [] := by
    rw [hungUp_append, hungUp_announce, settled]
    rfl
  have told : ∀ {c}, (b.roster.get? c).isSome → ∀ about,
      leavers about (received c (b.announce key release.remaining id ++ reply)) =
        if key = about then release.remaining.elim [] fun p =>
          if b.roster.Hears p c then [id] else [] else [] := by
    intro c live about
    rw [received_append, leavers_append, silent, List.append_nil, leavers_announce live]
  -- The record under the key is the only one to lose a side, and it loses the caller's.
  have only : ∀ {about u s side}, Parted b { b with table } about u s side →
      about = key ∧ u = r ∧ side = own ∧ s = r.release own ∧
        (r.partner own.other).isActive = true := by
    intro about u s side parted
    obtain ⟨rfl, again, rfl⟩ := parted.withdrawn upkept.sound performed
    obtain rfl := Option.some.inj (found.symm.trans parted.before)
    obtain rfl := Option.some.inj (plays.symm.trans again)
    have stays := parted.stays
    rw [Partner.isActive, Record.conn_release, if_neg own.other_ne] at stays
    exact ⟨rfl, rfl, rfl, rfl, stays⟩
  refine ⟨?_, fun _ => rfl, fun _ => upkept.agrees.consistent.live_channel, ?_, ?_, ?_⟩
  · intro about u s side parted
    obtain ⟨rfl, rfl, rfl, rfl, stays⟩ := only parted
    rw [Record.partner_release, if_neg side.other_ne, if_pos stays]
    exact Bool.or_true _
  · intro about u s side parted c live
    obtain ⟨rfl, rfl, rfl, rfl, stays⟩ := only parted
    have same : ((u.release side).partner side.other).id = (u.partner side.other).id := by
      rw [Record.partner_release, if_neg side.other_ne, if_pos stays]
      rfl
    rw [told live, if_pos rfl, remaining, Record.departure]
    simp only [stays, if_true, Option.elim_some, same, named]
  · intro c about leaver live mentioned
    rw [← mem_leavers, told live] at mentioned
    split at mentioned
    · rename_i here
      subst about
      by_cases stays : (r.partner own.other).isActive = true
      · exact ⟨r, _, own, performed ▸ parted_of_withdrawn upkept.sound found plays stays⟩
      · simp [remaining, Record.departure, stays] at mentioned
    · simp at mentioned
  · intro board c l live listed line reading room
    exact queue_carried listed line reading (by simp [calm]) room

theorem survivors_of_settled {reply : List Post} (settled : hungUp reply = [])
    (silent : ∀ key c, leavers key (received c reply) = []) : SurvivorsTold b b reply := by
  have never : ∀ {key r s side}, ¬ Parted b b key r s side := by
    intro key r s side parted
    have same := Option.some.inj (parted.before.symm.trans parted.after)
    have held := parted.held
    rw [same, parted.vacated] at held
    simp at held
  refine ⟨fun parted => absurd parted never, fun parted => absurd parted never,
    fun parted => absurd parted never, fun parted => absurd parted never, ?_, ?_⟩
  · intro c key leaver live mentioned
    rw [← mem_leavers, silent] at mentioned
    simp at mentioned
  · intro board c l live listed line reading room
    exact queue_carried listed line reading (by simp [settled]) room

end Broker

/-- The occurrences by which sides of records are vacated. -/
inductive Occurrence.Vacates : Occurrence → Prop where
  | depart (conn : ConnId) : Vacates (.disconnected conn)
  | retract (conn : ConnId) (key : Key) : Vacates (.request conn (.retractOffer key))

namespace Broker

/-- Those that stay when others depart or withdraw have the event pending on every record that lost
its other side, and are told of each loss once, by the name of who left; nothing else is told them
of partners that left. -/
theorem survivors_told_once (capacity : Option Nat) (wording : Wording) (events : List Occurrence)
    (event : Occurrence) (distinct : (events.filterMap Occurrence.opened).Nodup)
    (vacates : event.Vacates) :
    let b := ((new capacity wording).run events).1
    SurvivorsTold b (b.step event).1 (b.step event).2 := by
  intro b
  have upkept : b.Upkept [] := upkept_run capacity wording distinct
  cases vacates with
  | depart conn =>
    have after : (b.step (.disconnected conn)).1.Upkept [] :=
      upkept.step (by simp [Occurrence.opened])
    exact (upkept.depart conn).survivors upkept (depart_departs b [conn]) after.agrees.consistent
  | retract conn key =>
    have silent := b.leavers_reply (b.retract conn key).broker conn key
    have settled :=
      (b.retract conn key).broker.hungUp_send conn (b.dispatch conn (.retractOffer key)).1
    have stepped : b.step (.request conn (.retractOffer key)) =
        ((b.retract conn key).broker,
          (b.retract conn key).posts ++
            (b.retract conn key).broker.send conn (b.dispatch conn (.retractOffer key)).1) := by
      simp only [step, dispatch_broker, dispatch_posts]
      rfl
    rw [stepped]
    generalize (b.retract conn key).broker.send conn (b.dispatch conn (.retractOffer key)).1 =
      reply at silent settled
    have handled := b.retract_handled conn key
    generalize b.retract conn key = h at handled
    cases handled with
    | settled => exact survivors_of_settled settled silent
    | retracted acts done => exact upkept.survivors_of_retract done settled silent

/-- A processor goes away, and its child with it, who shares variables with an interpreter and an
auxiliary processor and one with its parent. The interpreter is told that the child left; the
auxiliary processor finds the event; nothing is left of what parent and child shared. -/
theorem survivors_told_of_child :
    let parent : Identity := ⟨1001, 0, 0⟩
    let child : Identity := ⟨1002, 1001, 0⟩
    let third : Identity := ⟨2001, 0, 0⟩
    let auxiliary : Identity := ⟨500, 0, 0⟩
    let events : List Occurrence :=
      [.connected ⟨1⟩ "", .request ⟨1⟩ (.registerProcessor parent 7),
        .connected ⟨2⟩ "", .request ⟨2⟩ (.registerProcessor child 8),
        .connected ⟨3⟩ "", .request ⟨3⟩ (.registerProcessor third 9),
        .connected ⟨4⟩ "", .request ⟨4⟩ (.registerEventChannel third),
        .connected ⟨5⟩ "", .request ⟨5⟩ (.registerProcessor auxiliary 10),
        .connected ⟨6⟩ "", .request ⟨6⟩ (.registerEventChannel auxiliary),
        .request ⟨2⟩ (.matchOrMake "X" third child), .request ⟨3⟩ (.matchOrMake "X" child third),
        .request ⟨1⟩ (.matchOrMake "Y" child parent), .request ⟨2⟩ (.matchOrMake "Y" parent child),
        .request ⟨2⟩ (.matchOrMake "Z" auxiliary child),
          .request ⟨5⟩ (.matchOrMake "Z" child auxiliary)]
    let b := ((new none {}).run events).1
    let last := (b.step (.disconnected ⟨1⟩)).1
    let posts := (b.step (.disconnected ⟨1⟩)).2
    let x : Record :=
      { key := .compose 1002 0, name := ⟨"X", by decide⟩, state := .idle, serial := 0
        offering := { id := child, conn := some ⟨2⟩, events := .matched }
        accepting := { id := third, conn := some ⟨3⟩ } }
    let z : Record :=
      { key := .compose 1002 2, name := ⟨"Z", by decide⟩, state := .idle, serial := 2
        offering := { id := child, conn := some ⟨2⟩, events := .matched }
        accepting := { id := auxiliary, conn := some ⟨5⟩ } }
    (events.filterMap Occurrence.opened).Nodup ∧ (Occurrence.disconnected ⟨1⟩).Vacates ∧
      Parted b last x.key x (x.release .offering) .offering ∧
        leavers x.key (received ⟨4⟩ posts) = [child] ∧
      Parted b last z.key z (z.release .offering) .offering ∧
        leavers z.key (received ⟨6⟩ posts) = [] ∧
      last.table.get? (.compose 1001 1) = none := by
  intro parent child third auxiliary events b last posts x z
  have distinct : (events.filterMap Occurrence.opened).Nodup := by decide
  have survivors : SurvivorsTold b last posts :=
    survivors_told_once none {} events (.disconnected ⟨1⟩) distinct (.depart ⟨1⟩)
  have upkept : b.Upkept [] := upkept_run none {} distinct
  have lost := upkept.depart ⟨1⟩
  -- The cascade itself is not evaluated: what it strikes is what follows, and that can be listed.
  have closed : ∀ c ∈ [⟨1⟩, ⟨2⟩], ∀ e ∈ b.roster.entries, b.roster.Follows c e.conn →
      e.conn ∈ [⟨1⟩, ⟨2⟩] := by
    decide +kernel
  have inside : ∀ d, b.roster.Doomed [⟨1⟩] d → d ∈ [⟨1⟩, ⟨2⟩] :=
    fun d doomed => doomed.within upkept.agrees.consistent (by decide) closed
  have start : b.roster.Doomed [⟨1⟩] ⟨1⟩ := .root List.mem_cons_self (by decide +kernel)
  have also : b.roster.Doomed [⟨1⟩] ⟨2⟩ := .follow start (by decide +kernel)
  have left : last = b.without [⟨1⟩, ⟨2⟩] := by
    refine lost.left.trans (b.without_congr fun d => (lost.doomed d).trans ⟨inside d, ?_⟩)
    intro mem
    simp only [List.mem_cons, List.not_mem_nil, or_false] at mem
    rcases mem with rfl | rfl
    · exact start
    · exact also
  have first : Parted b last x.key x (x.release .offering) .offering := by
    rw [left]
    exact ⟨by decide +kernel, by decide +kernel, rfl, rfl, rfl⟩
  have second : Parted b last z.key z (z.release .offering) .offering := by
    rw [left]
    exact ⟨by decide +kernel, by decide +kernel, rfl, rfl, rfl⟩
  have live : ∀ c ∈ [⟨4⟩, ⟨6⟩], (last.roster.get? c).isSome := by
    rw [left]
    decide +kernel
  have hears : last.roster.Hears third ⟨4⟩ ∧ ¬ last.roster.Hears auxiliary ⟨6⟩ := by
    rw [left]
    decide +kernel
  have told := survivors.told first ⟨4⟩ (live _ (by decide))
  have untold := survivors.told second ⟨6⟩ (live _ (by decide))
  refine ⟨distinct, .depart ⟨1⟩, first, told.trans (if_pos hears.1), second,
    untold.trans (if_neg hears.2), ?_⟩
  rw [left]
  decide +kernel

end Broker
end SharedVariables
