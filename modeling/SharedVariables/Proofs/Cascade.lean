import SharedVariables.Proofs.Survivors

/-! Which connections a departure takes along. The cascade computes followers from a roster that it
strikes connections from as it goes; what it strikes in the end is the least set that is closed
under following in the roster it began with. -/
namespace SharedVariables

namespace Directory

theorem get?_filter {d : Directory} (single : Single d) (p : Identity × ConnId → Bool)
    {id : Identity} {c : ConnId} :
    get? (d.filter p) id = some c ↔ get? d id = some c ∧ p (id, c) = true := by
  rw [← mem_iff_get? (single.filter p), ← mem_iff_get? single, List.mem_filter]

end Directory

namespace Roster

/-- A connection goes along with the command connection of a processor: as its event channel, or as
the command connection of a processor that depends on it. -/
def Follows (r : Roster) (c d : ConnId) : Prop :=
  ∃ id, r.identityOf? c = some id ∧
    (r.channelOf? id = some d ∨ ∃ other, other.dependsOn id = true ∧ r.identityOf? d = some other)

instance (r : Roster) (c d : ConnId) : Decidable (r.Follows c d) :=
  decidable_of_iff
    ((r.identityOf? c).any fun id =>
      r.channelOf? id == some d || (r.identityOf? d).any (·.dependsOn id)) (by
      cases leader : r.identityOf? c with
      | none => simp [Follows, leader]
      | some id => cases follower : r.identityOf? d <;> simp [Follows, leader, follower])

/-- The least set of live connections that contains those of some roots that are live, and whatever
follows one of its members. -/
inductive Doomed (r : Roster) (roots : List ConnId) : ConnId → Prop where
  | root {c : ConnId} (mem : c ∈ roots) (live : (r.get? c).isSome) : Doomed r roots c
  | follow {c d : ConnId} (leaves : Doomed r roots c) (follows : r.Follows c d) : Doomed r roots d

variable {r : Roster} {roots rest : List ConnId} {conn c d : ConnId}

theorem live_of_identityOf? {id : Identity} (acts : r.identityOf? c = some id) :
    (r.get? c).isSome := by
  obtain ⟨e, found, -⟩ := identityOf?_eq_some.mp acts
  exact Option.isSome_of_eq_some found

theorem Follows.live (consistent : r.Consistent) (follows : r.Follows c d) : (r.get? d).isSome := by
  obtain ⟨id, -, listed | ⟨other, -, acts⟩⟩ := follows
  · obtain ⟨e, found, -⟩ := (consistent.channels id d).mp listed
    exact Option.isSome_of_eq_some found
  · exact live_of_identityOf? acts

theorem Doomed.live (consistent : r.Consistent) (doomed : r.Doomed roots d) :
    (r.get? d).isSome := by
  cases doomed with
  | root _ live => exact live
  | follow _ follows => exact follows.live consistent

theorem Doomed.mono {more : List ConnId} (doomed : r.Doomed roots d)
    (kept : ∀ c ∈ roots, c ∈ more) :
    r.Doomed more d := by
  induction doomed with
  | root mem live => exact .root (kept _ mem) live
  | follow _ follows ih => exact .follow ih follows

/-- What contains the roots and is closed under following, among the live connections, contains all
that is doomed. -/
theorem Doomed.within {ds : List ConnId} (doomed : r.Doomed roots d) (consistent : r.Consistent)
    (start : ∀ c ∈ roots, c ∈ ds)
    (closed : ∀ c ∈ ds, ∀ e ∈ r.entries, r.Follows c e.conn → e.conn ∈ ds) :
    d ∈ ds := by
  induction doomed with
  | root mem _ => exact start _ mem
  | @follow c d _ follows ih =>
    obtain ⟨e, found⟩ := Option.isSome_iff_exists.mp (follows.live consistent)
    obtain rfl : e.conn = d := by simpa using List.find?_some found
    exact closed c ih e (List.mem_of_find?_eq_some found) follows

theorem not_doomed_nil (d : ConnId) : ¬ r.Doomed [] d := by
  intro doomed
  induction doomed with
  | root mem _ => exact List.not_mem_nil mem
  | follow _ _ ih => exact ih

theorem identityOf?_without (gone : List ConnId) {id : Identity} :
    (r.without gone).identityOf? c = some id ↔ c ∉ gone ∧ r.identityOf? c = some id := by
  rw [identityOf?_eq_some, identityOf?_eq_some, get?_without]
  by_cases struck : c ∈ gone <;> simp [struck]

theorem channelOf?_without (single : r.Single) (gone : List ConnId) {id : Identity} :
    (r.without gone).channelOf? id = some c ↔ c ∉ gone ∧ r.channelOf? id = some c := by
  have listed : (r.without gone).channelOf? id = some c ↔
      r.channelOf? id = some c ∧ decide (c ∉ gone) = true :=
    Directory.get?_filter single.channels _
  rw [listed, decide_eq_true_eq, and_comm]

/-- Following is not changed by connections that are gone, except that they neither lead nor
follow. -/
theorem follows_without (single : r.Single) (gone : List ConnId) :
    (r.without gone).Follows c d ↔ c ∉ gone ∧ d ∉ gone ∧ r.Follows c d := by
  simp only [Follows, identityOf?_without, channelOf?_without single]
  constructor
  · rintro ⟨id, ⟨first, acts⟩, ⟨second, listed⟩ | ⟨other, depends, second, follower⟩⟩
    · exact ⟨first, second, id, acts, .inl listed⟩
    · exact ⟨first, second, id, acts, .inr ⟨other, depends, follower⟩⟩
  · rintro ⟨first, second, id, acts, listed | ⟨other, depends, follower⟩⟩
    · exact ⟨id, ⟨first, acts⟩, .inl ⟨second, listed⟩⟩
    · exact ⟨id, ⟨first, acts⟩, .inr ⟨other, depends, second, follower⟩⟩

/-- One connection is struck, and its followers take its place among the roots. -/
theorem doomed_strike (consistent : r.Consistent) (single : r.Single) (live : (r.get? conn).isSome)
    (exchanged : ∀ c, c ≠ conn → (c ∈ roots ↔ r.Follows conn c ∨ c ∈ rest)) :
    r.Doomed (conn :: rest) d ↔ d = conn ∨ (r.without [conn]).Doomed roots d := by
  have entries := fun c => r.get?_without [conn] c
  constructor
  · intro doomed
    induction doomed with
    | @root c mem live =>
      by_cases first : c = conn
      · exact .inl first
      · have later := (List.mem_cons.mp mem).resolve_left first
        refine .inr (.root ((exchanged c first).mpr (.inr later)) ?_)
        simpa [entries, first] using live
    | @follow c d _ follows ih =>
      by_cases first : d = conn
      · exact .inl first
      · rcases ih with rfl | earlier
        · refine .inr (.root ((exchanged d first).mpr (.inl follows)) ?_)
          simpa [entries, first] using follows.live consistent
        · have other : c ≠ conn := by
            rintro rfl
            have gone : (r.without [c]).get? c = none := by simp [entries]
            cases earlier with
            | root _ live => simp [gone] at live
            | follow _ follows =>
              have kept := ((follows_without single [c]).mp follows).2.1
              simp at kept
          refine .inr (.follow earlier ((follows_without single [conn]).mpr ⟨?_, ?_, follows⟩))
          · simpa using other
          · simpa using first
  · have start : r.Doomed (conn :: rest) conn := .root List.mem_cons_self live
    rintro (rfl | doomed)
    · exact start
    · induction doomed with
      | @root c mem left =>
        have other : c ≠ conn := by
          rintro rfl
          simp [entries] at left
        rcases (exchanged c other).mp mem with follows | later
        · exact .follow start follows
        · refine .root (List.mem_cons_of_mem _ later) ?_
          simpa [entries, other] using left
      | follow _ follows ih => exact .follow ih ((follows_without single [conn]).mp follows).2.2

theorem doomed_absent (gone : r.get? conn = none) :
    r.Doomed (conn :: rest) d ↔ r.Doomed rest d := by
  constructor
  · intro doomed
    induction doomed with
    | @root c mem live =>
      refine .root ((List.mem_cons.mp mem).resolve_left ?_) live
      rintro rfl
      simp [gone] at live
    | follow _ follows ih => exact .follow ih follows
  · exact fun doomed => doomed.mono fun c => List.mem_cons_of_mem conn

theorem mem_dependentsOf (consistent : r.Consistent) (single : r.Single)
    {ancestor other : Identity} :
    (d, other) ∈ r.dependentsOf ancestor ↔
      other.dependsOn ancestor = true ∧ r.identityOf? d = some other := by
  have listed : (other, d) ∈ r.commands ↔ r.identityOf? d = some other := by
    rw [Directory.mem_iff_get? single.commands, consistent.commands other d, identityOf?_eq_some]
  simp only [dependentsOf, List.mem_mergeSort, List.mem_map, List.mem_filter]
  constructor
  · rintro ⟨⟨i, c⟩, ⟨mem, depends⟩, same⟩
    obtain ⟨rfl, rfl⟩ := Prod.mk.inj same
    exact ⟨depends, listed.mp mem⟩
  · rintro ⟨depends, acts⟩
    exact ⟨(other, d), ⟨listed.mpr acts, depends⟩, rfl⟩

end Roster

namespace Broker

variable {b last : Broker} {conn d : ConnId} {pending visited : List ConnId}

theorem mem_followers (consistent : b.roster.Consistent) (single : b.roster.Single)
    {leaver : Identity} :
    d ∈ b.followers leaver ↔ b.roster.channelOf? leaver = some d ∨
      ∃ other, other.dependsOn leaver = true ∧ b.roster.identityOf? d = some other := by
  have dependents : d ∈ ((b.roster.dependentsOf leaver).map (·.1)).reverse ↔
      ∃ other, other.dependsOn leaver = true ∧ b.roster.identityOf? d = some other := by
    rw [List.mem_reverse, List.mem_map]
    constructor
    · rintro ⟨⟨c, other⟩, mem, rfl⟩
      exact ⟨other, (Roster.mem_dependentsOf consistent single).mp mem⟩
    · rintro ⟨other, facts⟩
      exact ⟨(d, other), (Roster.mem_dependentsOf consistent single).mpr facts, rfl⟩
  rw [followers, List.mem_append, dependents, Option.mem_toList, or_comm]

/-- The pending connections are struck one after the other, whichever is taken next; `visited` are
those that were live when their turn came. -/
inductive Cascade : Broker → List ConnId → List ConnId → Broker → Prop where
  | done (b : Broker) : Cascade b [] [] b
  | absent {b last : Broker} {conn : ConnId} {pending rest visited : List ConnId}
      (turn : pending.Perm (conn :: rest)) (gone : b.roster.get? conn = none)
      (others : Cascade b rest visited last) : Cascade b pending visited last
  | plain {b last : Broker} {conn : ConnId} {pending rest visited : List ConnId}
      {entry : Entry} {roster : Roster}
      (turn : pending.Perm (conn :: rest)) (removed : b.roster.remove conn = (some entry, roster))
      (other : ∀ leaver, entry.identity = some leaver → entry.role ≠ .command)
      (others : Cascade { b with roster } rest visited last) :
        Cascade b pending (conn :: visited) last
  | processor {b last : Broker} {conn : ConnId} {pending rest visited : List ConnId}
      {entry : Entry} {roster : Roster}
      {leaver : Identity} (turn : pending.Perm (conn :: rest))
      (removed : b.roster.remove conn = (some entry, roster)) (known : entry.identity = some leaver)
      (role : entry.role = .command)
      (others : Cascade (b.struck conn roster)
        ((b.struck conn roster).followers leaver ++ rest) visited last) :
      Cascade b pending (conn :: visited) last

theorem Upkept.perm {rest : List ConnId} (upkept : b.Upkept pending) (same : pending.Perm rest) :
    b.Upkept rest := by
  obtain ⟨⟨consistent, proper, followed, backed⟩, single, sound⟩ := upkept
  refine ⟨⟨consistent, proper, ?_, backed⟩, single, sound⟩
  intro id c listed
  exact (followed id c listed).imp_right same.mem_iff.mp

theorem not_follows_of_plain {entry : Entry} {roster : Roster}
    (removed : b.roster.remove conn = (some entry, roster))
    (other : ∀ leaver, entry.identity = some leaver → entry.role ≠ .command) :
    ¬ b.roster.Follows conn d := by
  rintro ⟨id, acts, -⟩
  obtain ⟨e, found, known, role⟩ := Roster.identityOf?_eq_some.mp acts
  obtain rfl := Option.some.inj ((Roster.get?_of_remove removed).symm.trans found)
  exact other id known role

theorem mem_followers_struck {entry : Entry} {roster : Roster} {leaver : Identity}
    {rest : List ConnId} (upkept : b.Upkept (conn :: rest))
    (removed : b.roster.remove conn = (some entry, roster)) (known : entry.identity = some leaver)
    (role : entry.role = .command) (other : d ≠ conn) :
    d ∈ (b.struck conn roster).followers leaver ↔ b.roster.Follows conn d := by
  obtain ⟨next, after⟩ := upkept.processor removed known role
  have acts : b.roster.identityOf? conn = some leaver :=
    Roster.identityOf?_eq_some.mpr ⟨entry, Roster.get?_of_remove removed, known, role⟩
  rw [mem_followers after.agrees.consistent after.single, next]
  simp only [without, Roster.channelOf?_without upkept.single, Roster.identityOf?_without,
    List.mem_singleton, other,
    not_false_eq_true, true_and]
  constructor
  · exact fun follows => ⟨leaver, acts, follows⟩
  · rintro ⟨id, again, follows⟩
    obtain rfl := Option.some.inj (acts.symm.trans again)
    exact follows

/-- A broker has lost the connections that some roots doom, each once, and nothing else. -/
structure Lost (b : Broker) (roots visited : List ConnId) (last : Broker) : Prop where
  left : last = b.without visited
  upkept : last.Upkept []
  distinct : visited.Nodup
  doomed : ∀ d, d ∈ visited ↔ b.roster.Doomed roots d

theorem Lost.perm {roots rest : List ConnId} (lost : b.Lost roots visited last)
    (same : roots.Perm rest) :
    b.Lost rest visited last := by
  refine ⟨lost.left, lost.upkept, lost.distinct, fun d => ?_⟩
  rw [lost.doomed]
  constructor
  · exact fun doomed => doomed.mono fun c => same.mem_iff.mp
  · exact fun doomed => doomed.mono fun c => same.mem_iff.mpr

theorem Lost.visit {after : Broker} {roots rest : List ConnId}
    (tail : after.Lost roots visited last) (next : after = b.without [conn])
    (upkept : b.Upkept (conn :: rest)) (kept : after.Upkept roots)
    (live : (b.roster.get? conn).isSome)
    (exchanged : ∀ c, c ≠ conn → (c ∈ roots ↔ b.roster.Follows conn c ∨ c ∈ rest)) :
    b.Lost (conn :: rest) (conn :: visited) last := by
  have doomed := fun d =>
    Roster.doomed_strike (d := d) upkept.agrees.consistent upkept.single live exchanged
  have unvisited : conn ∉ visited := by
    intro again
    have there := ((tail.doomed conn).mp again).live kept.agrees.consistent
    simp [next, without, Roster.get?_without] at there
  refine ⟨?_, tail.upkept, List.nodup_cons.mpr ⟨unvisited, tail.distinct⟩, fun d => ?_⟩
  · rw [tail.left, next, without_append, List.singleton_append]
  · rw [List.mem_cons, tail.doomed, doomed, next]
    rfl

/- The induction is on the cascade. What is doomed before a visit is the visited connection and what
is doomed after it, so nothing has to be remembered of the roster at the start. -/
theorem Cascade.lost (cascade : Cascade b pending visited last) (upkept : b.Upkept pending) :
    b.Lost pending visited last := by
  induction cascade with
  | done b =>
    refine ⟨b.without_nil.symm, upkept, List.nodup_nil, fun d => ?_⟩
    simp [Roster.not_doomed_nil]
  | @absent b last conn pending rest visited turn gone _ ih =>
    have first := upkept.perm turn
    obtain ⟨left, tidy, distinct, doomed⟩ :=
      ih ⟨first.agrees.absent gone, first.single, first.sound⟩
    have lost : b.Lost (conn :: rest) visited last :=
      ⟨left, tidy, distinct, fun d => (doomed d).trans (Roster.doomed_absent gone).symm⟩
    exact lost.perm turn.symm
  | @plain b last conn pending rest visited entry roster turn removed other _ ih =>
    have first := upkept.perm turn
    have live := Option.isSome_of_eq_some (Roster.get?_of_remove removed)
    obtain ⟨next, after⟩ := first.plain removed other
    have exchanged : ∀ c, c ≠ conn → (c ∈ rest ↔ b.roster.Follows conn c ∨ c ∈ rest) := by
      intro c _
      simp [not_follows_of_plain removed other]
    exact ((ih after).visit next first after live exchanged).perm turn.symm
  | @processor b last conn pending rest visited entry roster leaver turn removed known role _ ih =>
    have first := upkept.perm turn
    have live := Option.isSome_of_eq_some (Roster.get?_of_remove removed)
    obtain ⟨next, after⟩ := first.processor removed known role
    have exchanged : ∀ c, c ≠ conn →
        (c ∈ (b.struck conn roster).followers leaver ++ rest ↔
          b.roster.Follows conn c ∨ c ∈ rest) := by
      intro c other
      rw [List.mem_append, mem_followers_struck first removed known role other]
    exact ((ih after).visit next first after live exchanged).perm turn.symm

def hungUp (posts : List Post) : List ConnId :=
  posts.filterMap fun
    | .hangUp conn => some conn
    | .deliver _ _ => none

theorem hungUp_push (id : Identity) (signal : Signal) : hungUp (b.push id signal) = [] := by
  unfold push send
  split
  · split <;> rfl
  · rfl

theorem hungUp_announce (key : Key) (remaining : Option Identity) (leaver : Identity) :
    hungUp (b.announce key remaining leaver) = [] := by
  unfold announce
  split
  · split
    · rfl
    · exact hungUp_push _ _
  · rfl

theorem hungUp_farewells (b : Broker) (conn : ConnId) (roster : Roster) (leaver : Identity) :
    hungUp (b.farewells conn roster leaver) = [] := by
  unfold farewells hungUp
  rw [List.filterMap_flatMap]
  apply List.flatMap_eq_nil_iff.mpr
  intro release _
  exact hungUp_announce release.key release.remaining leaver

theorem hungUp_visit (b : Broker) (conn : ConnId) (roster : Roster) (leaver : Identity)
    (posts : List Post) :
    hungUp (.hangUp conn :: b.farewells conn roster leaver ++ posts) = conn :: hungUp posts := by
  have silent := hungUp_farewells b conn roster leaver
  simp only [hungUp] at silent ⊢
  simp [silent]

/-- The broker serves the pending connections as a stack, which is one of the orders. -/
theorem Departs.cascade {posts : List Post} (departs : Departs b pending last posts) :
    Cascade b pending (hungUp posts) last := by
  induction departs with
  | done b => exact .done b
  | absent gone _ ih => exact .absent (.refl _) gone ih
  | plain removed other _ ih => exact .plain (.refl _) removed other ih
  | @processor b last conn rest posts entry roster leaver removed known role _ ih =>
    rw [hungUp_visit]
    exact .processor (.refl _) removed known role ih

theorem Upkept.expecting (upkept : b.Upkept []) (pending : List ConnId) : b.Upkept pending := by
  obtain ⟨⟨consistent, proper, followed, backed⟩, single, sound⟩ := upkept
  refine ⟨⟨consistent, proper, ?_, backed⟩, single, sound⟩
  intro id c listed
  exact .inl ((followed id c listed).resolve_right List.not_mem_nil)

theorem Upkept.depart (upkept : b.Upkept []) (conn : ConnId) :
    b.Lost [conn] (hungUp (b.disconnect conn).2) (b.disconnect conn).1 :=
  (depart_departs b [conn]).cascade.lost (upkept.expecting [conn])

theorem Handled.sound {request : Signal} {h : Handling} (handled : Handled b conn request h)
    (sound : b.table.Sound) :
    h.broker.table.Sound := by
  cases handled with
  | settled | registered | listening => exact sound
  | shared _ _ done _ => exact sound.matchOrMake done
  | retracted _ done => exact sound.retract done
  | @reported key used r side holds =>
    obtain ⟨id, -, held⟩ := held_ok holds
    have found := (Table.activePartnerOf_ok held).1
    apply sound.update_sameSides
    intro s again
    obtain rfl := Option.some.inj (found.symm.trans again)
    exact ⟨r.key_report used side, r.sameSides_report used side⟩
  | @restrained key mask r side holds =>
    obtain ⟨id, -, held⟩ := held_ok holds
    have found := (Table.activePartnerOf_ok held).1
    apply sound.update_sameSides
    intro s again
    obtain rfl := Option.some.inj (found.symm.trans again)
    exact ⟨r.key_setControl side mask, r.sameSides_setControl side mask⟩
  | assigned => exact sound.update_sameSides fun r _ => ⟨rfl, r.sameSides_withValue _⟩
  | alerted done => exact sound.addEvents done
  | cleared id => exact sound.clearEvents id

theorem Handled.single {request : Signal} {h : Handling} (handled : Handled b conn request h)
    (single : b.roster.Single) : h.broker.roster.Single := by
  cases handled with
  | registered accepted => exact single.register accepted
  | listening accepted => exact single.registerChannel accepted
  | _ => exact single

theorem Upkept.step (upkept : b.Upkept []) {event : Occurrence}
    (fresh : ∀ c, event.opened = some c → b.roster.get? c = none) : (b.step event).1.Upkept [] := by
  cases event with
  | connected conn peer =>
    exact ⟨upkept.agrees.step fresh, ⟨upkept.single.commands, upkept.single.channels⟩, upkept.sound⟩
  | request conn request =>
    have handled := handle_handled b conn request
    simp only [Broker.step, dispatch_broker]
    exact ⟨handled.agrees upkept.agrees, handled.single upkept.single, handled.sound upkept.sound⟩
  | malformed conn fault => exact upkept
  | disconnected conn => exact (upkept.depart conn).upkept

theorem Upkept.run (upkept : b.Upkept []) {events : List Occurrence} (fresh : b.Fresh events) :
    (b.run events).1.Upkept [] := by
  induction events generalizing b with
  | nil => exact upkept
  | cons event rest ih => exact ih (upkept.step fresh.first) fresh.step

theorem upkept_new (capacity : Option Nat) (wording : Wording) : (new capacity wording).Upkept [] :=
  ⟨departing_new capacity wording, ⟨List.nodup_nil, List.nodup_nil⟩, Table.sound_new capacity⟩

theorem upkept_run (capacity : Option Nat) (wording : Wording) {events : List Occurrence}
    (distinct : (events.filterMap Occurrence.opened).Nodup) :
    ((new capacity wording).run events).1.Upkept [] :=
  (upkept_new capacity wording).run (fresh_new capacity wording distinct)

/-- A departure strikes the connections that it dooms, each asked once to hang up, and vacates what
was held over them; all else stays as it was. Serving the connections in another order comes to the
same. -/
theorem disconnect_exactly_doomed (capacity : Option Nat) (wording : Wording)
    (events : List Occurrence) (conn : ConnId)
    (distinct : (events.filterMap Occurrence.opened).Nodup) :
    let b := ((new capacity wording).run events).1
    let last := (b.step (.disconnected conn)).1
    let gone := hungUp (b.step (.disconnected conn)).2
    (∀ d, d ∈ gone ↔ b.roster.Doomed [conn] d) ∧ gone.Nodup ∧
    last.roster = b.roster.without gone ∧ last.table = b.table.without gone ∧
    ∀ visited other, Cascade b [conn] visited other → other = last ∧ visited.Perm gone := by
  intro b last gone
  have upkept : b.Upkept [] := upkept_run capacity wording distinct
  have lost : b.Lost [conn] gone last := upkept.depart conn
  refine ⟨lost.doomed, lost.distinct, ?_, ?_, ?_⟩
  · rw [lost.left, without]
  · rw [lost.left, without]
  · intro visited other cascade
    have again := cascade.lost (upkept.expecting [conn])
    have same : ∀ d, d ∈ visited ↔ d ∈ gone := fun d => (again.doomed d).trans (lost.doomed d).symm
    constructor
    · rw [again.left, lost.left, without_congr b same]
    · exact (List.perm_ext_iff_of_nodup again.distinct lost.distinct).mpr same

/-- Two processors name each other as parents, and one of them has an event channel and shares a
variable with a third. When the other leaves, both leave, the channel with them; the third stays and
is told. -/
theorem disconnect_cycle :
    let first : Identity := ⟨1001, 1002, 1001⟩
    let second : Identity := ⟨1002, 1001, 1002⟩
    let third : Identity := ⟨2001, 0, 0⟩
    let events : List Occurrence :=
      [.connected ⟨1⟩ "", .request ⟨1⟩ (.registerProcessor first 7),
        .connected ⟨2⟩ "", .request ⟨2⟩ (.registerEventChannel first),
        .connected ⟨3⟩ "", .request ⟨3⟩ (.registerProcessor second 8),
        .connected ⟨4⟩ "", .request ⟨4⟩ (.registerProcessor third 9),
        .request ⟨1⟩ (.matchOrMake "X" third first), .request ⟨4⟩ (.matchOrMake "X" first third)]
    let b := ((new none {}).run events).1
    let last := (b.step (.disconnected ⟨3⟩)).1
    let gone := hungUp (b.step (.disconnected ⟨3⟩)).2
    (events.filterMap Occurrence.opened).Nodup ∧ first.dependsOn second = true ∧
      second.dependsOn first = true ∧
      ⟨3⟩ ∈ gone ∧ ⟨1⟩ ∈ gone ∧ ⟨2⟩ ∈ gone ∧
      last.table = b.table.without gone := by
  intro first second third events b last gone
  have distinct : (events.filterMap Occurrence.opened).Nodup := by decide
  obtain ⟨doomed, -, -, table, -⟩ := disconnect_exactly_doomed none {} events ⟨3⟩ distinct
  have start : b.roster.Doomed [⟨3⟩] ⟨3⟩ := .root List.mem_cons_self (by decide +kernel)
  have child : b.roster.Follows ⟨3⟩ ⟨1⟩ :=
    ⟨second, by decide +kernel, .inr ⟨first, by decide, by decide +kernel⟩⟩
  have channel : b.roster.Follows ⟨1⟩ ⟨2⟩ := ⟨first, by decide +kernel, .inl (by decide +kernel)⟩
  refine ⟨distinct, by decide, by
    decide, (doomed _).mpr start, (doomed _).mpr (.follow start child), ?_, table⟩
  exact (doomed _).mpr (.follow (.follow start child) channel)

end Broker
end SharedVariables
