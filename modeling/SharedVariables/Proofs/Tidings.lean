import SharedVariables.Proofs.Cascade
import SharedVariables.Proofs.Replies

/-! Who is told that a partner has left. A cascade strikes one connection after the other and tells
whoever is still there at that moment; in the end each that stays has been told once of each partner
that it lost, and of nothing else. -/
namespace SharedVariables

/-- Who is named in the notices that a partner has left a variable, in order. -/
def leavers (key : Key) (signals : List Signal) : List Identity :=
  signals.filterMap fun
    | .offerRetracted k leaver => if k = key then some leaver else none
    | _ => none

theorem leavers_append (key : Key) (first second : List Signal) :
    leavers key (first ++ second) = leavers key first ++ leavers key second :=
  List.filterMap_append

theorem leavers_received_flatMap {α : Type} (key : Key) (c : ConnId) (f : α → List Post)
    (xs : List α) :
    leavers key (received c (xs.flatMap f)) = xs.flatMap fun x =>
      leavers key (received c (f x)) := by
  simp only [leavers, received, List.filterMap_flatMap]

theorem leavers_singleton (key about : Key) (leaver : Identity) :
    leavers key [.offerRetracted about leaver] = if about = key then [leaver] else [] := by
  by_cases here : about = key <;> simp [leavers, here]

theorem mem_leavers {key : Key} {signals : List Signal} {leaver : Identity} :
    leaver ∈ leavers key signals ↔ .offerRetracted key leaver ∈ signals := by
  simp only [leavers, List.mem_filterMap]
  constructor
  · rintro ⟨signal, mem, named⟩
    split at named
    · obtain ⟨rfl, same⟩ := Option.ite_none_right_eq_some.mp named
      obtain rfl := Option.some.inj same
      exact mem
    · simp at named
  · intro mem
    exact ⟨_, mem, if_pos rfl⟩

namespace Roster

/-- A processor is told of what happens over a connection: it is its event channel, and it does not
look for itself. -/
def Hears (r : Roster) (id : Identity) (c : ConnId) :
    Prop := id.isAuxiliary = false ∧ r.channelOf? id = some c

instance (r : Roster) (id : Identity) (c : ConnId) :
    Decidable (r.Hears id c) := inferInstanceAs (Decidable (_ ∧ _))

theorem hears_without {r : Roster} (single : r.Single) {gone : List ConnId} {c : ConnId}
    (stays : c ∉ gone) (id : Identity) : (r.without gone).Hears id c ↔ r.Hears id c := by
  simp [Hears, channelOf?_without single, stays]

end Roster

namespace Record

/-- The side that is lost with some connections, if the other side stays. -/
def parting (gone : List ConnId) (r : Record) : Option Side :=
  match r.offering.isOver gone, r.accepting.isOver gone with
  | true, false => if r.accepting.isActive then some .offering else none
  | false, true => if r.offering.isActive then some .accepting else none
  | _, _ => none

theorem parting_eq_some {gone : List ConnId} {r : Record} {side : Side} :
    r.parting gone = some side ↔
      (r.partner side).isOver gone = true ∧ (r.partner side.other).isOver gone = false ∧
      (r.partner side.other).isActive = true := by
  cases offerer : r.offering.isOver gone <;> cases acceptor :
    r.accepting.isOver gone <;> cases side <;>
    simp [parting, partner, Side.other, offerer, acceptor]

theorem parting_nil (r : Record) : r.parting [] = none := by
  rw [Option.eq_none_iff_forall_ne_some]
  intro side parts
  obtain ⟨c, mem, -⟩ := Partner.isOver_iff.mp (parting_eq_some.mp parts).1
  exact List.not_mem_nil mem

/-- Of a record that is left, either no side is lost or one. -/
theorem parting_of_remains {gone : List ConnId} {r s : Record} (left : r.remains gone = some s) :
    (∀ side, (r.partner side).isOver gone = false) ∨ ∃ side, r.parting gone = some side := by
  unfold remains at left
  split at left
  · rename_i offerer acceptor
    refine .inl fun side => ?_
    cases side
    · exact offerer
    · exact acceptor
  · rename_i offerer acceptor
    exact .inr ⟨.offering,
      parting_eq_some.mpr ⟨offerer, acceptor, (Option.ite_none_right_eq_some.mp left).1⟩⟩
  · rename_i offerer acceptor
    exact .inr ⟨.accepting,
      parting_eq_some.mpr ⟨acceptor, offerer, (Option.ite_none_right_eq_some.mp left).1⟩⟩
  · simp at left

theorem parting_append_of_not_over {g : List ConnId} {r : Record}
    (kept : ∀ side, (r.partner side).isOver g = false) (h : List ConnId) :
    r.parting (g ++ h) = r.parting h := by
  have offerer : r.offering.isOver g = false := kept .offering
  have acceptor : r.accepting.isOver g = false := kept .accepting
  simp [parting, Partner.isOver_append, offerer, acceptor]

theorem remains_of_stays {gone : List ConnId} {r : Record} {side : Side}
    (stays : (r.partner side).isOver gone = false) (active : (r.partner side).isActive = true) :
    r.remains gone ≠ none := by
  cases side with
  | offering =>
    simp only [partner] at stays active
    cases acceptor : r.accepting.isOver gone <;> simp [remains, stays, acceptor, active]
  | accepting =>
    simp only [partner] at stays active
    cases offerer : r.offering.isOver gone <;> simp [remains, stays, offerer, active]

theorem parting_append_of_removed {g : List ConnId} {r : Record} (removed : r.remains g = none)
    (h : List ConnId) :
    r.parting (g ++ h) = none := by
  rw [Option.eq_none_iff_forall_ne_some]
  intro side parts
  obtain ⟨-, stays, active⟩ := parting_eq_some.mp parts
  rw [Partner.isOver_append, Bool.or_eq_false_iff] at stays
  exact remains_of_stays stays.1 active removed

/-- A record that has lost one side has none to lose but the other, and goes with it. -/
theorem parting_append_of_parting {g : List ConnId} {r s : Record} {side : Side}
    (parts : r.parting g = some side) (left : r.remains g = some s) (h : List ConnId) :
    s.parting h = none ∧ r.parting (g ++ h) = if (r.partner side.other).isOver h then
      none else some side := by
  obtain ⟨lost, stays, active⟩ := parting_eq_some.mp parts
  have vacant : s.partner side = (r.partner side).deactivate := by
    rw [partner_remains left, if_pos lost]
  constructor
  · rw [Option.eq_none_iff_forall_ne_some]
    intro later again
    obtain ⟨lost, -, active⟩ := parting_eq_some.mp again
    by_cases same : later = side
    · subst later
      simp [vacant] at lost
    · obtain rfl := Side.eq_other same
      simp [vacant] at active
  · split
    · rename_i follows
      rw [Option.eq_none_iff_forall_ne_some]
      intro later again
      obtain ⟨-, stays, -⟩ := parting_eq_some.mp again
      rw [Partner.isOver_append, Bool.or_eq_false_iff] at stays
      by_cases same : later = side
      · subst later
        simp [follows] at stays
      · obtain rfl := Side.eq_other same
        simp [lost] at stays
    · rename_i remains
      refine parting_eq_some.mpr ⟨?_, ?_, active⟩
      · rw [Partner.isOver_append, lost, Bool.true_or]
      · rw [Partner.isOver_append, stays, Bool.false_or]
        exact Bool.eq_false_iff.mpr remains

end Record

theorem Table.Sound.flatMap_at {α : Type} {t : Table} (sound : t.Sound) (key : Key)
    {f : Record → List α} (others : ∀ r ∈ t.records, r.key ≠ key → f r = []) :
    t.records.flatMap f = (t.get? key).elim [] f := by
  have distinct := sound.distinct
  unfold Table.get?
  generalize t.records = rs at others distinct
  induction rs with
  | nil => rfl
  | cons first rest ih =>
    rw [List.map_cons, List.nodup_cons] at distinct
    have tail := ih (fun r mem => others r (List.mem_cons_of_mem _ mem)) distinct.2
    rw [List.flatMap_cons, List.find?_cons]
    by_cases here : first.key = key
    · have silent : rest.flatMap f = [] := by
        rw [List.flatMap_eq_nil_iff]
        intro r later
        refine others r (List.mem_cons_of_mem _ later) fun same => distinct.1 ?_
        exact List.mem_map.mpr ⟨r, later, same.trans here.symm⟩
      simp [here, silent]
    · have missed : (first.key == key) = false := by simpa using here
      simp only [missed, others first List.mem_cons_self here, List.nil_append]
      exact tail

theorem flatMap_markRemoved {α : Type} (f : Key → Option Identity → List α)
    (releases : List Release) :
    (markRemoved releases).flatMap (fun x => f x.key x.remaining) = releases.flatMap fun x =>
      f x.key x.remaining := by
  cases releases <;> rfl

/-- What is said of the side that a record loses with a connection, if nothing is said where nobody
remains. -/
theorem Record.flatMap_releaseHeld {α : Type} {r : Record} {conn : ConnId}
    (one : r.offering.conn = some conn → r.accepting.conn ≠ some conn)
    {f : Key → Option Identity → List α} (silent : ∀ key, f key none = []) :
    ((r.releaseHeld conn).1.flatMap fun x => f x.key x.remaining) =
      (r.parting [conn]).elim [] fun side => f r.key (some (r.partner side.other).id) := by
  have offerer : r.offering.isOver [conn] = true ↔ r.offering.conn = some conn :=
    Partner.isOver_singleton
  have acceptor : r.accepting.isOver [conn] = true ↔ r.accepting.conn = some conn :=
    Partner.isOver_singleton
  by_cases offers : r.offering.conn = some conn
  · have away := one offers
    have stays : r.accepting.isOver [conn] = false := Bool.eq_false_iff.mpr fun there =>
      away (acceptor.mp there)
    have kept : (r.release .offering).accepting.conn ≠ some conn := by
      have same : ((r.release .offering).partner .accepting).conn = r.accepting.conn :=
        r.conn_release .offering .accepting
      exact same.trans_ne away
    cases active : r.accepting.isActive <;>
      simp [releaseHeld, Side.both, partner, Side.other, departure, parting, offers, kept,
        offerer.mpr offers, stays,
        active, silent]
  · have stays : r.offering.isOver [conn] = false := Bool.eq_false_iff.mpr fun there =>
      offers (offerer.mp there)
    by_cases accepts : r.accepting.conn = some conn
    · cases active : r.offering.isActive <;>
        simp [releaseHeld, Side.both, partner, Side.other, departure, parting, offers, accepts,
          acceptor.mpr accepts,
          stays, active, silent]
    · have also : r.accepting.isOver [conn] = false := Bool.eq_false_iff.mpr fun there =>
        accepts (acceptor.mp there)
      simp [releaseHeld, Side.both, partner, parting, offers, accepts, stays, also]

theorem Table.flatMap_disconnect {α : Type} {t : Table} {conn : ConnId}
    (one : ∀ r ∈ t.records, r.offering.conn = some conn → r.accepting.conn ≠ some conn)
    {f : Key → Option Identity → List α} (silent : ∀ key, f key none = []) :
    ((t.disconnect conn).1.flatMap fun x => f x.key x.remaining) =
      t.records.flatMap fun r => (r.parting [conn]).elim [] fun side =>
        f r.key (some (r.partner side.other).id) := by
  simp only [disconnect, List.flatMap_map, List.flatMap_assoc]
  apply List.flatMap_congr
  intro r mem
  rw [← Record.flatMap_releaseHeld (one r mem) silent]
  split
  · exact flatMap_markRemoved f _
  · rfl

namespace Broker

variable {b last : Broker} {conn c : ConnId} {key : Key} {pending : List ConnId} {posts : List Post}

/-- Who is named to a connection as having left a record, given the side that the record has
lost. -/
def news (b : Broker) (c : ConnId) (r : Record) : Option Side → List Identity
  | some side => if b.roster.Hears (r.partner side.other).id c then [(r.partner side).id] else []
  | none => []

/-- Who is named to a connection that stays as having left a variable, once some connections are
gone. -/
def tidings (b : Broker) (gone : List ConnId) (c : ConnId) (key : Key) : List Identity :=
  (b.table.get? key).elim [] fun r => b.news c r (r.parting gone)

theorem news_without (b : Broker) (single : b.roster.Single) {gone : List ConnId}
    (stays : c ∉ gone) (r : Record) (lost : Option Side) :
    (b.without gone).news c r lost = b.news c r lost := by
  cases lost with
  | none => rfl
  | some side => simp only [news, without, Roster.hears_without single stays]

theorem leavers_announce (live : (b.roster.get? c).isSome) (key about : Key)
    (remaining : Option Identity) (leaver : Identity) :
    leavers key (received c (b.announce about remaining leaver)) =
      if about = key then remaining.elim [] fun id =>
        if b.roster.Hears id c then [leaver] else [] else [] := by
  unfold announce
  cases remaining with
  | none => simp [received, leavers]
  | some id =>
    simp only [Option.elim_some]
    cases auxiliary : id.isAuxiliary with
    | true => simp [received, leavers, Roster.Hears, auxiliary]
    | false =>
      simp only [Bool.false_eq_true, if_false, push, Roster.Hears, auxiliary, true_and]
      split
      · rename_i channel listed
        rw [received_send]
        by_cases here : channel = c
        · simp [here, live, listed, leavers_singleton]
        · simp [here, listed, leavers]
      · rename_i unlisted
        simp [unlisted, received, leavers]

/-- The two sides of a record are held by two processors, so over two connections. -/
theorem Upkept.one_side (upkept : b.Upkept pending) {r : Record} (mem : r ∈ b.table.records)
    (offers : r.offering.conn = some conn) : r.accepting.conn ≠ some conn := by
  intro accepts
  have offerer := (upkept.agrees.backed r mem .offering).held conn offers
  have acceptor := (upkept.agrees.backed r mem .accepting).held conn accepts
  obtain ⟨e, found, known, -⟩ := (upkept.agrees.consistent.commands _ conn).mp offerer
  have again := (upkept.agrees.consistent.commands.entry acceptor found).1
  have active : r.accepting.isActive = true := by simp [Partner.isActive, accepts]
  exact (upkept.sound.records r mem).apart active (Option.some.inj (known.symm.trans again))

theorem Upkept.leavers_farewells {rest : List ConnId} {entry : Entry} {roster : Roster}
    {leaver : Identity} (upkept : b.Upkept (conn :: rest))
    (removed : b.roster.remove conn = (some entry, roster)) (known : entry.identity = some leaver)
    (live : (roster.get? c).isSome) (key : Key) :
    leavers key (received c (b.farewells conn roster leaver)) = b.tidings [conn] c key := by
  have same := Roster.remove_eq_without upkept.agrees.consistent upkept.single removed
  have other : c ∉ [conn] := by
    intro here
    rw [same, Roster.get?_without, if_pos here] at live
    simp at live
  have hears : ∀ id, roster.Hears id c ↔ b.roster.Hears id c := by
    intro id
    rw [same]
    exact Roster.hears_without upkept.single other id
  unfold farewells
  rw [leavers_received_flatMap]
  simp only [leavers_announce (b := { b with roster }) live, hears]
  rw [Table.flatMap_disconnect (f := fun about remaining =>
      if about = key then remaining.elim [] fun id =>
        if b.roster.Hears id c then [leaver] else [] else [])
    (fun r mem => upkept.one_side mem) (fun about => by simp), upkept.sound.flatMap_at key]
  · unfold tidings
    cases found : b.table.get? key with
    | none => rfl
    | some r =>
      have here : r.key = key := by simpa using List.find?_some found
      simp only [Option.elim_some, here, if_true]
      cases parts : r.parting [conn] with
      | none => rfl
      | some side =>
        -- The processor that leaves is the one that held the lost side.
        have lost := Partner.isOver_singleton.mp (Record.parting_eq_some.mp parts).1
        have held := (upkept.agrees.backed r (Table.mem_of_get? found) side).held conn lost
        have named :=
          (upkept.agrees.consistent.commands.entry held (Roster.get?_of_remove removed)).1
        obtain rfl := Option.some.inj (known.symm.trans named)
        rfl
  · intro r _ elsewhere
    cases r.parting [conn] <;> simp [elsewhere]

/-- A processor whose event channel stays, stays. -/
theorem Upkept.not_over_of_hears {gone : List ConnId} (after : (b.without gone).Upkept [])
    (upkept : b.Upkept pending) (stays : c ∉ gone) {r : Record} (mem : r ∈ b.table.records)
    {side : Side} (hears : b.roster.Hears (r.partner side).id c) :
    (r.partner side).isOver gone = false := by
  refine Bool.eq_false_iff.mpr fun lost => ?_
  obtain ⟨d, left, held⟩ := Partner.isOver_iff.mp lost
  have listed := (upkept.agrees.backed r mem side).held d held
  have channel : (b.without gone).roster.channelOf? (r.partner side).id = some c :=
    (Roster.channelOf?_without upkept.single gone).mpr ⟨stays, hears.2⟩
  obtain ⟨e, registered⟩ := (after.agrees.followed _ c channel).resolve_right List.not_mem_nil
  have kept := (Directory.get?_filter upkept.single.commands _).mp registered
  obtain rfl := Option.some.inj (listed.symm.trans kept.1)
  exact of_decide_eq_true kept.2 left

/-- What is told as some connections go, and then as others go, is what is told of all of them,
except to processors that stay at first and go later; their channels go with them. -/
theorem tidings_append {g h : List ConnId} (upkept : b.Upkept pending) (stays : c ∉ g ++ h)
    (after : (b.without (g ++ h)).Upkept []) (key : Key) :
    b.tidings g c key ++ (b.without g).tidings h c key = b.tidings (g ++ h) c key := by
  have first : c ∉ g := fun early => stays (List.mem_append_left h early)
  unfold tidings
  simp only [without, upkept.sound.get?_without]
  cases found : b.table.get? key with
  | none => rfl
  | some r =>
    simp only [Option.elim_some, Option.bind_some]
    cases left : r.remains g with
    | none =>
      have now := Record.parting_append_of_removed left []
      rw [List.append_nil] at now
      rw [now, Record.parting_append_of_removed left h]
      rfl
    | some s =>
      rcases Record.parting_of_remains left with kept | ⟨side, parts⟩
      · obtain rfl := Option.some.inj ((Record.remains_of_not_over kept).symm.trans left)
        have now := Record.parting_append_of_not_over kept []
        rw [List.append_nil, Record.parting_nil] at now
        rw [now, Record.parting_append_of_not_over kept h, Option.elim_some]
        exact b.news_without upkept.single first r (r.parting h)
      · obtain ⟨later, all⟩ := Record.parting_append_of_parting parts left h
        simp only [Option.elim_some, parts, later, all, news, List.append_nil]
        by_cases hears : b.roster.Hears (r.partner side.other).id c
        · have kept := after.not_over_of_hears upkept stays (Table.mem_of_get? found) hears
          rw [Partner.isOver_append, Bool.or_eq_false_iff] at kept
          simp [hears, kept.2]
        · cases (r.partner side.other).isOver h <;> simp [hears]

theorem Lost.live {roots visited : List ConnId} (lost : b.Lost roots visited last)
    (live : (last.roster.get? c).isSome) :
    c ∉ visited ∧ (b.roster.get? c).isSome := by
  rw [lost.left, without, Roster.get?_without] at live
  split at live
  · simp at live
  · exact ⟨‹_›, live⟩

/- The induction is on the cascade. What is told at one visit and what is told later add up to what
all connections that leave account for, so nothing has to be remembered of the processors that were
told and then left themselves. -/
theorem Departs.told (departs : Departs b pending last posts) (upkept : b.Upkept pending)
    (live : (last.roster.get? c).isSome) (key : Key) :
    leavers key (received c posts) = b.tidings (hungUp posts) c key := by
  induction departs with
  | done b =>
    unfold tidings
    cases b.table.get? key with
    | none => rfl
    | some r =>
      have none : r.parting (hungUp []) = none := r.parting_nil
      rw [Option.elim_some, none]
      rfl
  | absent gone _ ih => exact ih ⟨upkept.agrees.absent gone, upkept.single, upkept.sound⟩ live
  | @plain b last conn rest posts entry roster removed other others ih =>
    have lost := (Departs.plain removed other others).cascade.lost upkept
    have whole :=
      tidings_append (g := [conn]) (h := hungUp posts) upkept (lost.live live).1
        (lost.left ▸ lost.upkept) key
    obtain ⟨next, after⟩ := upkept.plain removed other
    have silent : b.tidings [conn] c key = [] := by
      unfold tidings
      cases found : b.table.get? key with
      | none => rfl
      | some r =>
        have none : r.parting [conn] = none := by
          rw [Option.eq_none_iff_forall_ne_some]
          intro side parts
          have lostOver := Partner.isOver_singleton.mp (Record.parting_eq_some.mp parts).1
          have held := (upkept.agrees.backed r (Table.mem_of_get? found) side).held conn lostOver
          obtain ⟨known, role⟩ :=
            upkept.agrees.consistent.commands.entry held (Roster.get?_of_remove removed)
          exact other _ known role
        rw [Option.elim_some, none]
        rfl
    calc leavers key (received c (.hangUp conn :: posts))
      _ = leavers key (received c posts) := rfl
      _ = { b with roster }.tidings (hungUp posts) c key := ih after live
      _ = b.tidings [conn] c key ++ (b.without [conn]).tidings (hungUp posts) c key := by
        rw [silent, next]; rfl
      _ = b.tidings (conn :: hungUp posts) c key := whole
  | @processor b last conn rest posts entry roster leaver removed known role others ih =>
    have lost := (Departs.processor removed known role others).cascade.lost upkept
    rw [hungUp_visit] at lost
    obtain ⟨stays, before⟩ := lost.live live
    have whole := tidings_append (g := [conn]) (h := hungUp posts) upkept stays
      (lost.left ▸ lost.upkept) key
    obtain ⟨next, after⟩ := upkept.processor removed known role
    have there : (roster.get? c).isSome := by
      have other : c ≠ conn := fun same => stays (same ▸ List.mem_cons_self)
      rw [Roster.get?_remove removed, if_neg other]
      exact before
    rw [hungUp_visit, List.cons_append]
    calc leavers key (received c (.hangUp conn :: (b.farewells conn roster leaver ++ posts)))
      _ = leavers key (received c (b.farewells conn roster leaver ++ posts)) := rfl
      _ = b.tidings [conn] c key ++ (b.struck conn roster).tidings (hungUp posts) c key := by
        rw [received_append, leavers_append,
          upkept.leavers_farewells removed known there, ih after live]
      _ = b.tidings [conn] c key ++ (b.without [conn]).tidings (hungUp posts) c key := by rw [next]
      _ = b.tidings (conn :: hungUp posts) c key := whole

end Broker
end SharedVariables
