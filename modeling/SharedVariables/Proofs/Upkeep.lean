import SharedVariables.Proofs.Agreement

/-! What every operation leaves in order: a directory lists a processor once, keys tell records
apart, a record has an active side, and the partners of a coupled record are two. -/
namespace SharedVariables

theorem Key.number_of_compose {p q : UInt32} {m n : Nat} (first : m < sequenceLimit)
    (second : n < sequenceLimit) (same : compose p m = compose q n) : m = n := by
  have hp := p.toNat_lt
  have hq := q.toNat_lt
  have bits : (compose p m).bits.toNat = (compose q n).bits.toNat := by rw [same]
  rw [toNat_compose p first, toNat_compose q second] at bits
  omega

namespace Directory

def Single (d : Directory) : Prop := (d.map (·.1)).Nodup

theorem mem_iff_get? {d : Directory} (single : Single d) {id : Identity} {c : ConnId} :
    (id, c) ∈ d ↔ get? d id = some c := by
  unfold Single at single
  induction d with
  | nil => simp [get?]
  | cons e rest ih =>
    rw [List.map_cons, List.nodup_cons] at single
    have tail := ih single.2
    have unlisted : ∀ c, (e.1, c) ∉ rest := fun c later =>
      single.1 (List.mem_map.mpr ⟨_, later, rfl⟩)
    simp only [get?, List.find?_cons, List.mem_cons] at tail ⊢
    by_cases here : e.1 = id
    · subst id
      simp only [beq_self_eq_true, Option.map_some, Option.some.injEq, unlisted, or_false]
      constructor
      · intro same
        exact (congrArg Prod.snd same).symm
      · rintro rfl
        rfl
    · have missed : (e.1 == id) = false := by simpa using here
      have apart : (id, c) ≠ e := fun same => here (congrArg Prod.fst same).symm
      simp only [missed, apart, false_or]
      exact tail

theorem Single.add {d : Directory} (single : Single d) {id : Identity} (absent : get? d id = none)
    (conn : ConnId) :
    Single (add d id conn) := by
  have unlisted : id ∉ d.map (·.1) := by
    intro listed
    obtain ⟨⟨i, c⟩, mem, rfl⟩ := List.mem_map.mp listed
    have found := (mem_iff_get? single).mp mem
    simp [absent] at found
  unfold Single Directory.add
  rw [List.map_append, List.nodup_append]
  refine ⟨single, by simp, ?_⟩
  rintro i listed j new rfl
  simp only [List.map_cons, List.map_nil, List.mem_singleton] at new
  exact unlisted (new ▸ listed)

theorem Single.filter {d : Directory} (single : Single d) (p : Identity × ConnId → Bool) :
    Single (d.filter p) :=
  List.Nodup.sublist (List.filter_sublist.map _) single

theorem Single.forget {d : Directory} (single : Single d) (id : Identity) (conn : ConnId) :
    Single (forget d id conn) := by
  unfold Directory.forget
  split
  · exact single.filter _
  · exact single

end Directory

namespace Roster

structure Single (r : Roster) : Prop where
  commands : Directory.Single r.commands
  channels : Directory.Single r.channels

theorem Single.remove {r left : Roster} {conn : ConnId} {entry : Entry} (single : r.Single)
    (removed : r.remove conn = (some entry, left)) : left.Single := by
  simp only [Roster.remove, get?_of_remove removed] at removed
  split at removed <;> obtain rfl := (Prod.mk.inj removed).2
  · exact ⟨single.commands, single.channels⟩
  · exact ⟨single.commands.forget _ _, single.channels⟩
  · exact ⟨single.commands, single.channels.forget _ _⟩

theorem Single.register {r s : Roster} {conn : ConnId} {id : Identity} {pid : UInt32}
    (single : r.Single) (accepted : r.register conn id pid = .ok s) : s.Single := by
  obtain ⟨-, -, unlisted, commands, channels, -⟩ := register_ok accepted
  constructor
  · rw [commands]
    exact single.commands.add unlisted conn
  · rw [channels]
    exact single.channels

theorem Single.registerChannel {r s : Roster} {conn : ConnId} {id : Identity} (single : r.Single)
    (accepted : r.registerChannel conn id = .ok s) : s.Single := by
  obtain ⟨-, unlisted, commands, channels, -⟩ := registerChannel_ok accepted
  constructor
  · rw [commands]
    exact single.commands
  · rw [channels]
    exact single.channels.add unlisted conn

end Roster

namespace Record

/-- The same identities hold the sides over the same connections. -/
def SameSides (r s : Record) : Prop :=
  ∀ side, (s.partner side).id = (r.partner side).id ∧ (s.partner side).conn = (r.partner side).conn

theorem sameSides_modify (r : Record) {f : Partner → Partner} (side : Side)
    (keeps : ∀ p, (f p).id = p.id ∧ (f p).conn = p.conn) : r.SameSides (r.modify f side) := by
  intro other
  rw [partner_modify]
  split
  · exact keeps _
  · exact ⟨rfl, rfl⟩

theorem SameSides.trans {r s t : Record} (first : r.SameSides s) (second : s.SameSides t) :
    r.SameSides t :=
  fun side => ⟨(second side).1.trans (first side).1, (second side).2.trans (first side).2⟩

theorem SameSides.isActive {r s : Record} (same : r.SameSides s) (side : Side) :
    (s.partner side).isActive = (r.partner side).isActive := by
  rw [Partner.isActive, (same side).2]
  rfl

theorem SameSides.coupling {r s : Record} (same : r.SameSides s) : s.coupling = r.coupling := by
  have offering : s.offering.isActive = r.offering.isActive := same.isActive .offering
  have accepting : s.accepting.isActive = r.accepting.isActive := same.isActive .accepting
  rw [Record.coupling, Record.coupling, offering, accepting]

theorem sameSides_withState (r : Record) (state : State) : r.SameSides { r with state } := by
  intro side
  cases side <;> exact ⟨rfl, rfl⟩

theorem sameSides_withValue (r : Record) (value : Option Octets) :
    r.SameSides { r with value } := by
  intro side
  cases side <;> exact ⟨rfl, rfl⟩

theorem sameSides_addEvents (r : Record) (side : Side) (e : Events) :
    r.SameSides (r.addEvents side e) :=
  r.sameSides_modify side fun _ => ⟨rfl, rfl⟩

theorem sameSides_report (r : Record) (used : Bool) (side : Side) :
    r.SameSides (r.report used side) := by
  have moved := r.sameSides_withState (r.nextState used side)
  have seen := moved.trans
    (sameSides_modify _ (f := fun p => { p with events := ∅ }) side fun _ => ⟨rfl, rfl⟩)
  unfold report
  simp only
  split
  · split
    · exact seen
    · exact seen.trans (sameSides_addEvents _ side.other .used)
  · exact seen.trans (sameSides_addEvents _ side.other .set)

theorem sameSides_setControl (r : Record) (side : Side) (mask : Mask) :
    r.SameSides (r.setControl side mask) := by
  have restrained := r.sameSides_modify (f := fun p => { p with control := mask }) side fun _ =>
    ⟨rfl, rfl⟩
  exact restrained.trans (sameSides_addEvents _ side.other .control)

theorem sameSides_clear (r : Record) (id : Identity) : r.SameSides (r.clear id) := by
  intro side
  cases side <;> simp only [clear, partner] <;> split <;> exact ⟨rfl, rfl⟩

@[simp] theorem key_modify (r : Record) (f : Partner → Partner) (side : Side) :
    (r.modify f side).key = r.key := by
  cases side <;> rfl

@[simp] theorem key_release (r : Record) (side : Side) : (r.release side).key = r.key := by
  unfold release
  simp only
  split <;> simp

@[simp] theorem key_report (r : Record) (used : Bool) (side : Side) :
    (r.report used side).key = r.key := by
  unfold report
  simp only
  split
  · split <;> simp
  · simp

@[simp] theorem key_setControl (r : Record) (side : Side) (mask : Mask) :
    (r.setControl side mask).key = r.key := by
  simp [setControl]

@[simp] theorem key_addEvents (r : Record) (side : Side) (e : Events) :
    (r.addEvents side e).key = r.key := by
  simp [addEvents]

theorem coupling_eq_uncoupled (r : Record) :
    r.coupling = .uncoupled ↔ ∀ side, (r.partner side).isActive = false := by
  constructor
  · intro uncoupled side
    cases offerer : r.offering.isActive <;> cases acceptor : r.accepting.isActive <;> cases side <;>
      simp_all [coupling, Coupling.ofActive, partner]
  · intro inactive
    have offerer : r.offering.isActive = false := inactive .offering
    have acceptor : r.accepting.isActive = false := inactive .accepting
    simp [coupling, Coupling.ofActive, offerer, acceptor]

/-- Nobody is left in a record when the side that stays is inactive. -/
theorem uncoupled_release {r : Record} {side : Side} :
    (r.release side).coupling = .uncoupled ↔ (r.partner side.other).isActive = false := by
  rw [coupling_eq_uncoupled]
  constructor
  · intro inactive
    have gone := inactive side.other
    rwa [Partner.isActive, conn_release, if_neg side.other_ne] at gone
  · intro inactive z
    rw [Partner.isActive, conn_release]
    by_cases here : z = side
    · rw [if_pos here]
      rfl
    · rw [if_neg here, Side.eq_other here]
      exact inactive

structure Sound (r : Record) : Prop where
  attended : r.coupling ≠ .uncoupled
  apart : r.accepting.isActive = true → r.offering.id ≠ r.accepting.id

theorem Sound.of_sameSides {r s : Record} (sound : r.Sound) (same : r.SameSides s) : s.Sound := by
  refine ⟨same.coupling ▸ sound.attended, fun accepted => ?_⟩
  have offerer : s.offering.id = r.offering.id := (same .offering).1
  have acceptor : s.accepting.id = r.accepting.id := (same .accepting).1
  rw [offerer, acceptor]
  exact sound.apart ((same.isActive .accepting).symm.trans accepted)

theorem sound_newOffer (t : Table) (name : Name) (wanted id : Identity) (conn : ConnId) :
    (t.newOffer name wanted id conn).Sound := by
  constructor
  · intro uncoupled
    have inactive := (coupling_eq_uncoupled _).mp uncoupled .offering
    simp [Table.newOffer, partner, Partner.active, Partner.isActive] at inactive
  · intro accepted
    simp [Table.newOffer, Partner.isActive] at accepted

theorem sound_couple {r : Record} {wanted requester : Identity}
    (fits : r.fits wanted requester = true) (conn : ConnId) : (r.couple requester conn).Sound := by
  constructor
  · intro uncoupled
    have inactive := (coupling_eq_uncoupled _).mp uncoupled .accepting
    simp [couple, partner, Partner.active, Partner.isActive] at inactive
  · intro _ same
    have own : r.offering.id = requester := same
    simp [Record.fits, own] at fits

theorem Sound.release {r : Record} (sound : r.Sound) (side : Side)
    (left : (r.release side).coupling ≠ .uncoupled) :
    (r.release side).Sound := by
  refine ⟨left, fun accepted => ?_⟩
  have id : ∀ other, ((r.release side).partner other).id = (r.partner other).id := by
    intro other
    rw [partner_release]
    split
    · rfl
    · split <;> rfl
  have before : (r.partner .accepting).isActive = true := by
    have active : ((r.release side).partner .accepting).isActive = true := accepted
    rw [Partner.isActive, conn_release] at active
    split at active
    · simp at active
    · exact active
  have offerer : (r.release side).offering.id = r.offering.id := id .offering
  have acceptor : (r.release side).accepting.id = r.accepting.id := id .accepting
  rw [offerer, acceptor]
  exact sound.apart before

end Record

namespace Table

structure Sound (t : Table) : Prop where
  distinct : (t.records.map (·.key)).Nodup
  issued : ∀ r ∈ t.records, ∃ proc n, n < t.sequence ∧ r.key = .compose proc n
  bounded : t.sequence ≤ Key.sequenceLimit
  records : ∀ r ∈ t.records, r.Sound

variable {t s : Table}

theorem sound_new (capacity : Option Nat) : (new capacity).Sound where
  distinct := List.nodup_nil
  issued := by simp [new]
  bounded := by simp [new]
  records := by simp [new]

theorem Sound.get? (sound : t.Sound) {r : Record} (mem : r ∈ t.records) :
    t.get? r.key = some r := by
  have distinct := sound.distinct
  unfold Table.get?
  generalize t.records = rs at mem distinct
  induction rs with
  | nil => simp at mem
  | cons first rest ih =>
    rw [List.map_cons, List.nodup_cons] at distinct
    rcases List.mem_cons.mp mem with rfl | later
    · simp
    · have apart : (first.key == r.key) = false := by
        have other : first.key ≠ r.key := fun same =>
          distinct.1 (List.mem_map.mpr ⟨r, later, same.symm⟩)
        simpa using other
      rw [List.find?_cons, apart]
      exact ih later distinct.2

theorem Sound.eq_of_key (sound : t.Sound) {r s : Record} (one : r ∈ t.records)
    (other : s ∈ t.records) (same : r.key = s.key) : r = s := by
  have found := sound.get? one
  rw [same, sound.get? other] at found
  exact (Option.some.inj found).symm

/-- Records may be changed and dropped, as long as each that is left keeps its key. -/
theorem Sound.filterMap (sound : t.Sound) (f : Record → Option Record)
    (each : ∀ r ∈ t.records, ∀ s, f r = some s → s.key = r.key ∧ s.Sound) :
    ({ t with records := t.records.filterMap f } : Table).Sound := by
  refine ⟨?_, ?_, sound.bounded, ?_⟩
  · have distinct := sound.distinct
    generalize t.records = rs at each distinct
    induction rs with
    | nil => simp
    | cons first rest ih =>
      rw [List.map_cons, List.nodup_cons] at distinct
      have tail := ih (fun r mem => each r (List.mem_cons_of_mem _ mem)) distinct.2
      rw [List.filterMap_cons]
      split
      · exact tail
      · rename_i s kept
        rw [List.map_cons, List.nodup_cons]
        refine ⟨fun again => distinct.1 ?_, tail⟩
        obtain ⟨u, mem, same⟩ := List.mem_map.mp again
        obtain ⟨r, later, left⟩ := List.mem_filterMap.mp mem
        have first_key := (each first List.mem_cons_self s kept).1
        have later_key := (each r (List.mem_cons_of_mem _ later) u left).1
        exact List.mem_map.mpr ⟨r, later, later_key.symm.trans (same.trans first_key)⟩
  · intro s mem
    obtain ⟨r, old, left⟩ := List.mem_filterMap.mp mem
    obtain ⟨proc, n, below, key⟩ := sound.issued r old
    exact ⟨proc, n, below, (each r old s left).1.trans key⟩
  · intro s mem
    obtain ⟨r, old, left⟩ := List.mem_filterMap.mp mem
    exact (each r old s left).2

theorem Sound.map (sound : t.Sound) (f : Record → Record)
    (each : ∀ r ∈ t.records, (f r).key = r.key ∧ (f r).Sound) :
    ({ t with records := t.records.map f } : Table).Sound := by
  rw [← List.filterMap_eq_map]
  apply sound.filterMap
  intro r mem s left
  obtain rfl := Option.some.inj left
  exact each r mem

theorem Sound.filter (sound : t.Sound) (p : Record → Bool) :
    ({ t with records := t.records.filter p } : Table).Sound := by
  rw [← List.filterMap_eq_filter]
  apply sound.filterMap
  intro r mem s kept
  obtain ⟨rfl, -⟩ := Option.guard_eq_some_iff.mp kept
  exact ⟨rfl, sound.records r mem⟩

/-- With distinct keys, a change under a key is a change of the one record that is found there. -/
theorem Sound.update (sound : t.Sound) {key : Key} {f : Record → Record}
    (one : ∀ r, t.get? key = some r → (f r).key = r.key ∧ (f r).Sound) :
    (t.update key f).Sound := by
  apply sound.map
  intro r mem
  split
  · rename_i here
    have found := sound.get? mem
    rw [beq_iff_eq.mp here] at found
    exact one r found
  · exact ⟨rfl, sound.records r mem⟩

theorem Sound.update_sameSides (sound : t.Sound) {key : Key} {f : Record → Record}
    (keeps : ∀ r, t.get? key = some r → (f r).key = r.key ∧ r.SameSides (f r)) :
    (t.update key f).Sound := by
  apply sound.update
  intro r found
  have kept := keeps r found
  exact ⟨kept.1, (sound.records r (mem_of_get? found)).of_sameSides kept.2⟩

theorem oldestIn_some {p : Record → Bool} {rs : List Record} {r : Record}
    (found : oldestIn p rs = some r) :
    r ∈ rs ∧ p r = true := by
  fun_induction oldestIn p rs generalizing r with
  | case1 => simp at found
  | case2 first rest fits s later older ih =>
    obtain rfl := Option.some.inj found
    have facts := ih later
    exact ⟨List.mem_cons_of_mem _ facts.1, facts.2⟩
  | case3 first rest fits s later older ih =>
    obtain rfl := Option.some.inj found
    exact ⟨List.mem_cons_self, fits⟩
  | case4 first rest fits later ih =>
    obtain rfl := Option.some.inj found
    exact ⟨List.mem_cons_self, fits⟩
  | case5 first rest unfit ih =>
    have facts := ih found
    exact ⟨List.mem_cons_of_mem _ facts.1, facts.2⟩

theorem Sound.createOffer (sound : t.Sound) {name : Name} {wanted id : Identity} {conn : ConnId}
    {key : Key} (made : t.createOffer name wanted id conn = (some key, s)) : s.Sound := by
  obtain ⟨-, room, -, rfl⟩ := createOffer_some made
  have later := t.le_nextNumber id.proc
  refine ⟨?_, ?_, room, ?_⟩
  · rw [List.map_append, List.nodup_append]
    refine ⟨sound.distinct, by simp, ?_⟩
    rintro key old other new rfl
    obtain ⟨r, mem, rfl⟩ := List.mem_map.mp old
    obtain ⟨proc, n, below, issued⟩ := sound.issued r mem
    simp only [List.map_cons, List.map_nil, List.mem_singleton] at new
    have bound := sound.bounded
    have same := Key.number_of_compose (by omega) room (issued.symm.trans new)
    omega
  · intro r mem
    rcases List.mem_append.mp mem with old | new
    · obtain ⟨proc, n, below, issued⟩ := sound.issued r old
      exact ⟨proc, n, by simp only; omega, issued⟩
    · obtain rfl := List.mem_singleton.mp new
      exact ⟨id.proc, t.nextNumber id.proc, Nat.lt_succ_self _, rfl⟩
  · intro r mem
    rcases List.mem_append.mp mem with old | new
    · exact sound.records r old
    · obtain rfl := List.mem_singleton.mp new
      exact Record.sound_newOffer t name wanted id conn

theorem Sound.matchOrMake (sound : t.Sound) {name : Name} {wanted requester : Identity}
    {conn : ConnId} {outcome : MatchOutcome}
    (done : t.matchOrMake name wanted requester conn = (outcome, s)) : s.Sound := by
  unfold Table.matchOrMake at done
  split at done
  · rename_i r pending
    obtain ⟨-, rfl⟩ := Prod.mk.inj done
    obtain ⟨mem, fits⟩ := oldestIn_some pending
    simp only [Bool.and_eq_true] at fits
    apply sound.update
    intro r' found
    obtain rfl := Option.some.inj ((sound.get? mem).symm.trans found)
    exact ⟨rfl, Record.sound_couple fits.2 conn⟩
  · split at done
    · rename_i made
      obtain ⟨-, rfl⟩ := Prod.mk.inj done
      exact sound.createOffer made
    · rename_i refused
      obtain ⟨-, rfl⟩ := Prod.mk.inj done
      rw [createOffer_none refused]
      exact sound

theorem Sound.retract (sound : t.Sound) {key : Key} {id : Identity} {release : Release}
    (done : t.retract key id = .ok (release, s)) : s.Sound := by
  unfold Table.retract at done
  split at done
  · simp at done
  · rename_i r side active
    have found := (activePartnerOf_ok active).1
    simp only at done
    split at done
    · obtain ⟨-, rfl⟩ := Prod.mk.inj (Except.ok.inj done)
      exact sound.filter _
    · rename_i left
      obtain ⟨-, rfl⟩ := Prod.mk.inj (Except.ok.inj done)
      apply sound.update
      intro r' again
      obtain rfl := Option.some.inj (found.symm.trans again)
      exact ⟨r.key_release side, (sound.records r (mem_of_get? found)).release side left⟩

theorem Sound.addEvents (sound : t.Sound) {key : Key} {id : Identity} {events : Events}
    (done : t.addEvents key id events = .ok s) : s.Sound := by
  unfold Table.addEvents at done
  split at done
  · simp at done
  · obtain rfl := Except.ok.inj done
    apply sound.update_sameSides
    intro r _
    exact ⟨r.key_addEvents _ _, r.sameSides_addEvents _ _⟩

theorem Sound.clearEvents (sound : t.Sound) (id : Identity) : (t.clearEvents id).2.Sound := by
  apply sound.map
  intro r mem
  exact ⟨rfl, (sound.records r mem).of_sameSides (r.sameSides_clear id)⟩

end Table
end SharedVariables
