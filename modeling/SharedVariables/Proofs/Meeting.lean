import SharedVariables.Proofs.Orderly

/-! Two processors that ask for each other meet. An offer to one processor waits for it through
whatever others do: they neither fit the offer nor hold a side of it, so only the two of them, or
the loss of the connection, can end it. -/
namespace SharedVariables

namespace Table

/-- What fits is found, and nothing older than what is found fits. -/
theorem oldestIn_least {p : Record → Bool} {rs : List Record} {r : Record} (mem : r ∈ rs)
    (fits : p r = true) :
    ∃ oldest, oldestIn p rs = some oldest ∧ oldest.serial ≤ r.serial := by
  induction rs with
  | nil => simp at mem
  | cons head rest ih =>
    rw [oldestIn]
    rcases List.mem_cons.mp mem with rfl | later
    · rw [if_pos fits]
      split
      · split
        · rename_i older
          exact ⟨_, rfl, Nat.le_of_lt older⟩
        · exact ⟨_, rfl, Nat.le_refl _⟩
      · exact ⟨_, rfl, Nat.le_refl _⟩
    · obtain ⟨oldest, found, least⟩ := ih later
      rw [found]
      split
      · simp only
        split
        · exact ⟨_, rfl, least⟩
        · rename_i younger
          exact ⟨_, rfl, by omega⟩
      · exact ⟨_, rfl, least⟩

theorem oldestIn_le {p : Record → Bool} {rs : List Record} {oldest r : Record}
    (found : oldestIn p rs = some oldest) (mem : r ∈ rs) (fits : p r = true) :
    oldest.serial ≤ r.serial := by
  obtain ⟨least, again, le⟩ := oldestIn_least mem fits
  obtain rfl := Option.some.inj (found.symm.trans again)
  exact le

end Table

namespace Record

/-- A pending offer of a name by one processor that another may take up: it is for anyone, or for
that other. -/
structure Awaits (name : Name) (offerer acceptor : Identity) (r : Record) : Prop where
  pending : r.isPending = true
  name : r.name = name
  offerer : r.offering.id = offerer
  target : r.accepting.id.isGeneral = true ∨ r.accepting.id = acceptor

variable {name : Name} {offerer acceptor : Identity} {conn : ConnId} {r s : Record}

/-- What a request to a particular processor finds. -/
theorem awaits_iff (particular : offerer.isGeneral = false) (apart : offerer ≠ acceptor) :
    (r.isPending && r.name == name && r.fits offerer acceptor) = true ↔
      r.Awaits name offerer acceptor := by
  have fits : r.fits offerer acceptor = true ↔
      r.offering.id = offerer ∧ (r.accepting.id.isGeneral = true ∨ r.accepting.id = acceptor) := by
    unfold Record.fits
    by_cases own : r.offering.id = acceptor
    · simp only [own, if_true, Bool.false_eq_true, false_iff]
      rintro ⟨same, -⟩
      exact apart same.symm
    · cases general : r.accepting.id.isGeneral <;> simp [own, particular, general]
  rw [Bool.and_eq_true, Bool.and_eq_true, beq_iff_eq, fits]
  constructor
  · rintro ⟨⟨pending, named⟩, own, target⟩
    exact ⟨pending, named, own, target⟩
  · rintro ⟨pending, named, own, target⟩
    exact ⟨⟨pending, named⟩, own, target⟩

/-- An offer to one processor that nobody has taken up, held over a connection. -/
structure Standing (name : Name) (offerer acceptor : Identity) (conn : ConnId) (r : Record) :
    Prop where
  name : r.name = name
  offerer : r.offering.id = offerer
  held : r.offering.conn = some conn
  target : r.accepting.id = acceptor
  vacant : r.accepting.conn = none

theorem Standing.awaits (standing : r.Standing name offerer acceptor conn) :
    r.Awaits name offerer acceptor := by
  refine ⟨?_, standing.name, standing.offerer, .inr standing.target⟩
  simp [isPending, Partner.isActive, standing.held, standing.vacant]

theorem Standing.of_sameSides (standing : r.Standing name offerer acceptor conn)
    (origin : r.SameOrigin s) (same : r.SameSides s) : s.Standing name offerer acceptor conn where
  name := origin.name.trans standing.name
  offerer := (same .offering).1.trans standing.offerer
  held := (same .offering).2.trans standing.held
  target := (same .accepting).1.trans standing.target
  vacant := (same .accepting).2.trans standing.vacant

theorem Standing.withdrawn (standing : r.Standing name offerer acceptor conn) {caller : Identity}
    (other : caller ≠ offerer) : r.withdrawn caller = some r := by
  have inactive : r.activeSideOf? caller = none := by
    have away : r.offering.id ≠ caller := fun own => other (own.symm.trans standing.offerer)
    unfold activeSideOf? sideOf?
    by_cases asked : r.accepting.id = caller <;>
      simp [away, asked, partner, Partner.isActive, standing.vacant, Option.filter]
  rw [Record.withdrawn, inactive]

theorem Standing.remains (standing : r.Standing name offerer acceptor conn) {gone : ConnId}
    (other : gone ≠ conn) :
    r.remains [gone] = some r := by
  apply remains_of_not_over
  intro side
  rw [Bool.eq_false_iff, ne_eq, Partner.isOver_singleton]
  cases side with
  | offering =>
    intro own
    exact other (Option.some.inj (own.symm.trans standing.held))
  | accepting =>
    intro taken
    have none := standing.vacant.symm.trans taken
    simp at none

/-- Who asks for anyone must have the number of the acceptor to take up the offer, and who asks for
the offerer must be the acceptor. -/
theorem Standing.not_fits (standing : r.Standing name offerer acceptor conn)
    (particular : acceptor.isGeneral = false) {requester : Identity}
    (other : requester.proc ≠ acceptor.proc) (wanted : Identity) :
    r.fits wanted requester = false := by
  have apart : acceptor ≠ requester := fun same => other (same ▸ rfl)
  have number : acceptor.proc ≠ requester.proc := fun same => other same.symm
  unfold Record.fits
  simp [standing.target, particular, apart, number]

end Record

namespace Table

/-- Who makes a request, or withdraws. -/
def Operation.actor? : Operation → Option Identity
  | .matchOrMake _ _ requester _ => some requester
  | .createOffer _ _ offerer _ => some offerer
  | .retract _ caller => some caller
  | _ => none

/-- An operation by neither of two processors, nor by one with the number of the second, that leaves
a connection alone. -/
structure Operation.Outside (offerer acceptor : Identity) (conn : ConnId) (op : Operation) :
    Prop where
  others : ∀ id, op.actor? = some id → id ≠ offerer ∧ id.proc ≠ acceptor.proc
  connected : op ≠ .disconnect conn

variable {t : Table} {op : Operation} {name : Name} {offerer acceptor : Identity}
  {conn : ConnId} {r : Record}

theorem fate_of_standing (standing : r.Standing name offerer acceptor conn)
    (particular : acceptor.isGeneral = false) (outside : op.Outside offerer acceptor conn) :
    ∃ s, t.fate op r = some s ∧ s.Standing name offerer acceptor conn := by
  have kept : ∀ {s}, t.fate op r = some s → r.SameSides s →
      ∃ s, t.fate op r = some s ∧ s.Standing name offerer acceptor conn :=
    fun left same => ⟨_, left, standing.of_sameSides (sameOrigin_of_fate left) same⟩
  have still : r.SameSides r := fun _ => ⟨rfl, rfl⟩
  cases op with
  | matchOrMake asked wanted requester =>
    have unfit := standing.not_fits particular (outside.others requester rfl).2 wanted
    have passed : t.pendingOffer? asked wanted requester ≠ some r := by
      intro found
      have fits := (oldestIn_some found).2
      simp [unfit] at fits
    exact kept (by simp [fate, passed]) still
  | createOffer | reap => exact kept rfl still
  | retract key caller =>
    have stays := standing.withdrawn (outside.others caller rfl).1
    exact kept (by simp [fate, stays]) still
  | disconnect gone =>
    have other : gone ≠ conn := fun same => outside.connected (same ▸ rfl)
    exact kept (standing.remains other) still
  | addEvents key id events =>
    refine kept rfl ?_
    split
    · exact r.sameSides_alerted id events
    · exact still
  | clearEvents id => exact kept rfl (r.sameSides_clear id)
  | amend key amendment =>
    refine kept rfl ?_
    split
    · exact r.sameSides_amend amendment
    · exact still

/-- Others may do what they like: the offer stands where it was made. -/
theorem standing_performAll (sound : t.Sound) {key : Key} (found : t.get? key = some r)
    (standing : r.Standing name offerer acceptor conn) (particular : acceptor.isGeneral = false)
    {ops : List Operation} (outside : ∀ op ∈ ops, op.Outside offerer acceptor conn) :
    ∃ s, (t.performAll ops).get? key = some s ∧ s.Standing name offerer acceptor conn := by
  induction ops generalizing t r with
  | nil => exact ⟨r, found, standing⟩
  | cons op later ih =>
    obtain ⟨s, left, stands⟩ :=
      fate_of_standing (t := t) standing particular (outside op List.mem_cons_self)
    obtain ⟨mem, rfl⟩ := sound.get?_iff.mp found
    exact ih (sound.perform op) (get?_perform sound mem left) stands
      fun op mem => outside op (List.mem_cons_of_mem _ mem)

theorem matchOrMake_created {wanted requester target : Identity} {key : Key} {u : Table}
    (made : t.matchOrMake name wanted requester conn = (.created key target, u)) :
    key = (t.newOffer name wanted requester conn).key ∧
      t.newOffer name wanted requester conn ∈ u.records := by
  unfold matchOrMake at made
  split at made
  · simp at made
  · split at made
    · rename_i offered
      obtain ⟨same, rfl⟩ := Prod.mk.inj made
      obtain ⟨rfl, -⟩ := MatchOutcome.created.inj same
      obtain ⟨-, -, key, rfl⟩ := createOffer_some offered
      exact ⟨key, List.mem_append_right _ List.mem_cons_self⟩
    · simp at made

/-- A request takes up the oldest offer that awaits it; a standing offer is passed over for an older
one only. -/
theorem Chronicled.request_meets {log : List Issue} (kept : t.Chronicled log) {key : Key}
    {offer : Record} (found : t.get? key = some offer)
    (standing : offer.Standing name offerer acceptor conn)
    (particular : offerer.isGeneral = false) (apart : offerer ≠ acceptor) :
    ∃ oldest ∈ t.records, oldest.Awaits name offerer acceptor ∧
      (∀ r ∈ t.records, r.Awaits name offerer acceptor → oldest.serial ≤ r.serial) ∧
      ((∀ r ∈ t.records, r.Awaits name offerer acceptor → offer.serial ≤ r.serial) →
        oldest.key = key) ∧
      ∀ other, (t.matchOrMake name offerer acceptor other).1 = .matched oldest.key offerer ∧
        (t.matchOrMake name offerer acceptor other).2.get? oldest.key =
          some (oldest.couple acceptor other) := by
  obtain ⟨here, key⟩ := kept.sound.get?_iff.mp found
  have eligible : ∀ r : Record, (r.isPending && r.name == name && r.fits offerer acceptor) = true ↔
      r.Awaits name offerer acceptor := fun r => Record.awaits_iff particular apart
  obtain ⟨oldest, pending, -⟩ : ∃ oldest, t.pendingOffer? name offerer acceptor = some oldest ∧ _ :=
    oldestIn_least here ((eligible offer).mpr standing.awaits)
  have least : ∀ r ∈ t.records, r.Awaits name offerer acceptor → oldest.serial ≤ r.serial :=
    fun r mem awaits => oldestIn_le pending mem ((eligible r).mpr awaits)
  obtain ⟨there, fits⟩ := oldestIn_some pending
  have awaits := (eligible oldest).mp fits
  refine ⟨oldest, there, awaits, least, ?_, ?_⟩
  · intro none
    have same := Nat.le_antisymm (least offer here standing.awaits) (none oldest there awaits)
    rw [kept.eq_of_serial there here same, key]
  · intro other
    constructor
    · rw [matchOrMake, pending, ← awaits.offerer]
    · have coupled : t.fate (.matchOrMake name offerer acceptor other) oldest =
          some (oldest.couple acceptor other) := by
        simp [fate, pending]
      exact get?_perform kept.sound there coupled

/-- A processor offers a variable to another, and that other asks for it after anything that
outsiders have done. The offer still stands; the request takes up the oldest offer that awaits it,
which is this one unless an older one does, and it does so however crowded the table is. -/
theorem complementary_requests_meet {capacity : Option Nat} {before between : List Operation}
    {name : Name} {offerer acceptor target : Identity} {conn : ConnId} {key : Key} {t : Table}
    (apart : offerer ≠ acceptor) (offererParticular : offerer.isGeneral = false)
    (acceptorParticular : acceptor.isGeneral = false)
    (made : ((new capacity).performAll before).matchOrMake name acceptor offerer conn =
      (.created key target, t))
    (outside : ∀ op ∈ between, op.Outside offerer acceptor conn) :
    let u := t.performAll between
    ∃ offer, u.get? key = some offer ∧ offer.Standing name offerer acceptor conn ∧
      ∃ oldest ∈ u.records, oldest.Awaits name offerer acceptor ∧
        (∀ r ∈ u.records, r.Awaits name offerer acceptor → oldest.serial ≤ r.serial) ∧
        ((∀ r ∈ u.records, r.Awaits name offerer acceptor → offer.serial ≤ r.serial) →
          oldest.key = key) ∧
        ∀ other, (u.matchOrMake name offerer acceptor other).1 = .matched oldest.key offerer ∧
          (u.matchOrMake name offerer acceptor other).2.get? oldest.key =
            some (oldest.couple acceptor other) := by
  have run := (chronicled_run capacity before).perform (.matchOrMake name acceptor offerer conn)
  simp only [perform, made] at run
  obtain ⟨rfl, mem⟩ := matchOrMake_created made
  have fresh : (((new capacity).performAll before).newOffer name acceptor offerer conn).Standing
    name offerer acceptor
      conn := ⟨rfl, rfl, rfl, rfl, rfl⟩
  obtain ⟨offer, found, standing⟩ :=
    standing_performAll run.sound (run.sound.get? mem) fresh acceptorParticular outside
  exact ⟨offer, found, standing,
    (run.performAll between).request_meets found standing offererParticular apart⟩

/-- The table is full with the one offer, a third processor has asked for anyone, for the offerer
and to withdraw the offer, and a connection is gone; the acceptor still finds the offer. -/
theorem complementary_requests_meet_crowded :
    let name : Name := ⟨"X", by decide⟩
    let offerer : Identity := ⟨2001, 0, 0⟩
    let acceptor : Identity := ⟨2002, 0, 0⟩
    let third : Identity := ⟨2003, 0, 0⟩
    let key : Key := .compose 2001 0
    let between : List Operation :=
      [.matchOrMake name .general third ⟨3⟩, .matchOrMake name offerer third ⟨3⟩,
      .retract key third, .disconnect ⟨3⟩]
    let t := ((new (some 1)).matchOrMake name acceptor offerer ⟨1⟩).2
    (∀ op ∈ between, op.Outside offerer acceptor ⟨1⟩) ∧ (t.performAll between).isFull = true ∧
      ∃ oldest ∈ (t.performAll between).records, oldest.Awaits name offerer acceptor ∧
        ((t.performAll between).matchOrMake name offerer acceptor ⟨2⟩).1 =
          .matched oldest.key offerer := by
  intro name offerer acceptor third key between t
  have outside : ∀ op ∈ between, op.Outside offerer acceptor ⟨1⟩ := by
    intro op mem
    simp only [between, List.mem_cons, List.not_mem_nil, or_false] at mem
    rcases mem with rfl | rfl | rfl | rfl <;> refine ⟨?_, by decide⟩ <;> intro id acts
    · obtain rfl := Option.some.inj acts
      decide
    · obtain rfl := Option.some.inj acts
      decide
    · obtain rfl := Option.some.inj acts
      decide
    · simp [Operation.actor?] at acts
  have made : ((new (some 1)).performAll []).matchOrMake name acceptor offerer ⟨1⟩ =
      (.created key acceptor, t) := by
    decide +kernel
  obtain ⟨-, -, -, oldest, mem, awaits, -, -, taken⟩ :=
    complementary_requests_meet (by decide) (by decide) (by decide) made outside
  exact ⟨outside, by decide +kernel, oldest, mem, awaits, (taken ⟨2⟩).1⟩

end Table
end SharedVariables
