import SharedVariables.Proofs.Seniority

/-! What a withdrawal does. It releases the caller's side and no other: a record with an active
partner left stays with that partner told, and one without is gone for good, since its key is never
given out again. -/
namespace SharedVariables

namespace Record

variable {r : Record} {side : Side}

/-- What a record becomes when one side leaves and the other stays. -/
structure LeftBy (side : Side) (r s : Record) : Prop where
  key : s.key = r.key
  name : s.name = r.name
  value : s.value = r.value
  serial : s.serial = r.serial
  state : s.state = .notShared
  left : s.partner side = { id := (r.partner side).id, conn := none, control := ∅, events := ∅ }
  stays : s.partner side.other =
    { r.partner side.other with events := (r.partner side.other).events ∪ .retracted }

theorem state_release (r : Record) (side : Side) : (r.release side).state = .notShared := by
  unfold release
  simp only
  split <;> simp

theorem leftBy_release (stays : (r.partner side.other).isActive = true) :
    r.LeftBy side (r.release side) where
  key := (r.sameOrigin_release side).key
  name := (r.sameOrigin_release side).name
  value := r.value_release side
  serial := (r.sameOrigin_release side).serial
  state := r.state_release side
  left := by rw [partner_release, if_pos rfl]; rfl
  stays := by rw [partner_release, if_neg side.other_ne, if_pos stays]; rfl

end Record

namespace Table

variable {t : Table} {key : Key} {caller : Identity} {r : Record} {side : Side}

/-- A key that was given out and has no record gets none from any operation. -/
theorem absent_perform {capacity : Option Nat} {ops : List Operation}
    (issued : key ∈ ((new capacity).issues ops).map (·.key))
    (absent : ((new capacity).performAll ops).get? key = none) (op : Operation) :
    ((new capacity).performAll (ops ++ [op])).get? key = none := by
  have sound := (sound_new capacity).performAll ops
  rw [performAll_concat]
  rw [get?, List.find?_eq_none] at absent ⊢
  intro s mem same
  have here : s.key = key := by simpa using same
  rcases (mem_perform sound).mp mem with ⟨r, old, kept⟩ | joins
  · have origin := (sameOrigin_of_fate kept).key
    exact absent r old (by simp [← origin, here])
  · -- A record that joins the others has a key that was never given out.
    have issue : ((new capacity).performAll ops).issue? op = some ⟨s.key, s.offering.id⟩ := by
      rw [issue?_eq, joins]
      rfl
    exact (fresh_issue issue).1 (here ▸ issued)

theorem absent_performAll {capacity : Option Nat} {ops : List Operation}
    (issued : key ∈ ((new capacity).issues ops).map (·.key))
    (absent : ((new capacity).performAll ops).get? key = none) (later : List Operation) :
    ((new capacity).performAll (ops ++ later)).get? key = none := by
  induction later generalizing ops with
  | nil => rwa [List.append_nil]
  | cons op rest ih =>
    have kept : key ∈ ((new capacity).issues (ops ++ [op])).map (·.key) := by
      rw [issues_append, List.map_append]
      exact List.mem_append_left _ issued
    have next := ih kept (absent_perform issued absent op)
    rwa [List.append_assoc] at next

/-- A record that an operation removes leaves a key that is never used again. -/
theorem absent_once_removed {capacity : Option Nat} {ops : List Operation} {op : Operation}
    (found : ((new capacity).performAll ops).get? key = some r)
    (removed : (((new capacity).performAll ops).perform op).get? key = none)
    (later : List Operation) :
    ((((new capacity).performAll ops).perform op).performAll later).get? key = none := by
  obtain ⟨mem, rfl⟩ := ((sound_new capacity).performAll ops).get?_iff.mp found
  have issued : r.key ∈ ((new capacity).issues (ops ++ [op])).map (·.key) := by
    rw [issues_append, List.map_append]
    exact List.mem_append_left _
      (List.mem_of_getElem? ((dated_performAll capacity ops).created r mem))
  have gone : ((new capacity).performAll (ops ++ [op] ++ later)).get? r.key = none :=
    absent_performAll issued (by rwa [performAll_concat]) later
  rwa [performAll_append, performAll_concat] at gone

/-- The side that a caller holds in the record of a key. -/
structure Holds (t : Table) (key : Key) (caller : Identity) (r : Record) (side : Side) : Prop where
  found : t.get? key = some r
  active : (r.partner side).isActive = true
  own : (r.partner side).id = caller

theorem Sound.activePartnerOf_iff (sound : t.Sound) :
    t.activePartnerOf key caller = .ok (r, side) ↔ t.Holds key caller r side := by
  constructor
  · intro ok
    obtain ⟨found, own, active⟩ := activePartnerOf_ok ok
    exact ⟨found, active, own⟩
  · intro holds
    have plays := (sound.records r (mem_of_get? holds.found)).activeSideOf?_iff.mpr
      ⟨holds.own, holds.active⟩
    rw [activePartnerOf_of_get? holds.found, plays]

theorem retract_error_iff {fault : Fault} :
    t.retract key caller = .error fault ↔ t.activePartnerOf key caller = .error fault := by
  unfold retract
  cases t.activePartnerOf key caller with
  | error e => simp
  | ok result =>
    simp only [reduceCtorEq, iff_false]
    split <;> simp

theorem perform_of_retract {release : Release} {u : Table}
    (done : t.retract key caller = .ok (release, u)) :
    t.perform (.retract key caller) = u := by
  simp only [perform, done]
  rfl

theorem retract_faults {fault : Fault} (failed : t.retract key caller = .error fault) :
    fault = .unknownKey key ∨ fault = .notPartner key caller := by
  rw [retract_error_iff] at failed
  cases found : t.get? key with
  | none =>
    simp only [activePartnerOf, partnerOf, found, Except.error.injEq] at failed
    exact .inl failed.symm
  | some r =>
    rw [activePartnerOf_of_get? found] at failed
    split at failed
    · simp at failed
    · exact .inr (Except.error.inj failed).symm

theorem retract_unknown_iff :
    t.retract key caller = .error (.unknownKey key) ↔ t.get? key = none := by
  rw [retract_error_iff]
  cases found : t.get? key with
  | none => simp [activePartnerOf, partnerOf, found]
  | some r =>
    rw [activePartnerOf_of_get? found]
    split <;> simp

theorem Sound.retract_notPartner_iff (sound : t.Sound) :
    t.retract key caller = .error (.notPartner key caller) ↔
      ∃ r, t.get? key = some r ∧ ∀ side, ¬ t.Holds key caller r side := by
  rw [retract_error_iff]
  cases found : t.get? key with
  | none => simp [activePartnerOf, partnerOf, found]
  | some r =>
    simp only [Option.some.injEq, exists_eq_left', ← sound.activePartnerOf_iff]
    rw [activePartnerOf_of_get? found]
    split <;> simp

theorem Sound.retract_leaves (sound : t.Sound) (holds : t.Holds key caller r side)
    (stays : (r.partner side.other).isActive = true) :
    t.retract key caller = .ok
      ({ key, name := r.name, oldCoupling := r.coupling
         remaining := some (r.partner side.other).id, removed := false },
           t.update key (·.release side)) := by
  have attended : (r.release side).coupling ≠ .uncoupled := by
    simp [Record.uncoupled_release, stays]
  obtain ⟨-, rfl⟩ := sound.get?_iff.mp holds.found
  simp only [Table.retract, sound.activePartnerOf_iff.mpr holds, if_neg attended,
    Record.departure, if_pos stays]

theorem Sound.retract_removes (sound : t.Sound) (holds : t.Holds key caller r side)
    (alone : (r.partner side.other).isActive = false) :
    t.retract key caller = .ok
      ({ key, name := r.name, oldCoupling := r.coupling, remaining := none, removed := true },
        t.erase key) := by
  have deserted : (r.release side).coupling = .uncoupled := Record.uncoupled_release.mpr alone
  obtain ⟨-, rfl⟩ := sound.get?_iff.mp holds.found
  simp [Table.retract, sound.activePartnerOf_iff.mpr holds, deserted, Record.departure, alone]

/-- A withdrawal fails, and changes nothing, exactly where the key has no record or the caller no
active side of it. Else it releases the side of the caller alone. With the other side active the
record stays, and that side is told; without it the record goes, and its key has none in any table
that follows. No other record is touched. -/
theorem retract_releases_own_side (capacity : Option Nat) (ops : List Operation) (key : Key)
    (caller : Identity) :
    let t := (new capacity).performAll ops
    (t.retract key caller = .error (.unknownKey key) ↔ t.get? key = none) ∧
    (t.retract key caller = .error (.notPartner key caller) ↔
      ∃ r, t.get? key = some r ∧ ∀ side, ¬ t.Holds key caller r side) ∧
    (∀ fault, t.retract key caller = .error fault →
      (fault = .unknownKey key ∨ fault = .notPartner key caller) ∧
        t.perform (.retract key caller) = t) ∧
    ∀ r side, t.Holds key caller r side →
      ((r.partner side.other).isActive = true → ∃ s u,
        t.retract key caller = .ok
          ({ key, name := r.name, oldCoupling := r.coupling
             remaining := some (r.partner side.other).id, removed := false }, u) ∧
        r.LeftBy side s ∧ u = { t with records := u.records } ∧
        ∀ other, u.get? other = if other = key then some s else t.get? other) ∧
      ((r.partner side.other).isActive = false → ∃ u,
        t.retract key caller = .ok
          ({ key, name := r.name, oldCoupling := r.coupling, remaining := none,
             removed := true }, u) ∧
        u = { t with records := u.records } ∧
        (∀ other, u.get? other = if other = key then none else t.get? other) ∧
        ∀ later, (u.performAll later).get? key = none) := by
  intro t
  have sound : t.Sound := (sound_new capacity).performAll ops
  refine ⟨retract_unknown_iff, sound.retract_notPartner_iff, ?_, ?_⟩
  · intro fault failed
    refine ⟨retract_faults failed, ?_⟩
    simp only [perform, failed]
    rfl
  · intro r side holds
    constructor
    · intro stays
      refine ⟨_, _, sound.retract_leaves holds stays, Record.leftBy_release stays, rfl, ?_⟩
      intro other
      rw [t.get?_update key (·.release side) fun s => (s.sameOrigin_release side).key, holds.found]
      rfl
    · intro alone
      have removes := sound.retract_removes holds alone
      refine ⟨_, removes, rfl, t.get?_erase key, ?_⟩
      have erased : t.perform (.retract key caller) = t.erase key := perform_of_retract removes
      rw [← erased]
      exact absent_once_removed holds.found (by rw [erased, get?_erase, if_pos rfl])

/-- The acceptor withdraws and couples again before the offerer leaves. Then the acceptor is told
and holds the variable alone with its value, the offerer cannot withdraw twice, and once the
acceptor leaves too the key is used up. -/
theorem retract_releases_own_side_recoupled :
    let name : Name := ⟨"X", by decide⟩
    let offerer : Identity := ⟨2001, 0, 0⟩
    let acceptor : Identity := ⟨2002, 0, 0⟩
    let key : Key := .compose 2001 0
    let ops : List Operation :=
      [.matchOrMake name acceptor offerer ⟨1⟩, .matchOrMake name offerer acceptor ⟨2⟩,
      .retract key acceptor, .matchOrMake name offerer acceptor ⟨2⟩, .amend key (.assign [7])]
    let coupled : Record :=
      { key, name, state := .idle, value := some [7], serial := 0
        offering := { id := offerer, conn := some ⟨1⟩, events := .matched ∪ .retracted }
        accepting := { id := acceptor, conn := some ⟨2⟩ } }
    let u := (new none).performAll (ops ++ [.retract key offerer])
    ((new none).performAll ops).Holds key offerer coupled .offering ∧
    (∃ left, coupled.LeftBy .offering left ∧ u.get? key = some left ∧
      u.Holds key acceptor left .accepting) ∧
    u.retract key offerer = .error (.notPartner key offerer) ∧
    ∃ release last, u.retract key acceptor = .ok (release, last) ∧ release.removed = true ∧
      ∀ later, (last.performAll later).get? key = none := by
  intro name offerer acceptor key ops coupled u
  have holds : ((new none).performAll ops).Holds key offerer coupled .offering :=
    ⟨by decide +kernel, rfl, rfl⟩
  have first := retract_releases_own_side none ops key offerer
  obtain ⟨left, after, told, leftBy, -, frame⟩ := (first.2.2.2 coupled .offering holds).1 rfl
  have same : u = after :=
    (performAll_concat (new none) ops (.retract key offerer)).trans (perform_of_retract told)
  have found : u.get? key = some left := by rw [same, frame, if_pos rfl]
  have own : left.accepting = { coupled.accepting with events := .retracted } := leftBy.stays
  have gone : left.offering = { id := offerer } := leftBy.left
  have held : u.Holds key acceptor left .accepting := by
    refine ⟨found, ?_, ?_⟩
    · rw [Record.partner, own]
      rfl
    · rw [Record.partner, own]
  have second := retract_releases_own_side none (ops ++ [.retract key offerer])
  refine ⟨holds, ⟨left, leftBy, found, held⟩, ?_, ?_⟩
  · refine (second key offerer).2.1.mpr ⟨left, found, ?_⟩
    rintro (_ | _) ⟨-, active, other⟩
    · simp [Record.partner, gone, Partner.isActive] at active
    · simp only [Record.partner, own] at other
      exact absurd other (by decide)
  · have alone : left.offering.isActive = false := by rw [gone]; rfl
    obtain ⟨last, removed, -, -, never⟩ :=
      ((second key acceptor).2.2.2 left .accepting held).2 alone
    exact ⟨_, last, removed, rfl, never⟩

end Table
end SharedVariables
