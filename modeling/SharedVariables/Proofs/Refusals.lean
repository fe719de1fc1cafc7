import SharedVariables.Proofs.Handling
import SharedVariables.Switchboard

/-! Requests that fail. Whatever stands in the way of a request is found before anything is changed
or sent, so nothing comes of it but the refusal. -/
namespace SharedVariables

namespace Switchboard

/-- What a post does to the queue of its connection. -/
def carry (s : Switchboard) : Post → Switchboard
  | .deliver conn signal => (s.send conn signal).2
  | .hangUp conn => (s.remove conn true).2

theorem line?_setLine (s : Switchboard) (conn : ConnId) (l : Line) {c : ConnId} (other : c ≠ conn) :
    (s.setLine conn l).line? c = s.line? c := by
  have last : ([(conn, l)].find? fun e => e.1 == c) = none := by
    simpa using fun same => other same.symm
  rw [line?, setLine, List.find?_append, last, Lookup.find_strike Prod.fst s.lines conn c,
    if_neg other, Option.or_none]
  rfl

theorem line?_onLine {α : Type} (s : Switchboard) (conn : ConnId) (missing : α)
    (f : Line → α × Line) {c : ConnId} (other : c ≠ conn) :
    (s.onLine conn missing f).2.line? c = s.line? c := by
  unfold onLine
  split
  · rfl
  · exact line?_setLine s conn _ other

/-- What is sent to one connection does not show on the queue of another. -/
theorem line?_send (s : Switchboard) (conn : ConnId) (signal : Signal) {c : ConnId}
    (other : c ≠ conn) :
    (s.send conn signal).2.line? c = s.line? c := by
  unfold send
  split
  · rfl
  · exact line?_onLine s conn false _ other

end Switchboard

namespace Broker

variable {b : Broker} {conn : ConnId} {request : Signal} {h : Handling} {fault : Fault}

theorem Handled.of_error (handled : Handled b conn request h) (failed : h.outcome = .error fault) :
    h = b.refuse fault := by
  cases handled with
  | settled _ outcome =>
    have same : outcome = .error fault := failed
    rw [same]
    rfl
  | registered | listening | shared | retracted | reported | restrained | assigned |
      alerted | cleared =>
    exact absurd failed nofun

theorem dispatch_of_error (failed : (b.handle conn request).outcome = .error fault) :
    b.dispatch conn request = (.refusal request.kind request.subject fault, b, []) := by
  rw [dispatch, (handle_handled b conn request).of_error failed]
  rfl

/-- Reasons to refuse a request to share: it speaks for another processor, it gives no name, or it
would be a new offer and there is no room for one. -/
inductive Barred (b : Broker) (conn : ConnId) (text : String) (wanted requester : Identity) :
    Prop where
  | foreign {id : Identity} (acts : b.caller conn = .ok id) (other : requester ≠ id)
  | nameless {fault : Fault} (defect : Name.ofText text = .error fault)
  | crowded {name : Name} (sound : Name.ofText text = .ok name)
      (unmatched : b.table.pendingOffer? name wanted requester = none)
      (full : b.table.isFull = true ∨ Key.sequenceLimit ≤ b.table.sequence)

theorem Barred.refused {text : String} {wanted requester : Identity}
    (barred : b.Barred conn text wanted requester) :
    ∃ fault, (b.matchOrMake conn text wanted requester).outcome = .error fault := by
  unfold matchOrMake
  cases caller : b.caller conn with
  | error e => exact ⟨e, rfl⟩
  | ok id =>
    simp only
    split
    · exact ⟨_, rfl⟩
    · rename_i own
      cases barred with
      | foreign acts other =>
        obtain rfl := Except.ok.inj (caller.symm.trans acts)
        exact absurd other own
      | nameless defect =>
        rw [defect]
        exact ⟨_, rfl⟩
      | crowded sound unmatched full =>
        simp only [sound, Table.matchOrMake, unmatched, Table.createOffer_eq_none_iff.mpr full]
        exact ⟨_, rfl⟩

/-- A request that fails leaves the table, the roster and all queues as they are, and its refusal
reaches the queue of the requester alone. So a request to share that is barred uses up no running
number and tells nobody. -/
theorem failed_request_changes_nothing (b : Broker) (conn : ConnId) (request : Signal) :
    (∀ fault, (b.handle conn request).outcome = .error fault →
      (b.handle conn request).broker = b ∧ (b.handle conn request).posts = [] ∧
      b.dispatch conn request = (.refusal request.kind request.subject fault, b, []) ∧
      (b.step (.request conn request)).1 = b ∧
      ∀ board : Switchboard,
        (b.step (.request conn request)).2.foldl Switchboard.carry board =
          (if (b.roster.get? conn).isSome
            then (board.send conn (.refusal request.kind request.subject fault)).2 else board) ∧
        ∀ c, c ≠ conn →
          ((b.step (.request conn request)).2.foldl Switchboard.carry board).line?
            c = board.line? c) ∧
    ∀ text wanted requester, request = .matchOrMake text wanted requester →
      b.Barred conn text wanted requester →
      b.dispatch conn request = (.matchOrMakeResult .null .uncoupled, b, []) := by
  constructor
  · intro fault failed
    have refused := (handle_handled b conn request).of_error failed
    have dispatched := dispatch_of_error failed
    have stepped : b.step (.request conn request) =
        (b, b.send conn (.refusal request.kind request.subject fault)) := by
      rw [step, dispatched]
      rfl
    have queued : ∀ board : Switchboard,
      (b.step (.request conn request)).2.foldl Switchboard.carry board =
        if (b.roster.get? conn).isSome
          then (board.send conn (.refusal request.kind request.subject fault)).2 else board := by
      intro board
      rw [stepped, send]
      split <;> rfl
    refine ⟨by rw [refused]; rfl, by rw [refused]; rfl, dispatched, by rw [stepped], ?_⟩
    intro board
    refine ⟨queued board, ?_⟩
    intro c other
    rw [queued]
    split
    · exact board.line?_send conn _ other
    · rfl
  · rintro text wanted requester rfl barred
    obtain ⟨fault, failed⟩ := barred.refused
    exact dispatch_of_error failed

/-- The table has room for one variable and holds it; the next offer of the same processor is
refused. -/
theorem failed_request_crowded :
    let id : Identity := ⟨2001, 0, 0⟩
    let b := ((new (some 1) {}).run [.connected ⟨1⟩ "", .request ⟨1⟩ (.registerProcessor id 7),
      .request ⟨1⟩ (.matchOrMake "X" .general id)]).1
    let request : Signal := .matchOrMake "Y" .general id
    b.Barred ⟨1⟩ "Y" .general id ∧
      b.dispatch ⟨1⟩ request = (.matchOrMakeResult .null .uncoupled, b, []) ∧
      ∃ fault, (b.handle ⟨1⟩ request).outcome = .error fault ∧
        (b.handle ⟨1⟩ request).broker = b := by
  intro id b request
  have sound : Name.ofText "Y" = .ok ⟨"Y", by decide⟩ := Name.ofText_text ⟨"Y", by decide⟩
  have barred : b.Barred ⟨1⟩ "Y" .general id :=
    .crowded sound (by decide +kernel) (.inl (by decide +kernel))
  obtain ⟨fault, failed⟩ := barred.refused
  obtain ⟨changes, dispatched⟩ := failed_request_changes_nothing b ⟨1⟩ request
  exact ⟨barred, dispatched _ _ _ rfl barred, fault, failed, (changes fault failed).1⟩

end Broker
end SharedVariables
