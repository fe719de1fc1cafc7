import SharedVariables.Proofs.Departure

/-! What the broker sends. Each kind of request has one kind of reply, for success and for refusal;
all else that goes out is a notice over an event channel or a farewell. -/
namespace SharedVariables

namespace Signal

/-- The kind of the reply to a request of a kind. -/
def Kind.answer : Kind → Kind
  | .registerProcessor | .registerEventChannel | .isRegistered | .mayUse | .maySet | .addEvent =>
    .yesNo
  | .matchOrMake => .matchOrMakeResult
  | .retractOffer => .retractResult
  | .findPairingKey => .pairingKeyIs
  | .setState | .getState => .stateIs
  | .setControl | .getControl => .controlIs
  | .getCoupling => .couplingIs
  | .getVarname => .varnameIs
  | .getValue => .valueIs
  | .assignValue => .assignWas
  | .getEvents => .eventsAre
  | .clearAllEvents => .allEventsCleared
  | .findOfferingId => .offeringIdIs
  | .getOfferingProcs => .offeringProcsAre
  | .getOfferedVars => .offeredVarsAre
  | .printDatabase => .databasePrinted
  | _ => .error

theorem Kind.answer_isReply (k : Kind) : k.answer.isReply = true := by cases k <;> decide

theorem kind_refusal (k : Kind) (key : Key) (fault : Fault) :
    (refusal k key fault).kind = k.answer := by
  cases k <;> rfl

/-- What is sent over event channels. -/
inductive Notice : Signal → Prop where
  | made (key : Key) (name : Name) (offerer : Identity) : Notice (.offerMade key name.text offerer)
  | matched (key : Key) (acceptor : Identity) : Notice (.offerMatched key acceptor)
  | retracted (key : Key) (leaver : Identity) : Notice (.offerRetracted key leaver)
  | pending (key : Key) (events : Events) : Notice (.eventsPending key events)

theorem Notice.isPush {signal : Signal} (notice : Notice signal) : signal.kind.isPush = true := by
  cases notice <;> rfl

end Signal

namespace Broker

variable {b : Broker} {conn : ConnId} {request : Signal}

theorem map_ok {α : Type} {outcome : Except Fault α} {f : α → Signal} {reply : Signal}
    (mapped : outcome.map f = .ok reply) : ∃ a, outcome = .ok a ∧ reply = f a := by
  cases outcome with
  | error fault => simp [Except.map] at mapped
  | ok a => exact ⟨a, rfl, (Except.ok.inj mapped).symm⟩

/-- The reply is of a kind, if there is one. -/
def Answers (k : Signal.Kind) (h : Handling) :
    Prop := ∀ reply, h.outcome = .ok reply → reply.kind = k

theorem answers_refuse (b : Broker) (k : Signal.Kind) (fault : Fault) :
    Answers k (b.refuse fault) := by
  intro reply answered
  simp [refuse, settle] at answered

theorem answers_ok {k : Signal.Kind} {signal : Signal} (kind : signal.kind = k) (after : Broker)
    (posts : List Post) :
    Answers k ⟨.ok signal, after, posts⟩ := by
  intro reply answered
  obtain rfl := Except.ok.inj answered
  exact kind

theorem answers_map {α : Type} {k : Signal.Kind} {f : α → Signal} (kind : ∀ a, (f a).kind = k)
    (outcome : Except Fault α) : Answers k (b.settle (outcome.map f)) := by
  intro reply answered
  obtain ⟨a, -, rfl⟩ := map_ok answered
  exact kind a

theorem answers_changeHeld {k : Signal.Kind} {f : Record → Signal} (kind : ∀ r, (f r).kind = k)
    (key : Key) (change : Record → Side → Record) : Answers k (b.changeHeld conn key change f) := by
  unfold changeHeld
  split
  · exact answers_refuse _ _ _
  · exact answers_ok (kind _) _ _

theorem answers_matchOrMake (text : String) (wanted requester : Identity) :
    Answers .matchOrMakeResult (b.matchOrMake conn text wanted requester) := by
  unfold matchOrMake
  split
  · exact answers_refuse _ _ _
  · split
    · exact answers_refuse _ _ _
    · split
      · exact answers_refuse _ _ _
      · split
        · exact answers_refuse _ _ _
        · exact answers_ok rfl _ _

theorem answers_getValue (key : Key) : Answers .valueIs (b.settle (b.getValue conn key)) := by
  unfold getValue
  split
  · exact answers_refuse _ _ _
  · split
    · exact answers_ok rfl _ _
    · exact answers_refuse _ _ _

/-- A request that succeeds is answered with the kind of reply that belongs to it. -/
theorem answers_handle (b : Broker) (conn : ConnId) (request : Signal) :
    Answers request.kind.answer (b.handle conn request) := by
  cases request with
  | isRegistered | findPairingKey | getEvents | clearAllEvents |
      getOfferingProcs | getOfferedVars =>
    exact answers_ok rfl _ _
  | mayUse | maySet | getState | getControl | getCoupling | getVarname | findOfferingId =>
    refine answers_map ?_ _
    intro _
    rfl
  | setState | setControl =>
    refine answers_changeHeld ?_ _ _
    intro _
    rfl
  | matchOrMake text wanted requester => exact answers_matchOrMake text wanted requester
  | getValue key => exact answers_getValue key
  | registerProcessor | registerEventChannel | assignValue | addEvent =>
    simp only [handle, registerProcessor, registerEventChannel, assignValue, addEvent]
    split
    · exact answers_refuse _ _ _
    · exact answers_ok rfl _ _
  | printDatabase =>
    simp only [handle, printDatabase]
    split
    · exact answers_ok rfl _ _
    · exact answers_refuse _ _ _
  | retractOffer key =>
    simp only [handle, retract]
    split
    · exact answers_refuse _ _ _
    · split
      · exact answers_refuse _ _ _
      · exact answers_ok rfl _ _
  | _ => exact answers_refuse _ _ _

theorem kind_dispatch (b : Broker) (conn : ConnId) (request : Signal) :
    (b.dispatch conn request).1.kind = request.kind.answer := by
  unfold dispatch
  simp only
  split
  · rename_i answered
    exact answers_handle b conn request _ answered
  · exact Signal.kind_refusal _ _ _

/-- What is sent unasked: farewells, and notices to the event channels that a roster lists. -/
inductive Unasked (r : Roster) : Post → Prop where
  | farewell (conn : ConnId) : Unasked r (.hangUp conn)
  | notice {conn : ConnId} {id : Identity} {signal : Signal} (notice : signal.Notice)
      (channel : r.channelOf? id = some conn) (live : (r.get? conn).isSome) :
        Unasked r (.deliver conn signal)

theorem unasked_push {id : Identity} {signal : Signal} (notice : signal.Notice) {post : Post}
    (sent : post ∈ b.push id signal) : Unasked b.roster post := by
  unfold push at sent
  split at sent
  · rename_i channel
    unfold send at sent
    split at sent
    · rename_i live
      obtain rfl := List.mem_singleton.mp sent
      exact .notice notice channel live
    · simp at sent
  · simp at sent

theorem unasked_notify {r : Record} {side : Side} {post : Post} (sent : post ∈ b.notify r side) :
    Unasked b.roster post := by
  unfold notify at sent
  simp only at sent
  split at sent
  · exact unasked_push (.pending _ _) sent
  · simp at sent

theorem unasked_announce {key : Key} {remaining : Option Identity} {leaver : Identity} {post : Post}
    (sent : post ∈ b.announce key remaining leaver) : Unasked b.roster post := by
  unfold announce at sent
  split at sent
  · split at sent
    · simp at sent
    · exact unasked_push (.retracted _ _) sent
  · simp at sent

theorem unasked_matchPosts {name : Name} {requester : Identity} {outcome : MatchOutcome}
    {post : Post} (sent : post ∈ b.matchPosts name requester outcome) : Unasked b.roster post := by
  unfold matchPosts at sent
  split at sent
  · exact unasked_push (.matched _ _) sent
  · split at sent
    · simp at sent
    · exact unasked_push (.made _ _ _) sent
  · simp at sent

theorem Handled.unasked {h : Handling} (handled : Handled b conn request h) {post : Post}
    (sent : post ∈ h.posts) :
    Unasked b.roster post := by
  cases handled with
  | settled | registered | listening | assigned | cleared => exact absurd sent List.not_mem_nil
  | shared => exact unasked_matchPosts sent
  | retracted => exact unasked_announce sent
  | reported => exact unasked_notify sent
  | restrained => exact unasked_notify sent
  | alerted _ told =>
    rcases told with none | ⟨r, side, notified⟩
    · simp [none] at sent
    · simp only [notified] at sent
      exact unasked_notify sent

/-- Striking a connection makes no new listing. -/
theorem Unasked.of_remove {r left : Roster} {entry : Entry}
    (removed : r.remove conn = (some entry, left)) {post : Post} (unasked : Unasked left post) :
    Unasked r post := by
  cases unasked with
  | farewell c => exact .farewell c
  | notice notice channel live =>
    refine .notice notice (Roster.channel_of_remove removed channel) ?_
    rw [Roster.get?_remove removed] at live
    split at live
    · simp at live
    · exact live

theorem Departs.unasked {last : Broker} {pending : List ConnId} {posts : List Post}
    (departs : Departs b pending last posts) {post : Post} (sent : post ∈ posts) :
    Unasked b.roster post := by
  induction departs with
  | done => exact absurd sent List.not_mem_nil
  | absent _ _ ih => exact ih sent
  | plain removed _ _ ih =>
    rcases List.mem_cons.mp sent with rfl | later
    · exact .farewell _
    · exact (ih later).of_remove removed
  | processor removed _ _ _ ih =>
    simp only [List.cons_append, List.mem_cons, List.mem_append, farewells,
      List.mem_flatMap] at sent
    rcases sent with rfl | ⟨release, -, told⟩ | later
    · exact .farewell _
    · exact (unasked_announce told).of_remove removed
    · exact (ih later).of_remove removed

end Broker
end SharedVariables
