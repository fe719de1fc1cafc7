import SharedVariables.Proofs.Agreement
import SharedVariables.Proofs.Posting

/-! What one connection receives. Each of its requests is answered once and in order; notices come
between the answers on event channels only. -/
namespace SharedVariables

namespace Signal.Kind

theorem isReply_eq (k : Kind) : k.isReply = (!k.isRequest && !k.isPush) := by cases k <;> decide

theorem not_isRequest_of_isPush {k : Kind} (push : k.isPush = true) : k.isRequest = false := by
  revert push
  cases k <;> decide

end Signal.Kind

/-- The signal that a post brings to a connection. -/
def Post.signalFor? (c : ConnId) : Post → Option Signal
  | .deliver conn signal => if conn = c then some signal else none
  | .hangUp _ => none

/-- What a connection gets of some posts, in order. -/
def received (c : ConnId) (posts : List Post) : List Signal := posts.filterMap (Post.signalFor? c)

theorem mem_received {c : ConnId} {posts : List Post} {signal : Signal} :
    signal ∈ received c posts ↔ .deliver c signal ∈ posts := by
  simp only [received, List.mem_filterMap]
  constructor
  · rintro ⟨post, mem, here⟩
    cases post with
    | hangUp conn => simp [Post.signalFor?] at here
    | deliver conn other =>
      simp only [Post.signalFor?, Option.ite_none_right_eq_some, Option.some.injEq] at here
      obtain ⟨rfl, rfl⟩ := here
      exact mem
  · intro mem
    exact ⟨_, mem, if_pos rfl⟩

theorem received_append (c : ConnId) (first second : List Post) :
    received c (first ++ second) = received c first ++ received c second :=
  List.filterMap_append

namespace Broker

variable {b : Broker} {conn : ConnId}

/-- The reply that an event obliges the broker to send to a connection. A connection that is gone
gets none. -/
def due (b : Broker) (c : ConnId) : Occurrence → List Signal
  | .request conn request =>
    if conn = c ∧ (b.roster.get? c).isSome then [(b.dispatch c request).1] else []
  | .malformed conn fault =>
    if conn = c ∧ (b.roster.get? c).isSome then [.ofFault fault "decode"] else []
  | _ => []

/-- The replies that fall due to a connection along a run. -/
def dues (b : Broker) (c : ConnId) : List Occurrence → List Signal
  | [] => []
  | event :: rest => b.due c event ++ (b.step event).1.dues c rest

theorem received_send (c : ConnId) (signal : Signal) :
    received c (b.send conn signal) = if conn = c ∧ (b.roster.get? c).isSome then
      [signal] else [] := by
  unfold send
  by_cases here : conn = c
  · subst c
    split <;> simp_all [received, Post.signalFor?]
  · split <;> simp [received, Post.signalFor?, here]

theorem filter_received_unasked {r : Roster} {posts : List Post}
    (unasked : ∀ p ∈ posts, Unasked r p) (c : ConnId) :
    (received c posts).filter (·.kind.isReply) = [] := by
  apply List.filter_eq_nil_iff.mpr
  intro signal mem
  cases unasked _ (mem_received.mp mem) with
  | notice notice => simp [Signal.Kind.isReply_eq, notice.isPush]

theorem isReply_of_due {c : ConnId} {event : Occurrence} {signal : Signal}
    (mem : signal ∈ b.due c event) :
    signal.kind.isReply = true := by
  unfold due at mem
  split at mem
  · split at mem
    · obtain rfl := List.mem_singleton.mp mem
      rw [kind_dispatch]
      exact Signal.Kind.answer_isReply _
    · simp at mem
  · split at mem
    · obtain rfl := List.mem_singleton.mp mem
      rfl
    · simp at mem
  · simp at mem

/-- All that an event makes the broker send: what is sent unasked, and the reply that is due. -/
theorem received_step (b : Broker) (c : ConnId) (event : Occurrence) :
    ∃ posts, (∀ p ∈ posts, Unasked b.roster p) ∧
      received c (b.step event).2 = received c posts ++ b.due c event := by
  cases event with
  | connected conn peer => exact ⟨[], by simp, rfl⟩
  | request conn request =>
    have handled := handle_handled b conn request
    refine ⟨(b.handle conn request).posts, fun p => handled.unasked, ?_⟩
    simp only [step, dispatch_posts, dispatch_broker, received_append, received_send,
      handled.listed, due]
    by_cases here : conn = c
    · rw [here]
    · simp [here]
  | malformed conn fault => exact ⟨[], by simp, received_send c _⟩
  | disconnected conn =>
    exact ⟨_, fun p => (depart_departs b [conn]).unasked, (List.append_nil _).symm⟩

theorem filter_received_step (b : Broker) (c : ConnId) (event : Occurrence) :
    (received c (b.step event).2).filter (·.kind.isReply) = b.due c event := by
  obtain ⟨posts, unasked, all⟩ := received_step b c event
  have replies : (b.due c event).filter (·.kind.isReply) = b.due c event :=
    List.filter_eq_self.mpr fun _ => isReply_of_due
  rw [all, List.filter_append, filter_received_unasked unasked, replies, List.nil_append]

theorem filter_received_run (b : Broker) (c : ConnId) (events : List Occurrence) :
    (received c (b.run events).2).filter (·.kind.isReply) = b.dues c events := by
  induction events generalizing b with
  | nil => rfl
  | cons event rest ih =>
    simp only [run, received_append, List.filter_append, filter_received_step, ih, dues]

theorem not_isRequest_of_step {c : ConnId} {event : Occurrence} {signal : Signal}
    (mem : signal ∈ received c (b.step event).2) : signal.kind.isRequest = false := by
  obtain ⟨posts, unasked, all⟩ := received_step b c event
  rw [all, List.mem_append] at mem
  rcases mem with early | reply
  · cases unasked _ (mem_received.mp early) with
    | notice notice => exact Signal.Kind.not_isRequest_of_isPush notice.isPush
  · have kind := isReply_of_due reply
    simp only [Signal.Kind.isReply_eq, Bool.and_eq_true, Bool.not_eq_true'] at kind
    exact kind.1

def IsChannel (b : Broker) (c : ConnId) : Prop := ∃ e, b.roster.get? c = some e ∧ e.role = .events

/-- A push goes to a connection that is an event channel when the event comes in. -/
theorem isChannel_of_isPush (consistent : b.roster.Consistent) {c : ConnId} {event : Occurrence}
    {signal : Signal} (mem : signal ∈ received c (b.step event).2)
    (push : signal.kind.isPush = true) : b.IsChannel c := by
  obtain ⟨posts, unasked, all⟩ := received_step b c event
  rw [all, List.mem_append] at mem
  rcases mem with early | reply
  · cases unasked _ (mem_received.mp early) with
    | notice notice channel live =>
      obtain ⟨e, found, -, role⟩ := (consistent.channels _ c).mp channel
      exact ⟨e, found, role⟩
  · have kind := isReply_of_due reply
    simp [Signal.Kind.isReply_eq, push] at kind

/-- What is sent on a run is sent at one of its events. -/
theorem mem_posts_of_run {events : List Occurrence} {post : Post} (sent : post ∈ (b.run events).2) :
    ∃ before event after, events = before ++ event :: after ∧
      post ∈ ((b.run before).1.step event).2 := by
  induction events generalizing b with
  | nil => simp [run] at sent
  | cons first rest ih =>
    rcases List.mem_append.mp sent with now | later
    · exact ⟨[], first, rest, rfl, now⟩
    · obtain ⟨before, event, after, rfl, here⟩ := ih later
      exact ⟨first :: before, event, after, rfl, here⟩

/-- The state of a run up to some event is as good as the run. -/
theorem consistent_of_run (capacity : Option Nat) (wording : Wording)
    {before after : List Occurrence}
    (distinct : ((before ++ after).filterMap Occurrence.opened).Nodup) :
    ((new capacity wording).run before).1.roster.Consistent := by
  rw [List.filterMap_append] at distinct
  have fresh := fresh_new capacity wording (List.nodup_append.mp distinct).1
  exact ((departing_new capacity wording).run fresh).consistent

/-- A connection gets a reply for each of its requests that comes in while it is live, in the order
of the requests, and never a request. Where each connection comes in once, notices go to event
channels only, and a connection that never is one gets its replies and nothing else. -/
theorem received_run (capacity : Option Nat) (wording : Wording) (events : List Occurrence)
    (c : ConnId) :
    let b := new capacity wording
    (received c (b.run events).2).filter (·.kind.isReply) = b.dues c events ∧
    (∀ signal ∈ received c (b.run events).2, signal.kind.isRequest = false) ∧
    ((events.filterMap Occurrence.opened).Nodup →
      (∀ before event after, events = before ++ event :: after →
        ∀ signal ∈ received c ((b.run before).1.step event).2, signal.kind.isPush = true →
          (b.run before).1.IsChannel c) ∧
      ((∀ before after, events = before ++ after → ¬ (b.run before).1.IsChannel c) →
        received c (b.run events).2 = b.dues c events)) := by
  intro b
  have replies := filter_received_run b c events
  have requests : ∀ signal ∈ received c (b.run events).2, signal.kind.isRequest = false := by
    intro signal mem
    obtain ⟨before, event, after, -, here⟩ := mem_posts_of_run (mem_received.mp mem)
    exact not_isRequest_of_step (mem_received.mpr here)
  refine ⟨replies, requests, fun distinct => ?_⟩
  have pushes : ∀ before event after, events = before ++ event :: after →
      ∀ signal ∈ received c ((b.run before).1.step event).2, signal.kind.isPush = true →
        (b.run before).1.IsChannel c := by
    rintro before event after rfl signal mem push
    exact isChannel_of_isPush (consistent_of_run capacity wording distinct) mem push
  refine ⟨pushes, fun never => ?_⟩
  -- With neither requests nor pushes among them, all signals are replies.
  rw [← replies]
  refine (List.filter_eq_self.mpr ?_).symm
  intro signal mem
  obtain ⟨before, event, after, split, here⟩ := mem_posts_of_run (mem_received.mp mem)
  have calm : signal.kind.isPush = false := by
    cases push : signal.kind.isPush with
    | false => rfl
    | true =>
      exact absurd (pushes before event after split signal (mem_received.mpr here) push)
        (never _ _ split)
  simp [Signal.Kind.isReply_eq, requests signal mem, calm]

/-- An offer to a processor with an event channel: the notice goes to the channel, the reply to the
offerer. -/
theorem received_run_offer :
    let before : List Occurrence :=
      [.connected ⟨1⟩ "", .request ⟨1⟩ (.registerProcessor ⟨2001, 0, 0⟩ 7),
        .connected ⟨2⟩ "", .request ⟨2⟩ (.registerEventChannel ⟨2001, 0, 0⟩),
        .connected ⟨3⟩ "", .request ⟨3⟩ (.registerProcessor ⟨2002, 0, 0⟩ 8)]
    let offer : Occurrence := .request ⟨3⟩ (.matchOrMake "X" ⟨2001, 0, 0⟩ ⟨2002, 0, 0⟩)
    let b := ((new none {}).run before).1
    ((before ++ [offer]).filterMap Occurrence.opened).Nodup ∧
      .offerMade (.compose 2002 0) "X" ⟨2002, 0, 0⟩ ∈ received ⟨2⟩ (b.step offer).2 ∧
        b.IsChannel ⟨2⟩ := by
  intro before offer b
  have distinct : ((before ++ [offer]).filterMap Occurrence.opened).Nodup := by decide
  have told : .offerMade (.compose 2002 0) "X" ⟨2002, 0, 0⟩ ∈ received ⟨2⟩ (b.step offer).2 := by
    decide +kernel
  exact ⟨distinct, told,
    ((received_run none {} _ ⟨2⟩).2.2 distinct).1 before offer [] rfl _ told rfl⟩

end Broker
end SharedVariables
