import SharedVariables.Client
import SharedVariables.Proofs.Cascade
import SharedVariables.Proofs.Chunking
import SharedVariables.Proofs.Dialogue
import SharedVariables.Proofs.Recovery
import SharedVariables.Proofs.Replies
import SharedVariables.Proofs.Sending

/-! A call of a client to the running broker, from the request to the reply that is read. The link
and the broker's socket stay in step: what lies between them is a stream of frames with as many
replies as the link is owed. -/
namespace SharedVariables

theorem Signal.kind_echo (s : Signal) : s.echo.kind = s.kind := by cases s <;> rfl

namespace Letter

/-- What a signal becomes on the wire. -/
def ofEncoded {s : Signal} {payload : Octets} (encoded : s.encode = .ok payload) : Letter :=
  ⟨payload, s.echo, Signal.length_le_of_encode encoded, Signal.decode_of_encode_echo encoded⟩

theorem isPush_ofEncoded {s : Signal} {payload : Octets} (encoded : s.encode = .ok payload) :
    (ofEncoded encoded).isPush = s.kind.isPush :=
  congrArg Signal.Kind.isPush s.kind_echo

theorem stream_singleton (x : Letter) : stream [x] = Frame.bytes x.payload := List.append_nil _

end Letter

/-- Once the reply to the last request is there, it is found behind all that was sent before. -/
theorem Link.reply_of_stream {l : Link} {xs : List Letter} {x : Letter}
    (aligned : l.buffer = Letter.stream (xs ++ [x]))
    (owes : l.owed = xs.countP Letter.isReply + 1) (reply : x.isReply = true) :
    l.reply = (some (.ok x.signal), { l with buffer := [], owed := 0 }) := by
  have whole : l.buffer ++ [] = Letter.stream (xs ++ [x]) := by rw [List.append_nil, aligned]
  have polled := replyFrom_polled (show 0 < l.owed by omega) whole
  unfold Link.reply
  generalize replyFrom l.buffer l.owed = result at polled
  cases polled with
  | @pending taken later left still split tail count waits arrived =>
    rw [arrived rfl, List.append_nil] at split
    rw [← split, List.countP_append, List.countP_singleton, if_pos reply] at count
    omega
  | @found taken later y left split tail count answer =>
    -- The last letter is a reply and no reply is left over, so it is the one that was found.
    rcases List.eq_nil_or_concat later with rfl | ⟨front, last, rfl⟩
    · obtain ⟨-, same⟩ := List.append_inj' split rfl
      obtain rfl : x = y := by simpa using same
      rw [List.append_nil] at tail
      rw [tail]
      rfl
    · rw [List.concat_eq_append, ← List.cons_append, ← List.append_assoc] at split
      obtain ⟨front, last⟩ := List.append_inj' split rfl
      rw [front, List.countP_append, List.countP_cons_of_pos answer] at owes
      omega

theorem Socket.conn_deliver (p : Socket) (signal : Signal) : (p.deliver signal).conn = p.conn := by
  unfold Socket.deliver
  split
  · rfl
  · split <;> rfl

theorem Socket.deliver_of_encode {p : Socket} (isOpen : p.closed = false) {signal : Signal}
    {payload : Octets} (encoded : signal.encode = .ok payload) :
    p.deliver signal = { p with outbound := p.outbound ++ Frame.bytes payload } := by
  simp [Socket.deliver, isOpen, encoded,
    Frame.write_eq (Signal.length_le_of_encode encoded), Except.bind]

theorem Socket.foldl_deliver {p : Socket} (isOpen : p.closed = false) {signals : List Signal}
    (fit : ∀ s ∈ signals, s.Fits) :
    ∃ xs : List Letter, xs.map (·.signal) = signals.map Signal.echo ∧
      signals.foldl Socket.deliver p = { p with outbound := p.outbound ++ Letter.stream xs } := by
  induction signals generalizing p with
  | nil => exact ⟨[], rfl, by simp [Letter.stream, Frame.stream]⟩
  | cons s rest ih =>
    obtain ⟨payload, encoded⟩ := s.encode_ok_iff.mpr (fit s List.mem_cons_self)
    obtain ⟨xs, spelt, later⟩ :=
      ih (p := { p with outbound := p.outbound ++ Frame.bytes payload }) isOpen
      fun s mem => fit s (List.mem_cons_of_mem _ mem)
    refine ⟨Letter.ofEncoded encoded :: xs, congrArg (s.echo :: ·) spelt, ?_⟩
    rw [List.foldl_cons, deliver_of_encode isOpen encoded, later, List.append_assoc]
    rfl

namespace Broker

variable {b : Broker} {conn : ConnId} {request : Signal}

theorem hungUp_notify (b : Broker) (r : Record) (side : Side) : hungUp (b.notify r side) = [] := by
  unfold notify
  simp only
  split
  · exact hungUp_push _ _
  · rfl

theorem hungUp_matchPosts (b : Broker) (name : Name) (requester : Identity)
    (outcome : MatchOutcome) :
    hungUp (b.matchPosts name requester outcome) = [] := by
  unfold matchPosts
  split
  · exact hungUp_push _ _
  · split
    · rfl
    · exact hungUp_push _ _
  · rfl

/-- No request makes anybody hang up. -/
theorem Handled.hungUp {h : Handling} (handled : Handled b conn request h) :
    hungUp h.posts = [] := by
  cases handled with
  | settled | registered | listening | assigned | cleared => rfl
  | shared => exact hungUp_matchPosts _ _ _ _
  | retracted => exact hungUp_announce _ _ _
  | reported | restrained => exact hungUp_notify _ _ _
  | alerted _ told =>
    rcases told with none | ⟨r, side, notified⟩
    · rw [none]
      rfl
    · rw [notified]
      exact hungUp_notify _ _ _

theorem hungUp_request (b : Broker) (conn : ConnId) (request : Signal) :
    hungUp (b.step (.request conn request)).2 = [] := by
  have none := (handle_handled b conn request).hungUp
  simp only [step, dispatch_posts, send]
  simp only [hungUp] at none ⊢
  split <;> simp [none]

theorem received_request (b : Broker) (live : (b.roster.get? conn).isSome) (request : Signal) :
    ∃ notices, (∀ s ∈ notices, s.Fits ∧ s.kind.isPush = true) ∧
      received conn (b.step (.request conn request)).2 =
        notices ++ [(b.dispatch conn request).1] := by
  obtain ⟨posts, unasked, all⟩ := received_step b conn (.request conn request)
  refine ⟨received conn posts, ?_, ?_⟩
  · intro s mem
    have sent := unasked _ (mem_received.mp mem)
    refine ⟨sent.fits, ?_⟩
    cases sent with
    | notice notice => exact notice.isPush
  · rw [all, due, if_pos ⟨rfl, live⟩]

end Broker

namespace Service

variable {s : Service} {conn : ConnId}

theorem socket?_update (s : Service) (conn c : ConnId) {f : Socket → Socket}
    (keeps : ∀ p, (f p).conn = p.conn) :
    (s.update conn f).socket? c = (s.socket? c).map fun p => if c = conn then f p else p := by
  have same : ((fun p : Socket => p.conn == c) ∘ fun p => if p.conn == conn then f p else p) =
      fun p => p.conn == c := by
    funext p
    simp only [Function.comp_apply]
    split
    · rw [keeps]
    · rfl
  simp only [socket?, update, List.find?_map, same]
  cases found : s.sockets.find? fun p => p.conn == c with
  | none => rfl
  | some p =>
    obtain rfl : p.conn = c := by simpa using List.find?_some found
    simp

theorem broker_foldl_carry (s : Service) (posts : List Post) :
    (posts.foldl carry s).broker = s.broker := by
  induction posts generalizing s with
  | nil => rfl
  | cons post rest ih =>
    rw [List.foldl_cons, ih]
    cases post <;> rfl

theorem socket?_foldl_carry (s : Service) {posts : List Post} (stays : conn ∉ Broker.hungUp posts) :
    (posts.foldl carry s).socket? conn =
      (s.socket? conn).map fun p => (received conn posts).foldl Socket.deliver p := by
  induction posts generalizing s with
  | nil => simp [received]
  | cons post rest ih =>
    cases post with
    | deliver c signal =>
      rw [List.foldl_cons, ih _ stays, carry,
        socket?_update s c conn (·.conn_deliver signal), Option.map_map]
      congr 1
      funext p
      by_cases here : conn = c
      · simp [here, received, Post.signalFor?]
      · simp [here, Ne.symm here, received, Post.signalFor?]
    | hangUp c =>
      have apart : conn ∉ c :: Broker.hungUp rest := stays
      obtain ⟨other, later⟩ := not_or.mp fun mem => apart (List.mem_cons.mpr mem)
      rw [List.foldl_cons, ih _ later, carry,
        socket?_update s c conn (f := fun p => { p with closed := true }) fun _ =>
          rfl, Option.map_map]
      congr 1
      funext p
      rw [Function.comp_apply, if_neg other]
      rfl

/-- The socket of a connection is open and the link at its other end is whole; between them lie only
whole frames, among them the replies that the link is owed. -/
structure InStep (s : Service) (conn : ConnId) (l : Link) : Prop where
  whole : l.torn = false
  line : ∃ p xs, s.socket? conn = some p ∧ p.closed = false ∧ p.inbound = [] ∧
    l.buffer ++ p.outbound = Letter.stream xs ∧ xs.countP Letter.isReply = l.owed

/-- The frame of a request is handled as soon as it has arrived. -/
theorem receive_request {p : Socket} (found : s.socket? conn = some p) (idle : p.inbound = [])
    {request : Signal} {payload : Octets} (fits : payload.length ≤ Limits.frameSize)
    (spells : Signal.decode payload = .ok request) :
    s.receive conn (Frame.bytes payload) =
      (s.update conn fun p => { p with inbound := [] }).occur (.request conn request) := by
  have drained : Frame.drain (p.inbound ++ Frame.bytes payload) = ([payload], none, []) := by
    have fit : ∀ q ∈ [payload], q.length ≤ Limits.frameSize := by simpa using fits
    have empty : Frame.drain [] = ([], none, []) := Frame.drain_of_none rfl
    have frames := Frame.drain_stream fit []
    rw [empty] at frames
    simpa [Frame.stream, idle] using frames
  simp [receive, found, drained, occurrence, spells]

/-- What a request leaves on the socket of its caller: notices, and then the reply. -/
theorem socket?_request {p : Socket} (found : s.socket? conn = some p) (isOpen : p.closed = false)
    (live : (s.broker.roster.get? conn).isSome) {request : Signal} {payload : Octets}
    (encoded : (s.broker.dispatch conn request).1.encode = .ok payload) :
    ∃ notices : List Letter, notices.countP Letter.isReply = 0 ∧
      (s.occur (.request conn request)).socket? conn =
        some { p with outbound :=
          p.outbound ++ Letter.stream (notices ++ [.ofEncoded encoded]) } := by
  obtain ⟨signals, pushed, all⟩ := s.broker.received_request live request
  obtain ⟨notices, spelt, written⟩ := Socket.foldl_deliver isOpen fun s mem => (pushed s mem).1
  refine ⟨notices, ?_, ?_⟩
  · apply List.countP_eq_zero.mpr
    intro x mem
    have signal : x.signal ∈ signals.map Signal.echo := spelt ▸ List.mem_map_of_mem mem
    obtain ⟨s, sent, echoed⟩ := List.mem_map.mp signal
    simp [Letter.isReply, Letter.isPush, ← echoed, s.kind_echo, (pushed s sent).2]
  · have stays : conn ∉ Broker.hungUp (s.broker.step (.request conn request)).2 := by
      rw [Broker.hungUp_request]
      exact List.not_mem_nil
    let t : Service := { s with broker := (s.broker.step (.request conn request)).1 }
    have before : t.socket? conn = some p := found
    let told : Socket := { p with outbound := p.outbound ++ Letter.stream notices }
    have framed := Socket.deliver_of_encode (p := told) isOpen encoded
    rw [occur, socket?_foldl_carry _ stays, before, Option.map_some, all, List.foldl_append,
      written, List.foldl_cons,
      List.foldl_nil, framed, List.append_assoc, Letter.stream_append, Letter.stream_singleton]
    rfl

/-- The request arrives, and its reply comes to lie behind all that was on its way before. -/
theorem InStep.accept {l : Link} (inStep : s.InStep conn l)
    (live : (s.broker.roster.get? conn).isSome) {request : Signal}
    (single : request.kind ≠ .offeredVarsAre) {sent payload : Octets}
    (asked : request.encode = .ok sent)
    (answered : (s.broker.dispatch conn request).1.encode = .ok payload) :
    ∃ t p xs, (peer (some conn)).accept (Frame.bytes sent) s = some t ∧
      t.broker = (s.broker.step (.request conn request)).1 ∧
        t.socket? conn = some p ∧ p.closed = false ∧
      p.inbound = [] ∧ l.buffer ++ p.outbound = Letter.stream (xs ++ [.ofEncoded answered]) ∧
      xs.countP Letter.isReply = l.owed := by
  obtain ⟨whole, p, xs, found, isOpen, idle, aligned, owed⟩ := inStep
  let idled := s.update conn fun p => { p with inbound := [] }
  have accepted : (peer (some conn)).accept (Frame.bytes sent) s =
      some (idled.occur (.request conn request)) := by
    have handled :=
      receive_request found idle (Signal.length_le_of_encode asked)
        (Signal.decode_of_encode single asked)
    simp only [peer, Service.isOpen, found, Option.any_some, isOpen, handled]
    rfl
  have before : idled.socket? conn = some { p with inbound := [] } := by
    rw [socket?_update s conn conn (f := fun p => { p with inbound := [] }) fun _ => rfl, found]
    simp
  obtain ⟨notices, silent, left⟩ := socket?_request before isOpen live answered
  refine ⟨_, _, xs ++ notices, accepted, broker_foldl_carry _ _, left, isOpen, rfl, ?_, ?_⟩
  · rw [List.append_assoc, Letter.stream_append xs, ← aligned, List.append_assoc]
    rfl
  · rw [List.countP_append, silent, owed, Nat.add_zero]

/-- A request over a link in step gets its own reply, and link and socket are in step again. -/
theorem InStep.exchange {l : Link} (inStep : s.InStep conn l)
    (live : (s.broker.roster.get? conn).isSome) {request : Signal}
    (single : request.kind ≠ .offeredVarsAre) {sent payload : Octets}
    (asked : request.encode = .ok sent)
    (answered : (s.broker.dispatch conn request).1.encode = .ok payload) (timeout : Duration) :
    ∃ t after, Link.exchange (peer (some conn)) timeout request (s, l) =
        (.ok (s.broker.dispatch conn request).1.echo, t, after) ∧
      t.broker = (s.broker.step (.request conn request)).1 ∧ t.InStep conn after := by
  obtain ⟨t, p, xs, accepted, handled, found, isOpen, idle, aligned, owed⟩ :=
    inStep.accept live single asked answered
  have outgoing : l.outgoing request = .ok (Frame.bytes sent) := by
    simp [Link.outgoing, inStep.whole, asked, Frame.write_eq (Signal.length_le_of_encode asked)]
  have replies : (Letter.ofEncoded answered).isReply = true := by
    have kind := Signal.Kind.answer_isReply request.kind
    rw [← Broker.kind_dispatch s.broker conn, Signal.Kind.isReply_eq, Bool.and_eq_true] at kind
    rw [Letter.isReply, Letter.isPush_ofEncoded]
    exact kind.2
  have read := Link.reply_of_stream (l := l.requested.feed p.outbound) aligned
    (by rw [owed]; rfl) replies
  let rest := t.update conn fun p => { p with outbound := [] }
  have emptied : rest.socket? conn = some { p with outbound := [] } := by
    rw [socket?_update t conn conn (f := fun p => { p with outbound := [] }) fun _ => rfl, found]
    simp
  refine ⟨rest, { l.requested.feed p.outbound with buffer := [], owed := 0 }, ?_, handled, ?_⟩
  · have delivered : (peer (some conn)).deliver t = ((p.outbound, p.closed), rest) := by
      simp only [peer, collect, found]
      rfl
    simp only [Link.exchange, Act.andThen, Link.send, outgoing, accepted,
      Link.await, delivered, read]
    rfl
  · exact ⟨inStep.whole, _, [], emptied, isOpen, idle, rfl, rfl⟩

theorem InStep.ask {α : Type} {q : Inquiry α} {c : Client} (inStep : s.InStep conn c.link)
    (live : (s.broker.roster.get? conn).isSome) (single : q.request.kind ≠ .offeredVarsAre)
    {sent payload : Octets} (asked : q.request.encode = .ok sent)
    (answered : (s.broker.dispatch conn q.request).1.encode = .ok payload) :
    ∃ t after, Client.ask (peer (some conn)) q (s, c) =
        ((Inquiry.orRemote (s.broker.dispatch conn q.request).1.echo).bind q.read, t, after) ∧
      t.broker = (s.broker.step (.request conn q.request)).1 ∧ t.InStep conn after.link := by
  obtain ⟨t, link, exchanged, handled, again⟩ :=
    inStep.exchange live single asked answered c.replyTimeout
  refine ⟨t, { c with link }, ?_, handled, again⟩
  simp only [Client.ask, Client.call, Act.refine, exchanged]
  rfl

end Service
end SharedVariables
