import SharedVariables.Link
import SharedVariables.Proofs.Chunking

/-! Calls over one link, one after the other, against a peer that answers each request once and in
order and may push notices at any time. A caller may give up at any moment. The frames that the peer
has written fall into those that the link has taken and those that are in its buffer or on their
way, whatever the chunks in which they arrive. -/
namespace SharedVariables

/-- A frame that spells a signal. -/
structure Letter where
  payload : Octets
  signal : Signal
  fits : payload.length ≤ Limits.frameSize
  spells : Signal.decode payload = .ok signal

namespace Letter

def isPush (x : Letter) : Bool := x.signal.kind.isPush

/-- The letters on the wire. -/
def stream (xs : List Letter) : Octets := Frame.stream (xs.map Letter.payload)

def isReply (x : Letter) : Bool := !x.isPush

theorem stream_append (xs ys : List Letter) : stream (xs ++ ys) = stream xs ++ stream ys := by
  simp [stream, Frame.stream]

theorem take_stream {xs : List Letter} {buffer rest : Octets}
    (aligned : buffer ++ rest = stream xs) :
    (Frame.take buffer = .ok none ∧ (rest = [] → xs = [])) ∨
      ∃ x later more, xs = x :: later ∧ Frame.take buffer = .ok (some (x.payload, more)) ∧
        more ++ rest = stream later := by
  have fit : ∀ p ∈ xs.map Letter.payload, p.length ≤ Limits.frameSize := by
    intro p mem
    obtain ⟨x, -, rfl⟩ := List.mem_map.mp mem
    exact x.fits
  rcases Frame.take_stream fit aligned with ⟨none, whole⟩ | ⟨p, later, more, split, taken, tail⟩
  · exact .inl ⟨none, fun arrived => List.map_eq_nil_iff.mp (whole arrived)⟩
  · obtain ⟨x, xs, rfl, rfl, rfl⟩ := List.map_eq_cons_iff.mp split
    exact .inr ⟨x, xs, more, rfl, taken, tail⟩

/-- As `take_stream`, where an incomplete frame follows the letters. -/
theorem take_stream_append {xs : List Letter} {buffer rest tail : Octets}
    (cut : Frame.take tail = .ok none) (aligned : buffer ++ rest = stream xs ++ tail) :
    (Frame.take buffer = .ok none ∧ (rest = [] → xs = [])) ∨
      ∃ x later more, xs = x :: later ∧ Frame.take buffer = .ok (some (x.payload, more)) ∧
        more ++ rest = stream later ++ tail := by
  rcases List.append_eq_append_iff.mp aligned with ⟨missing, split, rfl⟩ | ⟨begun, rfl, rfl⟩
  · rcases take_stream split.symm with ⟨none, whole⟩ | ⟨x, later, more, rfl, taken, onward⟩
    · exact .inl ⟨none, fun arrived => whole (List.append_eq_nil_iff.mp arrived).1⟩
    · exact .inr ⟨x, later, more, rfl, taken, by rw [← List.append_assoc, onward]⟩
  · cases xs with
    | nil => exact .inl ⟨Frame.take_of_append_none cut, fun _ => rfl⟩
    | cons x later =>
      refine .inr ⟨x, later, stream later ++ begun, rfl, ?_, List.append_assoc _ _ _⟩
      have front : stream (x :: later) ++ begun =
          Frame.bytes x.payload ++ (stream later ++ begun) := by
        simp [stream, Frame.stream]
      rw [front]
      exact Frame.take_append x.fits _

theorem of_take_append {xs : List Letter} {buffer rest tail payload left : Octets}
    (cut : Frame.take tail = .ok none) (aligned : buffer ++ rest = stream xs ++ tail)
    (taken : Frame.take buffer = .ok (some (payload, left))) :
    ∃ x later, xs = x :: later ∧ payload = x.payload ∧ left ++ rest = stream later ++ tail := by
  rcases take_stream_append cut aligned with ⟨none, -⟩ | ⟨x, later, more, split, found, onward⟩
  · simp [none] at taken
  · simp only [found, Except.ok.injEq, Option.some.injEq, Prod.mk.injEq] at taken
    obtain ⟨rfl, rfl⟩ := taken
    exact ⟨x, later, split, rfl, onward⟩

theorem of_take {xs : List Letter} {buffer rest payload left : Octets}
    (aligned : buffer ++ rest = stream xs)
    (taken : Frame.take buffer = .ok (some (payload, left))) :
    ∃ x later, xs = x :: later ∧ payload = x.payload ∧ left ++ rest = stream later := by
  rw [← List.append_nil (stream xs)] at aligned
  obtain ⟨x, later, split, same, onward⟩ := of_take_append rfl aligned taken
  rw [List.append_nil] at onward
  exact ⟨x, later, split, same, onward⟩

theorem isPushed_decode (x : Letter) : Link.isPushed (Signal.decode x.payload) = x.isPush := by
  rw [x.spells]
  rfl

theorem isReply_of_decode (x : Letter) (reply : ¬ Link.isPushed (Signal.decode x.payload) = true) :
    x.isReply = true := by
  rw [x.isPushed_decode, Bool.not_eq_true] at reply
  rw [isReply, reply]
  rfl

end Letter

namespace Link

/-- What a poll makes of a buffer that holds the start of some letters, of which `rest` is still on
its way. Either all replies that it took were owed to earlier requests, or the one after them is
found. -/
inductive Polled (xs : List Letter) (rest : Octets) (owed : Nat) :
    Option (Except Fault Signal) × Octets × Nat → Prop where
  | pending {taken later : List Letter} {left : Octets} {still : Nat} (split : xs = taken ++ later)
      (aligned : left ++ rest = Letter.stream later)
        (count : still + taken.countP Letter.isReply = owed)
      (waits : 0 < still) (whole : rest = [] → later = []) : Polled xs rest owed (none, left, still)
  | found {taken later : List Letter} {x : Letter} {left : Octets}
      (split : xs = taken ++ x :: later)
      (aligned : left ++ rest = Letter.stream later)
        (count : taken.countP Letter.isReply + 1 = owed)
      (reply : x.isReply = true) : Polled xs rest owed (some (.ok x.signal), left, 0)

theorem Polled.cons {xs : List Letter} {rest : Octets} {owed : Nat}
    {result : Option (Except Fault Signal) × Octets × Nat} (polled : Polled xs rest owed result)
    (x : Letter) :
    Polled (x :: xs) rest (owed + x.isReply.toNat) result := by
  cases polled with
  | @pending taken later left still split aligned count waits whole =>
    have longer : x :: xs = (x :: taken) ++ later := congrArg (x :: ·) split
    refine .pending longer aligned ?_ waits whole
    cases reply : x.isReply <;> simp [reply] <;> omega
  | @found taken later y left split aligned count reply =>
    have longer : x :: xs = (x :: taken) ++ y :: later := congrArg (x :: ·) split
    refine .found longer aligned ?_ reply
    cases first : x.isReply <;> simp [first] <;> omega

theorem replyFrom_polled {xs : List Letter} {buffer rest : Octets} {owed : Nat} (waits : 0 < owed)
    (aligned : buffer ++ rest = Letter.stream xs) :
    Polled xs rest owed (replyFrom buffer owed) := by
  fun_induction replyFrom buffer owed generalizing xs with
  | case1 buffer owed e failed =>
    rcases Letter.take_stream aligned with ⟨none, -⟩ | ⟨x, later, more, -, taken, -⟩
    · simp [none] at failed
    · simp [taken] at failed
  | case2 buffer owed incomplete =>
    rcases Letter.take_stream aligned with ⟨-, whole⟩ | ⟨x, later, more, -, taken, -⟩
    · exact .pending (List.nil_append xs).symm aligned rfl waits whole
    · simp [taken] at incomplete
  | case3 buffer owed payload left taken decoded pushed =>
    rename_i ih
    obtain ⟨x, later, rfl, rfl, tail⟩ := Letter.of_take aligned taken
    have notice : x.isReply = false := by
      rw [Letter.isReply, ← x.isPushed_decode]
      exact congrArg not pushed
    have polled := (ih waits tail).cons x
    rwa [notice] at polled
  | case4 buffer owed payload left taken decoded reply =>
    rename_i last
    obtain ⟨x, later, rfl, rfl, tail⟩ := Letter.of_take aligned taken
    have found := Polled.found (List.nil_append (x :: later)).symm tail (Nat.le_antisymm waits last)
      (x.isReply_of_decode reply)
    rwa [← x.spells] at found
  | case5 buffer owed payload left taken decoded reply more =>
    rename_i ih
    obtain ⟨x, later, rfl, rfl, tail⟩ := Letter.of_take aligned taken
    have polled := (ih (by omega) tail).cons x
    rwa [x.isReply_of_decode reply,
      show owed - 1 + true.toNat = owed from Nat.sub_add_cancel waits] at polled

theorem reply_polled {l after : Link} {answer : Option (Except Fault Signal)} {xs : List Letter}
    {rest : Octets} (waits : 0 < l.owed) (aligned : l.buffer ++ rest = Letter.stream xs)
    (polled : l.reply = (answer, after)) :
    Polled xs rest l.owed (answer, after.buffer, after.owed) ∧ after.peer = l.peer ∧
      after.torn = l.torn := by
  obtain ⟨rfl, rfl⟩ := Prod.mk.inj polled
  exact ⟨replyFrom_polled waits aligned, rfl, rfl⟩

end Link

/-- A link, what was sent over it, and what the peer has written. -/
structure Dialogue where
  link : Link
  /-- The requests that were written completely, in order. -/
  sent : List Signal := []
  letters : List Letter := []
  /-- Bytes of the peer that have not arrived. -/
  transit : Octets := []
  /-- A call waits for its reply. -/
  waiting : Bool := false

namespace Dialogue

def start (peer : String) : Dialogue := { link := { peer } }

/-- The replies of the peer: the first answers the first request, and so on. -/
def answers (d : Dialogue) : List Letter := d.letters.filter Letter.isReply

/-- The requests that the peer may have read in full. A frame that was given up may have been
written all the same. -/
def readable (d : Dialogue) : Nat := d.sent.length + d.link.torn.toNat

/-- What can happen next. -/
inductive Step (d : Dialogue) : Dialogue → Prop where
  | send {request : Signal} {bs : Octets} (idle : d.waiting = false)
      (ready : d.link.outgoing request = .ok bs) :
      Step d { d with link := d.link.requested, sent := d.sent ++ [request], waiting := true }
  | tear {request : Signal} {bs : Octets} (idle : d.waiting = false)
      (ready : d.link.outgoing request = .ok bs) :
      Step d { d with link := d.link.cutShort }
  | answer {x : Letter} {bs : Octets} (reply : x.isReply = true)
      (unanswered : d.answers.length < d.readable)
      (framed : Frame.write x.payload = .ok bs) :
      Step d { d with letters := d.letters ++ [x], transit := d.transit ++ bs }
  | push {x : Letter} {bs : Octets} (push : x.isPush = true)
      (framed : Frame.write x.payload = .ok bs) :
      Step d { d with letters := d.letters ++ [x], transit := d.transit ++ bs }
  | arrive {chunk rest : Octets} (waits : d.waiting = true) (split : d.transit = chunk ++ rest) :
      Step d { d with link := d.link.feed chunk, transit := rest }
  | poll {link : Link} (waits : d.waiting = true) (pending : d.link.reply = (none, link)) :
      Step d { d with link }
  | finish {outcome : Except Fault Signal} {link : Link} (waits : d.waiting = true)
      (found : d.link.reply = (some outcome, link)) : Step d { d with link, waiting := false }
  | abandon (waits : d.waiting = true) : Step d { d with waiting := false }

/-- Any number of steps. -/
inductive Leads (d : Dialogue) : Dialogue → Prop where
  | here : Leads d d
  | next {e f : Dialogue} (before : Leads d e) (step : Step e f) : Leads d f

/-- The letters fall into those that are taken and those that are buffered or on their way, and the
link owes what was sent and not answered by a letter that is taken. -/
structure Kept (peer : String) (d : Dialogue) : Prop where
  named : d.link.peer = peer
  split : ∃ taken left, d.letters = taken ++ left ∧
    d.link.buffer ++ d.transit = Letter.stream left ∧
    d.link.owed + taken.countP Letter.isReply = d.sent.length
  answered : d.answers.length ≤ d.readable
  waits : d.waiting = true → 0 < d.link.owed ∧ d.link.torn = false

theorem kept_start (peer : String) : Kept peer (start peer) where
  named := rfl
  split := ⟨[], [], rfl, rfl, rfl⟩
  answered := Nat.le_refl _
  waits waits := by simp [start] at waits

variable {peer : String} {d e : Dialogue}

theorem torn_of_outgoing {l : Link} {request : Signal} {bs : Octets}
    (ready : l.outgoing request = .ok bs) :
    l.torn = false := by
  unfold Link.outgoing at ready
  split at ready
  · simp at ready
  · rename_i whole
    simpa using whole

theorem Kept.write (kept : Kept peer d) {x : Letter} {bs : Octets}
    (framed : Frame.write x.payload = .ok bs)
    (answered : ((d.letters ++ [x]).filter Letter.isReply).length ≤ d.readable) :
    Kept peer { d with letters := d.letters ++ [x], transit := d.transit ++ bs } := by
  obtain ⟨taken, left, letters, aligned, count⟩ := kept.split
  obtain rfl := Except.ok.inj ((Frame.write_eq x.fits).symm.trans framed)
  refine ⟨kept.named, ⟨taken, left ++ [x], ?_, ?_, count⟩, answered, kept.waits⟩
  · rw [letters, List.append_assoc]
  · rw [← List.append_assoc, aligned, Letter.stream_append]
    simp [Letter.stream, Frame.stream]

/-- A poll that finds nothing has passed over late replies and notices only. -/
theorem Kept.pending (kept : Kept peer d) {link : Link} (waits : d.waiting = true)
    (pending : d.link.reply = (none, link)) :
    ∃ taken left, d.letters = taken ++ left ∧ link.buffer ++ d.transit = Letter.stream left ∧
      link.owed + taken.countP Letter.isReply = d.sent.length ∧ 0 < link.owed ∧
        (d.transit = [] → left = []) := by
  obtain ⟨earlier, buffered, letters, aligned, count⟩ := kept.split
  obtain ⟨polled, -⟩ := Link.reply_polled (kept.waits waits).1 aligned pending
  obtain ⟨name, buffer, owed, torn⟩ := link
  cases polled with
  | @pending taken left _ _ split tail counted still whole =>
    have total : owed + (earlier ++ taken).countP Letter.isReply = d.sent.length := by
      dsimp only at counted
      rw [List.countP_append]
      omega
    refine ⟨earlier ++ taken, left, ?_, tail, total, still, whole⟩
    rw [letters, split, List.append_assoc]

/-- A poll that finds a reply has passed over all replies but the one to the last request. -/
theorem Kept.found (kept : Kept peer d) {outcome : Except Fault Signal} {link : Link}
    (waits : d.waiting = true) (found : d.link.reply = (some outcome, link)) :
    ∃ taken x left, d.letters = taken ++ x :: left ∧
      link.buffer ++ d.transit = Letter.stream left ∧ link.owed = 0 ∧
      taken.countP Letter.isReply + 1 = d.sent.length ∧ x.isReply = true ∧
        outcome = .ok x.signal := by
  obtain ⟨earlier, buffered, letters, aligned, count⟩ := kept.split
  obtain ⟨polled, -⟩ := Link.reply_polled (kept.waits waits).1 aligned found
  obtain ⟨name, buffer, owed, torn⟩ := link
  cases polled with
  | @found taken left x _ split tail counted reply =>
    have total : (earlier ++ taken).countP Letter.isReply + 1 = d.sent.length := by
      rw [List.countP_append]
      omega
    refine ⟨earlier ++ taken, x, left, ?_, tail, rfl, total, reply, rfl⟩
    rw [letters, split, List.append_assoc]

theorem Kept.step (kept : Kept peer d) (step : Step d e) : Kept peer e := by
  obtain ⟨taken, left, letters, aligned, count⟩ := kept.split
  cases step with
  | send idle ready =>
    refine ⟨kept.named, ⟨taken, left, letters, aligned, ?_⟩, ?_, fun _ =>
      ⟨Nat.succ_pos _, torn_of_outgoing ready⟩⟩
    · simp only [Link.requested, List.length_append, List.length_singleton]
      omega
    · refine Nat.le_trans kept.answered ?_
      simp only [readable, Link.requested, List.length_append]
      omega
  | tear idle ready =>
    -- The frame may have gone out in full, so the peer may answer one request more than were sent.
    refine ⟨kept.named, ⟨taken, left, letters, aligned, count⟩, ?_, fun waits => ?_⟩
    · refine Nat.le_trans kept.answered ?_
      simp [readable, Link.cutShort, torn_of_outgoing ready]
    · simp [idle] at waits
  | answer reply owes framed =>
    apply kept.write framed
    rw [List.filter_append, List.length_append, List.filter_cons_of_pos reply]
    exact owes
  | push push framed =>
    apply kept.write framed
    rw [List.filter_append, List.filter_cons_of_neg (by simp [Letter.isReply, push]),
      List.filter_nil, List.append_nil]
    exact kept.answered
  | arrive waits split =>
    refine ⟨kept.named, ⟨taken, left, letters, ?_, count⟩, kept.answered, kept.waits⟩
    rw [← aligned, split, ← List.append_assoc]
    rfl
  | @poll link waits pending =>
    obtain ⟨taken, left, letters, tail, counted, owes, -⟩ := kept.pending waits pending
    obtain ⟨-, name, torn⟩ := Link.reply_polled (kept.waits waits).1 aligned pending
    refine ⟨name.trans kept.named, ⟨taken, left, letters, tail, counted⟩, ?_, ?_⟩
    · show d.answers.length ≤ d.sent.length + link.torn.toNat
      rw [torn]
      exact kept.answered
    · exact fun _ => ⟨owes, torn.trans (kept.waits waits).2⟩
  | @finish _ link waits found =>
    obtain ⟨taken, x, left, letters, tail, owed, counted, reply, -⟩ := kept.found waits found
    obtain ⟨-, name, torn⟩ := Link.reply_polled (kept.waits waits).1 aligned found
    refine ⟨name.trans kept.named, ⟨taken ++ [x], left, ?_, tail, ?_⟩, ?_, fun waits => by
      simp at waits⟩
    · rw [letters, List.append_assoc, List.singleton_append]
    · simp [owed, reply, counted]
    · show d.answers.length ≤ d.sent.length + link.torn.toNat
      rw [torn]
      exact kept.answered
  | abandon waits => exact ⟨kept.named, kept.split, kept.answered, fun waits => by simp at waits⟩

theorem Leads.kept (reached : (start peer).Leads d) : Kept peer d := by
  induction reached with
  | here => exact kept_start peer
  | next _ step ih => exact ih.step step

/-- A torn link stays torn. -/
theorem Leads.torn (later : d.Leads e) (torn : d.link.torn = true) :
    e.link.torn = true ∧ e.link.peer = d.link.peer := by
  induction later with
  | here => exact ⟨torn, rfl⟩
  | @next e f _ step ih =>
    cases step with
    | send | answer | push | arrive | abandon => exact ih
    | tear => exact ⟨rfl, ih.2⟩
    | poll _ polled | finish _ polled =>
      obtain ⟨-, rfl⟩ := Prod.mk.inj polled
      exact ih

end Dialogue
end SharedVariables
