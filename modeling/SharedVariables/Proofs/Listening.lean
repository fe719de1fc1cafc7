import SharedVariables.Proofs.Dialogue
import SharedVariables.Session.Puppet

/-! Listening on an event channel. The broker writes frames until it hangs up, the bytes arrive in
any chunks, and calls for the next notification begin, look at what is there, and are given up at
any moment. What has been written falls into the letters whose notifications were returned and those
that are in the buffer, at the socket or on their way. -/
namespace SharedVariables

namespace Notification

theorem toSignal_of_ofSignal? {s : Signal} {n : Notification} (found : ofSignal? s = some n) :
    n.toSignal = s := by
  unfold ofSignal? at found
  split at found
  all_goals first
    | obtain rfl := Option.some.inj found
      rfl
    | simp at found

theorem isSome_ofSignal? (s : Signal) : (ofSignal? s).isSome = s.kind.isPush := by cases s <;> rfl

end Notification

namespace Letter

/-- The notifications that letters carry, in order. -/
def notifications (xs : List Letter) :
    List Notification := xs.filterMap fun x => Notification.ofSignal? x.signal

theorem notifications_cons (x : Letter) (later : List Letter) :
    notifications (x :: later) =
      (Notification.ofSignal? x.signal).toList ++ notifications later := by
  rw [notifications, List.filterMap_cons]
  cases Notification.ofSignal? x.signal <;> rfl

theorem notifications_append (xs ys : List Letter) :
    notifications (xs ++ ys) = notifications xs ++ notifications ys :=
  List.filterMap_append

/-- The notifications are the pushes, field by field. -/
theorem signals_of_pushes (xs : List Letter) :
    (xs.filter isPush).map signal = (notifications xs).map Notification.toSignal := by
  induction xs with
  | nil => rfl
  | cons x later ih =>
    have push : x.isPush = (Notification.ofSignal? x.signal).isSome :=
      (Notification.isSome_ofSignal? x.signal).symm
    rw [notifications_cons, List.map_append, ← ih, List.filter_cons, push]
    cases found : Notification.ofSignal? x.signal with
    | none => rfl
    | some n => simp [Notification.toSignal_of_ofSignal? found]

end Letter

namespace Listener

/-- A scan takes letters off the buffer up to the first notification, or all of them if they carry
none. -/
theorem scan_spec {xs : List Letter} {buffer rest tail : Octets} (cut : Frame.take tail = .ok none)
    (aligned : buffer ++ rest = Letter.stream xs ++ tail) :
    ∃ (found : Option Notification) (left : Octets) (taken later : List Letter),
      scan buffer = (found.map .ok, left) ∧ xs = taken ++ later ∧
        left ++ rest = Letter.stream later ++ tail ∧
        Letter.notifications taken = found.toList ∧ (found = none → rest = [] → later = []) := by
  fun_induction scan buffer generalizing xs with
  | case1 buffer e failed =>
    rcases Letter.take_stream_append cut aligned with ⟨none, -⟩ | ⟨x, later, more, -, taken, -⟩
    · simp [none] at failed
    · simp [taken] at failed
  | case2 buffer incomplete =>
    rcases Letter.take_stream_append cut aligned with ⟨-, whole⟩ | ⟨x, later, more, -, taken, -⟩
    · exact ⟨none, buffer, [], xs, rfl, rfl, aligned, rfl, fun _ => whole⟩
    · simp [taken] at incomplete
  | case3 buffer payload left taken e unreadable =>
    obtain ⟨x, later, rfl, rfl, onward⟩ := Letter.of_take_append cut aligned taken
    simp [x.spells] at unreadable
  | case4 buffer payload left taken signal spells n carries =>
    obtain ⟨x, later, rfl, rfl, onward⟩ := Letter.of_take_append cut aligned taken
    obtain rfl := Except.ok.inj (x.spells.symm.trans spells)
    refine ⟨some n, left, [x], later, rfl, rfl, onward, ?_, by simp⟩
    rw [Letter.notifications_cons, carries]
    rfl
  | case5 buffer payload left taken signal spells other ih =>
    obtain ⟨x, later, rfl, rfl, onward⟩ := Letter.of_take_append cut aligned taken
    obtain rfl := Except.ok.inj (x.spells.symm.trans spells)
    obtain ⟨found, left, passed, later, scanned, rfl, onward, carried, whole⟩ := ih onward
    refine ⟨found, left, x :: passed, later, scanned, rfl, onward, ?_, whole⟩
    rw [Letter.notifications_cons, other, carried]
    rfl

/-- What a call gives that finds a notification or none. -/
def receiptOf (hungUp : Bool) : Option Notification → Receipt
  | some n => .notification n
  | none => if hungUp then .hungUp else .nothing

/-- What a call gives and leaves, where `rest` is still to arrive. -/
theorem next_spec {xs : List Letter} {l : Listener} {p : Puppet} {rest tail : Octets}
    (cut : Frame.take tail = .ok none)
    (aligned : l.link.buffer ++ p.waiting ++ rest = Letter.stream xs ++ tail) :
    ∃ (found : Option Notification) (left : Octets) (taken later : List Letter),
      next Puppet.peer p l =
        (receiptOf p.hungUp found, { p with waiting := [] },
          { l with link := { l.link with buffer := left } }) ∧
      xs = taken ++ later ∧ left ++ rest = Letter.stream later ++ tail ∧
        Letter.notifications taken = found.toList ∧ (found = none → rest = [] → later = []) := by
  obtain ⟨found, left, taken, later, scanned, facts⟩ := scan_spec cut aligned
  refine ⟨found, left, taken, later, ?_, facts⟩
  simp only [next, Puppet.peer, scanned]
  cases found <;> rfl

/-- Calls one after the other on a channel on which everything has arrived. -/
theorem nexts_eq {xs : List Letter} {l : Listener} {p : Puppet} {tail : Octets}
    (cut : Frame.take tail = .ok none)
    (aligned : l.link.buffer ++ p.waiting = Letter.stream xs ++ tail) (n : Nat) :
    p.nexts l n = ((Letter.notifications xs).map .notification).take n ++
      List.replicate (n - (Letter.notifications xs).length) (receiptOf p.hungUp none) := by
  induction n generalizing xs l p with
  | zero => simp [Puppet.nexts]
  | succ n ih =>
    rw [← List.append_nil (l.link.buffer ++ p.waiting)] at aligned
    obtain ⟨found, left, taken, later, given, rfl, onward, carried, whole⟩ := next_spec cut aligned
    rw [List.append_nil] at onward
    have others :=
      ih (l := { l with link := { l.link with buffer := left } }) (p := { p with waiting := [] })
      (by simpa using onward)
    rw [Puppet.nexts, given]
    simp only [others, Letter.notifications_append, carried]
    cases found with
    | some m => simp [receiptOf]
    | none =>
      obtain rfl := whole rfl rfl
      simp [Letter.notifications, List.replicate_succ]

end Listener

/-- A listener, what the broker has written for it, and what its calls gave. -/
structure Listening where
  listener : Listener
  /-- What has arrived and was not looked at, and whether the hang-up has. -/
  socket : Puppet := {}
  /-- The frames that the broker has written. -/
  letters : List Letter := []
  /-- The start of a frame that the broker wrote last, once it has hung up. -/
  stub : Option Octets := none
  /-- Bytes of the broker that have not arrived. -/
  transit : Octets := []
  /-- A call waits for a notification. -/
  calling : Bool := false
  /-- What the completed calls gave, in order. -/
  heard : List Listener.Receipt := []

namespace Listening

open Listener (Receipt)

/-- A listener whose buffer may hold the start of letters that came right after the reply that made
it one. -/
def start (listener : Listener) (letters : List Letter) (transit : Octets) :
    Listening := { listener, letters, transit }

/-- What comes after the last whole frame. -/
def tail (d : Listening) : Octets := d.stub.getD []

/-- What can happen next. -/
inductive Step (d : Listening) : Listening → Prop where
  | write {x : Letter} {bs : Octets} (connected : d.stub = none)
      (framed : Frame.write x.payload = .ok bs) :
      Step d { d with letters := d.letters ++ [x], transit := d.transit ++ bs }
  | hangUp {begun : Octets} (connected : d.stub = none) (cut : Frame.take begun = .ok none) :
      Step d { d with stub := some begun, transit := d.transit ++ begun }
  | arrive {chunk rest : Octets} (split : d.transit = chunk ++ rest) :
      Step d { d with socket := d.socket.send [.bytes chunk], transit := rest }
  | close (ended : d.stub.isSome = true) (arrived : d.transit = []) :
      Step d { d with socket := d.socket.hangUp }
  | call (idle : d.calling = false) : Step d { d with calling := true }
  | poll {socket : Puppet} {listener : Listener} (calls : d.calling = true)
      (pending : Listener.next Puppet.peer d.socket d.listener = (.nothing, socket, listener)) :
      Step d { d with socket, listener }
  | finish {receipt : Receipt} {socket : Puppet} {listener : Listener} (calls : d.calling = true)
      (given : Listener.next Puppet.peer d.socket d.listener = (receipt, socket, listener))
      (done : receipt ≠ .nothing) :
      Step d { d with socket, listener, calling := false, heard := d.heard ++ [receipt] }
  | abandon (calls : d.calling = true) : Step d { d with calling := false }

/-- Any number of steps. -/
inductive Leads (d : Listening) : Listening → Prop where
  | here : Leads d d
  | next {e f : Listening} (before : Leads d e) (step : Step e f) : Leads d f

/-- Of the letters some are taken, and their notifications are what the calls have given; the others
are in the buffer, at the socket or on their way. A call has met the hang-up only if none is
left. -/
structure Kept (d : Listening) : Prop where
  cut : Frame.take d.tail = .ok none
  closed : d.socket.hungUp = true → d.stub.isSome = true ∧ d.transit = []
  split : ∃ taken left ends, d.letters = taken ++ left ∧
    d.listener.link.buffer ++ d.socket.waiting ++ d.transit = Letter.stream left ++ d.tail ∧
    d.heard = (Letter.notifications taken).map .notification ++ List.replicate ends .hungUp ∧
    (0 < ends → d.socket.hungUp = true ∧ left = [])

variable {d e : Listening}

theorem kept_start {l : Listener} {xs : List Letter} {rest : Octets}
    (aligned : l.link.buffer ++ rest = Letter.stream xs) : Kept (start l xs rest) where
  cut := rfl
  closed hungUp := by simp [start] at hungUp
  split := ⟨[], xs, 0, rfl, by simpa [start, tail] using aligned, rfl, by simp⟩

/-- What a call adds to what was heard. -/
def told : Receipt → List Receipt
  | .nothing => []
  | receipt => [receipt]

theorem Kept.look (kept : Kept d) {receipt : Receipt} {socket : Puppet} {listener : Listener}
    (given : Listener.next Puppet.peer d.socket d.listener = (receipt, socket, listener))
    (calling : Bool) :
    Kept { d with socket, listener, calling, heard := d.heard ++ told receipt } := by
  obtain ⟨taken, left, ends, letters, aligned, heard, met⟩ := kept.split
  obtain ⟨found, buffer, passed, later, result, rfl, onward, carried, whole⟩ :=
    Listener.next_spec kept.cut aligned
  simp only [result, Prod.mk.injEq] at given
  obtain ⟨rfl, rfl, rfl⟩ := given
  have sorted : d.letters = taken ++ passed ++ later := by rw [letters, List.append_assoc]
  have moved : buffer ++ [] ++ d.transit = Letter.stream later ++ d.tail := by rwa [List.append_nil]
  refine ⟨kept.cut, kept.closed, ?_⟩
  cases found with
  | some n =>
    -- A letter was left, so no call has met the hang-up yet.
    have before : ends = 0 := by
      apply Nat.eq_zero_of_not_pos
      intro positive
      obtain ⟨rfl, -⟩ := List.append_eq_nil_iff.mp (met positive).2
      simp [Letter.notifications] at carried
    subst before
    refine ⟨taken ++ passed, later, 0, sorted, moved, ?_, by simp⟩
    simp [heard, Letter.notifications_append, carried, told, Listener.receiptOf]
  | none =>
    have same : Letter.notifications (taken ++ passed) = Letter.notifications taken := by
      rw [Letter.notifications_append, carried, Option.toList_none, List.append_nil]
    cases hungUp : d.socket.hungUp with
    | false =>
      refine ⟨taken ++ passed, later, ends, sorted, moved, ?_, fun positive => ?_⟩
      · rw [same, ← heard]
        exact List.append_nil _
      · simp [hungUp] at met
        omega
    | true =>
      refine ⟨taken ++ passed, later, ends + 1, sorted, moved, ?_, fun _ =>
        ⟨rfl, whole rfl (kept.closed hungUp).2⟩⟩
      rw [same, List.replicate_succ', ← List.append_assoc, ← heard]
      rfl

theorem Kept.connected (kept : Kept d) (connected : d.stub = none) :
    d.socket.hungUp = false ∧ d.tail = [] := by
  refine ⟨?_, by rw [tail, connected, Option.getD_none]⟩
  cases hungUp : d.socket.hungUp with
  | false => rfl
  | true => simpa [connected] using (kept.closed hungUp).1

theorem Kept.step (kept : Kept d) (step : Step d e) : Kept e := by
  obtain ⟨taken, left, ends, letters, aligned, heard, met⟩ := kept.split
  cases step with
  | @write x bs connected framed =>
    obtain rfl := Except.ok.inj ((Frame.write_eq x.fits).symm.trans framed)
    obtain ⟨listens, nothing⟩ := kept.connected connected
    refine ⟨kept.cut, fun hungUp => by
      simp [listens] at hungUp, taken, left ++ [x], ends, ?_, ?_, heard, ?_⟩
    · rw [letters, List.append_assoc]
    · rw [nothing, List.append_nil] at aligned
      show d.listener.link.buffer ++ d.socket.waiting ++
        (d.transit ++ Frame.bytes x.payload) = _ ++ d.tail
      rw [← List.append_assoc, aligned, nothing, List.append_nil, Letter.stream_append]
      simp [Letter.stream, Frame.stream]
    · intro positive
      simp [listens] at met
      omega
  | @hangUp begun connected cut =>
    obtain ⟨listens, nothing⟩ := kept.connected connected
    refine ⟨cut, fun hungUp => by
      simp [listens] at hungUp, taken, left, ends, letters, ?_, heard, met⟩
    rw [nothing, List.append_nil] at aligned
    show d.listener.link.buffer ++ d.socket.waiting ++ (d.transit ++ begun) =
      Letter.stream left ++ begun
    rw [← List.append_assoc, aligned]
  | @arrive chunk rest split =>
    refine ⟨kept.cut, fun hungUp => ?_, taken, left, ends, letters, ?_, heard, met⟩
    · obtain ⟨ended, arrived⟩ := kept.closed hungUp
      exact ⟨ended, (List.append_eq_nil_iff.mp (split.symm.trans arrived)).2⟩
    · rw [split] at aligned
      simpa [Puppet.send, Puppet.Item.octets, tail] using aligned
  | close ended arrived =>
    refine ⟨kept.cut, fun _ => ⟨ended, arrived⟩, taken, left, _, letters, aligned, heard, ?_⟩
    exact fun positive => ⟨rfl, (met positive).2⟩
  | call idle => exact ⟨kept.cut, kept.closed, kept.split⟩
  | poll calls pending =>
    have looked := kept.look pending d.calling
    rwa [told, List.append_nil] at looked
  | @finish receipt socket listener calls given done =>
    have looked := kept.look given false
    have kind : told receipt = [receipt] := by
      cases receipt with
      | nothing => exact absurd rfl done
      | _ => rfl
    rwa [kind] at looked
  | abandon calls => exact ⟨kept.cut, kept.closed, kept.split⟩

theorem Leads.kept (start : Kept d) (later : d.Leads e) : Kept e := by
  induction later with
  | here => exact start
  | next _ step ih => exact ih.step step

/-- However the bytes arrive and calls are given up: what the calls have given are the first of the
pushes that the broker has written, field by field and each once, and none of them meets the hang-up
before all pushes are given. Once everything has arrived, further calls give the other pushes and
then nothing, or the hang-up from then on, also with the start of a frame left over. -/
theorem every_push_heard_once (l : Listener) (xs : List Letter) (rest : Octets)
    (aligned : l.link.buffer ++ rest = Letter.stream xs) (d : Listening)
    (reached : (start l xs rest).Leads d) :
    ∃ given later : List Notification,
      (d.letters.filter Letter.isPush).map Letter.signal =
        (given ++ later).map Notification.toSignal ∧
      (∃ ends, d.heard = given.map .notification ++ List.replicate ends .hungUp ∧
        (0 < ends → d.socket.hungUp = true ∧ later = [])) ∧
      (d.socket.hungUp = true → d.transit = []) ∧
      (d.transit = [] → ∀ n, d.socket.nexts d.listener n = (later.map .notification).take n ++
        List.replicate (n - later.length) (if d.socket.hungUp then .hungUp else .nothing)) := by
  have kept := reached.kept (kept_start aligned)
  obtain ⟨taken, left, ends, letters, onward, heard, met⟩ := kept.split
  refine ⟨Letter.notifications taken, Letter.notifications left, ?_, ⟨ends, heard, ?_⟩, ?_, ?_⟩
  · rw [Letter.signals_of_pushes, letters, Letter.notifications_append]
  · intro positive
    obtain ⟨hungUp, rfl⟩ := met positive
    exact ⟨hungUp, rfl⟩
  · exact fun hungUp => (kept.closed hungUp).2
  · intro arrived n
    rw [arrived, List.append_nil] at onward
    exact Listener.nexts_eq kept.cut onward n

/-- A call is given up when three bytes of a reply have arrived. The reply, a notice and two bytes
of another frame follow, and the broker hangs up. The next call gives the notice, and those after it
meet the hang-up. -/
theorem every_push_heard_once_abandoned :
    let reply : Letter := ⟨[0x80, 0x01, 1], .yesNo true, by decide, rfl⟩
    let notice : Letter :=
      ⟨[0xc0, 0x04, 0, 0, 0, 0, 0, 0, 0, 7, 0, 0, 0, 8], .eventsPending ⟨7⟩ .set, by decide, rfl⟩
    let l : Listener := { link := { peer := "unix:s" }, identity := ⟨2001, 0, 0⟩ }
    let d : Listening :=
      { listener := { l with link := { l.link with buffer := [0, 0, 0] } }
        socket :=
          { waiting := [3, 0x80, 1, 1] ++ Frame.bytes notice.payload ++ [0, 0], hungUp := true }
        letters := [reply, notice], stub := some [0, 0] }
    (start l [] []).Leads d ∧
      d.socket.nexts d.listener 3 =
        [.notification (.eventsPending ⟨7⟩ .set), .hungUp, .hungUp] := by
  intro reply notice l d
  let state (buffer waiting : Octets) (hungUp : Bool) (letters : List Letter)
    (stub : Option Octets) (transit : Octets)
      (calling : Bool) : Listening :=
    ⟨{ l with link := { l.link with buffer } }, { waiting, hungUp }, letters, stub,
      transit, calling, []⟩
  let others : Octets := [3, 0x80, 1, 1] ++ Frame.bytes notice.payload
  have halves : Frame.bytes reply.payload ++ Frame.bytes notice.payload = [0, 0, 0] ++ others := by
    decide
  have replied :
      (start l [] []).Leads (state [] [] false [reply] none (Frame.bytes reply.payload) false) :=
    .next .here (.write rfl rfl)
  have noticed : (start l [] []).Leads (state [] [] false [reply, notice] none
      (Frame.bytes reply.payload ++ Frame.bytes notice.payload) false) :=
        .next replied (.write rfl rfl)
  have arrives :
      (start l [] []).Leads (state [] [0, 0, 0] false [reply, notice] none others true) :=
    .next (.next noticed (.call rfl)) (@Step.arrive _ [0, 0, 0] _ halves)
  have begun : Listener.scan [0, 0, 0] = (none, [0, 0, 0]) := by rw [Listener.scan]; rfl
  have pending : Listener.next Puppet.peer { waiting := [0, 0, 0] } l =
      (.nothing, {}, { l with link := { l.link with buffer := [0, 0, 0] } }) := by
    simp [Listener.next, Puppet.peer, l, begun]
  have givenUp :
      (start l [] []).Leads (state [0, 0, 0] [] false [reply, notice] none others false) :=
    .next (.next arrives (.poll rfl pending)) (.abandon rfl)
  have hangsUp :
      (start l [] []).Leads
        (state [0, 0, 0] [] false [reply, notice] (some [0, 0]) (others ++ [0, 0]) false) :=
    .next givenUp (.hangUp rfl rfl)
  have reached : (start l [] []).Leads d :=
    .next (.next hangsUp (@Step.arrive _ (others ++ [0, 0]) [] (List.append_nil _).symm))
      (.close rfl rfl)
  obtain ⟨given, later, pushes, ⟨_, heard, -⟩, -, nexts⟩ :=
    every_push_heard_once l [] [] rfl d reached
  obtain ⟨none, -⟩ := List.append_eq_nil_iff.mp heard.symm
  obtain rfl := List.map_eq_nil_iff.mp none
  obtain ⟨n, rest, rfl, carries, last⟩ := List.map_eq_cons_iff.mp pushes.symm
  obtain rfl := List.map_eq_nil_iff.mp last
  obtain rfl : n = .eventsPending ⟨7⟩ .set := by
    have back := congrArg Notification.ofSignal? carries
    rw [Notification.ofSignal?_toSignal] at back
    exact Option.some.inj back
  exact ⟨reached, nexts rfl 3⟩

end Listening
end SharedVariables
