import Mathlib.Tactic.Choose
import SharedVariables.Proofs.Callers
import SharedVariables.Proofs.Cascade
import SharedVariables.Proofs.Restraint

/-! Two clients and the broker. The partners of a variable read and write it, the broker serves
their requests in any order, and what others do meanwhile leaves state and value of the variable
alone. -/
namespace SharedVariables

structure Turn where
  side : Side
  exchange : Exchange
deriving DecidableEq

def exchangesOf (side : Side) (turns : List Turn) : List Exchange :=
  (turns.filter fun x => x.side = side).map (·.exchange)

theorem exchangesOf_append (side other : Side) (turns : List Turn) (x : Exchange) :
    exchangesOf other (turns ++ [⟨side, x⟩]) =
      if other = side then exchangesOf other turns ++ [x] else exchangesOf other turns := by
  by_cases same : other = side
  · simp [exchangesOf, same]
  · have apart : side ≠ other := fun h => same h.symm
    simp [exchangesOf, same, apart]

/-- The broker, and the turns that the partners have had with it. -/
structure Sharing where
  broker : Broker
  turns : List Turn := []

namespace Sharing

/-- A partner is served, or something else happens that changes neither state nor value of the
variable, leaves its partners where they are and keeps some bits in force. -/
inductive Step (key : Key) (conns : Side → ConnId) (bits : Mask) (s : Sharing) :
    Sharing → Prop where
  | turn (side : Side) (request : Signal) :
      Step key conns bits s
        { broker := (s.broker.step (.request (conns side) request)).1
          turns := s.turns ++ [⟨side, request, (s.broker.dispatch (conns side) request).1⟩] }
  | aside {event : Occurrence} {r after : Record}
      (fresh : ∀ c, event.opened = some c → s.broker.roster.get? c = none)
      (found : s.broker.table.get? key = some r)
        (left : (s.broker.step event).1.table.get? key = some after)
      (state : after.state = r.state) (value : after.value = r.value) (sides : r.SameSides after)
      (control : after.control.includes bits = true) :
      Step key conns bits s { s with broker := (s.broker.step event).1 }

inductive Leads (key : Key) (conns : Side → ConnId) (bits : Mask) (s : Sharing) :
    Sharing → Prop where
  | refl : Leads key conns bits s s
  | step {t u : Sharing} (before : Leads key conns bits s t) (step : Step key conns bits t u) :
      Leads key conns bits s u

end Sharing

namespace Broker

/-- The record of a key, held over two connections under a control with some bits. -/
structure Shares (key : Key) (conns : Side → ConnId) (bits : Mask) (b : Broker) (r : Record) :
    Prop where
  upkept : b.Upkept []
  found : b.table.get? key = some r
  held : ∀ side, (r.partner side).conn = some (conns side)
  control : r.control.includes bits = true

variable {key : Key} {conns : Side → ConnId} {bits : Mask} {b : Broker} {r : Record}

theorem Shares.key_eq (shares : b.Shares key conns bits r) : r.key = key := by
  have here := List.find?_some shares.found
  exact beq_iff_eq.mp here

theorem Shares.sideOf? (shares : b.Shares key conns bits r) (side : Side) :
    r.sideOf? (r.partner side).id = some side := by
  have accepted : r.accepting.isActive = true := by
    have held := shares.held .accepting
    exact Option.isSome_iff_exists.mpr ⟨_, held⟩
  have apart := (shares.upkept.sound.records r (Table.mem_of_get? shares.found)).apart accepted
  cases side <;> simp [Record.sideOf?, Record.partner, apart]

theorem Shares.holds (shares : b.Shares key conns bits r) (side : Side) :
    b.held (conns side) key = .ok (r, side) := by
  have acts := shares.upkept.agrees.agreement.live r (Table.mem_of_get? shares.found) side
    _ (shares.held side)
  have active : (r.partner side).isActive = true := by simp [Partner.isActive, shares.held side]
  simp [Broker.held, caller, acts, Table.activePartnerOf, Table.partnerOf, shares.found,
    shares.sideOf? side, active]

theorem Shares.move (shares : b.Shares key conns bits r) {event : Occurrence} {after : Record}
    (fresh : ∀ c, event.opened = some c → b.roster.get? c = none)
    (left : (b.step event).1.table.get? key = some after) (sides : r.SameSides after)
    (control : after.control.includes bits = true) : (b.step event).1.Shares key conns bits after :=
  ⟨shares.upkept.step fresh, left, fun side => (sides side).2.trans (shares.held side), control⟩

theorem Shares.change (shares : b.Shares key conns bits r) {side : Side} {request : Signal}
    {f : Record → Record}
    (table : (b.handle (conns side) request).broker.table = b.table.update key f)
    (same : (f r).key = r.key) (sides : r.SameSides (f r)) (control : (f r).control = r.control) :
    (b.step (.request (conns side) request)).1.Shares key conns bits (f r) := by
  have fresh : ∀ c, (Occurrence.request (conns side) request).opened = some c →
      b.roster.get? c = none := by
    intro c opened
    simp [Occurrence.opened] at opened
  refine shares.move fresh ?_ sides (control ▸ shares.control)
  have sound := (shares.upkept.step fresh).sound
  have here : (b.step (.request (conns side) request)).1.table = b.table.update key f := by
    simp [step, table]
  rw [here] at sound ⊢
  have mem : f r ∈ (b.table.update key f).records :=
    Table.mem_update.mpr (.inr ⟨r, Table.mem_of_get? shares.found, shares.key_eq, rfl⟩)
  have found := sound.get? mem
  rwa [same, shares.key_eq] at found

/-- What an exchange of a client means for the record, with the side that the client holds. -/
inductive Advance (key : Key) (calls : List Call) (side : Side) (r : Record) :
    Stage → Exchange → Record → Stage → List Octets → Prop where
  | refused {c : Call} {attempt : UInt32} (mem : c ∈ calls)
      (closed : r.permits c.used side = false) :
      Advance key calls side r .asking ⟨(c.check key attempt).request, .yesNo false⟩ r .asking []
  | permitted {c : Call} {attempt : UInt32} (mem : c ∈ calls)
      (opened : r.permits c.used side = true) :
      Advance key calls side r .asking ⟨(c.check key attempt).request, .yesNo true⟩
        r (.permitted c) []
  | missed {terms : Terms} {reply : Signal} (empty : r.value = none) :
      Advance key calls side r (.permitted (.read terms)) ⟨.getValue key, reply⟩ r .asking []
  | fetched {terms : Terms} {payload : Octets} (value : r.value = some payload) :
      Advance key calls side r (.permitted (.read terms))
        ⟨.getValue key, .valueIs key 0 "" payload⟩ r
        (.performed (.read terms) payload) []
  | assigned {terms : Terms} {payload : Octets} :
      Advance key calls side r (.permitted (.write payload terms))
        ⟨.assignValue key payload, .assignWas key 0 ""⟩ { r with value := some payload }
        (.performed (.write payload terms) payload) []
  | reported {c : Call} {payload : Octets} :
      Advance key calls side r (.performed c payload)
        ⟨.setState key c.used, .stateIs key (r.report c.used side).state⟩
          (r.report c.used side) .asking
        (c.yields (some payload))

variable {calls : List Call} {side : Side}

theorem Shares.dispatch_check (shares : b.Shares key conns bits r) (side : Side) (c : Call)
    (attempt : UInt32) :
    b.dispatch (conns side) (c.check key attempt).request =
      (.yesNo (r.permits c.used side), b, []) := by
  cases c <;>
    simp [Call.check, Inquiry.mayUse, Inquiry.maySet, Inquiry.yesNo, dispatch, handle,
      settle, shares.holds side,
      Except.map, Call.used, Record.permits]

theorem Shares.dispatch_getValue (shares : b.Shares key conns bits r) (side : Side) :
    b.dispatch (conns side) (.getValue key) =
      (match r.value with
        | some payload => .valueIs key 0 "" payload
        | none => .valueIs key (Fault.noValue key).code Signal.Kind.getValue.name [], b, []) := by
  cases value : r.value <;>
    simp [dispatch, handle, getValue, settle, shares.holds side, value, Signal.refusal,
      Signal.kind, Signal.subject]

theorem Shares.handle_assignValue (shares : b.Shares key conns bits r) (side : Side)
    (payload : Octets) :
    b.handle (conns side) (.assignValue key payload) =
      { b with table := b.table.update key fun r => { r with value := some payload } }.answer
        (.assignWas key 0 "") := by
  simp [handle, assignValue, shares.holds side]

theorem Shares.handle_setState (shares : b.Shares key conns bits r) (side : Side) (used : Bool) :
    b.handle (conns side) (.setState key used) =
      { outcome := .ok (.stateIs key (r.report used side).state)
        broker := { b with table := b.table.update key fun _ => r.report used side }
        posts := b.notify (r.report used side) side.other } := by
  simp [handle, setState, changeHeld, shares.holds side]

theorem Advance.control {s t : Stage} {x : Exchange} {after : Record} {more : List Octets}
    (advance : Advance key calls side r s x after t more) : after.control = r.control := by
  cases advance with
  | reported => exact r.control_report _ _
  | _ => rfl

theorem Shares.advance (shares : b.Shares key conns bits r) {s t : Stage} {x : Exchange}
    {more : List Octets} (next : s.Next key calls x t more)
    (answered : x.reply = (b.dispatch (conns side) x.request).1) :
    ∃ after, Advance key calls side r s x after t more ∧
      (b.step (.request (conns side) x.request)).1.Shares key conns bits after := by
  -- The client knows its request and what it makes of the reply; the broker's answer fixes the
  -- reply.
  cases next with
  | @refused c attempt reply mem refusal =>
    simp only [shares.dispatch_check, step] at answered ⊢
    subst reply
    have closed : r.permits c.used side = false := by
      cases permitted : r.permits c.used side with
      | false => rfl
      | true => simp [permitted] at refusal
    rw [closed]
    exact ⟨r, .refused mem closed, shares⟩
  | @permitted c attempt mem =>
    simp only [shares.dispatch_check, step, Signal.yesNo.injEq] at answered ⊢
    exact ⟨r, .permitted mem answered.symm, shares⟩
  | @failed c reply nothing =>
    cases c with
    | read terms =>
      simp only [Call.act, shares.dispatch_getValue, step] at answered ⊢
      cases value : r.value with
      | none => exact ⟨r, .missed value, shares⟩
      | some payload => simp [answered, value, Call.moved] at nothing
    | write payload terms =>
      simp only [Call.act, dispatch, shares.handle_assignValue, answer, settle] at answered
      simp [answered, Call.moved] at nothing
  | @performed c reply payload done =>
    cases c with
    | read terms =>
      simp only [Call.act, shares.dispatch_getValue, step] at answered ⊢
      cases value : r.value with
      | none => simp [answered, value, Call.moved, Fault.code, Fault.noValueCode] at done
      | some stored =>
        rw [value] at answered
        subst reply
        obtain rfl : stored = payload := by simpa [Call.moved] using done
        exact ⟨r, .fetched value, shares⟩
    | write payload terms =>
      have handled := shares.handle_assignValue side payload
      simp only [Call.act, dispatch, handled, answer, settle] at answered ⊢
      subst reply
      obtain rfl : payload = _ := by simpa [Call.moved] using done
      exact ⟨_, .assigned, shares.change (by rw [handled]; rfl) rfl (r.sameSides_withValue _) rfl⟩
  | @reported c payload k state =>
    have handled := shares.handle_setState side c.used
    have table : (b.handle (conns side) (.setState key c.used)).broker.table =
        b.table.update key fun _ => r.report c.used side := by rw [handled]
    have after := shares.change table (r.key_report _ _) (r.sameSides_report _ _)
      (r.control_report _ _)
    simp only [dispatch, handled, Signal.stateIs.injEq] at answered
    obtain ⟨rfl, rfl⟩ := answered
    exact ⟨_, .reported, after⟩
  | @unreported c payload reply other =>
    have handled := shares.handle_setState side c.used
    simp only [dispatch, handled] at answered
    exact absurd answered (other _ _)

end Broker

namespace Sharing

/-- The partners come along with their calls, and the record with them. -/
inductive Progress (key : Key) (calls : Side → List Call) (bits : Mask) (first : Record) :
    List Turn → Record → (Side → Stage) → (Side → List Octets) → Prop where
  | start (control : first.control.includes bits = true) :
      Progress key calls bits first [] first (fun _ => .asking) fun _ => []
  | turn {turns : List Turn} {side : Side} {x : Exchange} {r after : Record}
      {stage next : Side → Stage}
      {returned total : Side → List Octets} {more : List Octets}
      (before : Progress key calls bits first turns r stage returned)
      (advance : Broker.Advance key (calls side) side r (stage side) x after (next side) more)
      (waits : next side.other = stage side.other) (gets : total side = returned side ++ more)
      (keeps : total side.other = returned side.other) :
      Progress key calls bits first (turns ++ [⟨side, x⟩]) after next total
  | aside {turns : List Turn} {r after : Record} {stage : Side → Stage}
      {returned : Side → List Octets}
      (before : Progress key calls bits first turns r stage returned)
        (state : after.state = r.state)
      (value : after.value = r.value) (control : after.control.includes bits = true) :
      Progress key calls bits first turns after stage returned

variable {key : Key} {conns : Side → ConnId} {bits : Mask}
  {calls : Side → List Call} {first : Record}

theorem Progress.control {turns : List Turn} {r : Record} {stage : Side → Stage}
    {returned : Side → List Octets}
    (progress : Progress key calls bits first turns r stage returned) :
    r.control.includes bits = true := by
  induction progress with
  | start control => exact control
  | turn _ advance _ _ _ ih => rwa [advance.control]
  | aside _ _ _ control _ => exact control

/-- Whatever the broker served, if each partner has conducted its calls then both have come
along. -/
theorem Leads.progress {b : Broker} {s : Sharing} (shares : b.Shares key conns bits first)
    (reached : Leads key conns bits { broker := b } s) {stage : Side → Stage}
    {returned : Side → List Octets}
    (courses : ∀ side,
      Course key (calls side) (exchangesOf side s.turns) (stage side) (returned side)) :
    ∃ r, s.broker.Shares key conns bits r ∧
      Progress key calls bits first s.turns r stage returned := by
  induction reached generalizing stage returned with
  | refl =>
    have begun : ∀ side, stage side = .asking ∧ returned side = [] := fun side =>
      (courses side).of_nil
    obtain rfl : stage = fun _ => .asking := funext fun side => (begun side).1
    obtain rfl : returned = fun _ => [] := funext fun side => (begun side).2
    exact ⟨first, shares, .start shares.control⟩
  | @step t u before step ih =>
    cases step with
    | turn side request =>
      have own := courses side
      have others := courses side.other
      rw [exchangesOf_append, if_pos rfl] at own
      rw [exchangesOf_append, if_neg side.other_ne] at others
      obtain ⟨s, got, more, course, next, all⟩ := own.of_append
      -- The stages before the turn: the other partner has not moved.
      have earlier : ∀ z, Course key (calls z) (exchangesOf z t.turns)
          (if z = side then s else stage z) (if z = side then got else returned z) := by
        intro z
        by_cases same : z = side
        · subst z
          simpa using course
        · obtain rfl := Side.eq_other same
          simpa [same] using others
      obtain ⟨r, shares, progress⟩ := ih earlier
      obtain ⟨after, advance, moved⟩ := shares.advance next rfl
      have here : (if side = side then s else stage side) = s := if_pos rfl
      rw [← here] at advance
      refine ⟨after, moved, progress.turn advance ?_ ?_ ?_⟩
      · simp [side.other_ne]
      · simpa using all
      · simp [side.other_ne]
    | aside fresh found left state value sides control =>
      obtain ⟨r, shares, progress⟩ := ih courses
      obtain rfl := Option.some.inj (shares.found.symm.trans found)
      exact ⟨_, shares.move fresh left sides control, progress.aside state value control⟩

theorem Leads.conducted {capacity : Option Nat} {wording : Wording} {events : List Occurrence}
    {s : Sharing} (distinct : (events.filterMap Occurrence.opened).Nodup)
    (found : ((Broker.new capacity wording).run events).1.table.get? key = some first)
    (held : ∀ side, (first.partner side).conn = some (conns side))
    (control : first.control.includes bits = true)
    (reached : Leads key conns bits { broker := ((Broker.new capacity wording).run events).1 } s)
    (conducted : ∀ side, Call.Conduct key (calls side) (exchangesOf side s.turns)) :
    ∃ r stage, s.broker.table.get? key = some r ∧
      (∀ side, Course key (calls side) (exchangesOf side s.turns) (stage side)
        (Call.returned key (calls side) (exchangesOf side s.turns))) ∧
      Progress key calls bits first s.turns r stage
        (fun side => Call.returned key (calls side) (exchangesOf side s.turns)) := by
  have shares := Broker.Shares.mk (Broker.upkept_run capacity wording distinct) found held control
  choose stage courses using fun side => (conducted side).course
  obtain ⟨r, after, progress⟩ := reached.progress shares courses
  exact ⟨r, stage, after.found, courses, progress⟩

def play (conns : Side → ConnId) (s : Sharing) : List (Side × Signal) → Sharing
  | [] => s
  | (side, request) :: rest =>
    play conns
      { broker := (s.broker.step (.request (conns side) request)).1
        turns := s.turns ++ [⟨side, request, (s.broker.dispatch (conns side) request).1⟩] } rest

theorem leads_play (key : Key) (conns : Side → ConnId) (bits : Mask) {s t : Sharing}
    (before : Leads key conns bits s t) (moves : List (Side × Signal)) :
    Leads key conns bits s (t.play conns moves) := by
  induction moves generalizing t with
  | nil => exact before
  | cons move rest ih => exact ih (before.step (.turn move.1 move.2))

/-- Two processors come to share a variable, and the offerer imposes a control. -/
def opening (control : Mask) : List Occurrence :=
  [.connected ⟨1⟩ "", .request ⟨1⟩ (.registerProcessor ⟨2001, 0, 0⟩ 7),
    .connected ⟨2⟩ "", .request ⟨2⟩ (.registerProcessor ⟨2002, 0, 0⟩ 8),
    .request ⟨1⟩ (.matchOrMake "X" ⟨2002, 0, 0⟩ ⟨2001, 0, 0⟩),
    .request ⟨2⟩ (.matchOrMake "X" ⟨2001, 0, 0⟩ ⟨2002, 0, 0⟩),
    .request ⟨1⟩ (.setControl (.compose 2001 0) control)]

def opened (control : Mask) : Record :=
  ((Record.untouched control).addEvents .offering .matched).addEvents .accepting .control

def wires : Side → ConnId
  | .offering => ⟨1⟩
  | .accepting => ⟨2⟩

theorem found_opened (control : Mask) :
    ((Broker.new none {}).run (opening control)).1.table.get? (.compose 2001 0) =
      some (opened control) := by
  obtain ⟨a, b, c, d⟩ := control
  revert a b c d
  decide +kernel

theorem held_opened (control : Mask) (side : Side) :
    ((opened control).partner side).conn = some (wires side) := by
  cases side <;> rfl

theorem distinct_opening (control : Mask) :
    ((opening control).filterMap Occurrence.opened).Nodup := by
  have conns : (opening control).filterMap Occurrence.opened = [⟨1⟩, ⟨2⟩] := rfl
  rw [conns]
  decide

end Sharing
end SharedVariables
