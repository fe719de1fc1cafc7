import SharedVariables.Proofs.Conversation
import SharedVariables.Proofs.Refusals
import SharedVariables.Proofs.Seniority

/-! What a client is told is what the table holds. The marks for nothing, the null key and the
unused identity, are never mistaken for an answer: no key of a record is null, and only processors
make offers. -/
namespace SharedVariables

namespace Signal

/-- The key that a reply is about. Where it is what was asked for, as after sharing and polling, it
is no topic. -/
def topic? : Signal → Option Key
  | .retractResult key _ | .stateIs key _ | .controlIs key _ | .couplingIs key _ | .varnameIs key _
  | .valueIs key _ _ _ | .assignWas key _ _ | .offeringIdIs key _ | .pairingKeyIs key _ => some key
  | _ => none

def Kind.hasTopic : Kind → Bool
  | .retractResult | .stateIs | .controlIs | .couplingIs | .varnameIs | .valueIs |
      .assignWas | .offeringIdIs
  | .pairingKeyIs => true
  | _ => false

theorem isSome_topic? (s : Signal) : s.topic?.isSome = s.kind.hasTopic := by cases s <;> rfl

theorem topic_refusal {k : Kind} {key topic : Key} {fault : Fault}
    (named : (refusal k key fault).topic? = some topic) :
    topic = key := by
  cases k <;> first | exact (Option.some.inj named).symm | simp [refusal, ofFault, topic?] at named

end Signal

namespace Broker

variable {b : Broker} {conn : ConnId} {request : Signal}

theorem topic_changeHeld {key topic : Key} {change : Record → Side → Record} {f : Record → Signal}
    (about : ∀ r, (f r).topic? = some key) {reply : Signal}
    (answered : (b.changeHeld conn key change f).outcome = .ok reply)
    (named : reply.topic? = some topic) :
    topic = key := by
  unfold changeHeld at answered
  split at answered
  · simp [refuse, settle] at answered
  · obtain rfl := Except.ok.inj answered
    exact Option.some.inj (named.symm.trans (about _))

/-- A reply with a topic is about the key of its request. -/
theorem topic_handle {reply : Signal} {topic : Key}
    (answered : (b.handle conn request).outcome = .ok reply) (named : reply.topic? = some topic) :
    topic = request.subject := by
  have kind := answers_handle b conn request reply answered
  cases request with
  | findPairingKey =>
    obtain rfl := Except.ok.inj answered
    exact (Option.some.inj named).symm
  | getState | getControl | getCoupling | getVarname | findOfferingId =>
    obtain ⟨r, -, rfl⟩ := map_ok answered
    exact (Option.some.inj named).symm
  | setState | setControl => exact topic_changeHeld (fun _ => rfl) answered named
  | retractOffer key =>
    simp only [handle, retract] at answered
    split at answered
    · simp [refuse, settle] at answered
    · split at answered
      · simp [refuse, settle] at answered
      · obtain rfl := Except.ok.inj answered
        exact (Option.some.inj named).symm
  | getValue key =>
    simp only [handle, settle, getValue] at answered
    split at answered
    · simp at answered
    · split at answered
      · obtain rfl := Except.ok.inj answered
        exact (Option.some.inj named).symm
      · simp at answered
  | assignValue key payload =>
    simp only [handle, assignValue] at answered
    split at answered
    · simp [refuse, settle] at answered
    · obtain rfl := Except.ok.inj answered
      exact (Option.some.inj named).symm
  | _ =>
    have none := reply.isSome_topic?
    rw [kind, named] at none
    simp [Signal.kind, Signal.Kind.answer, Signal.Kind.hasTopic] at none

theorem topic_dispatch (b : Broker) (conn : ConnId) (request : Signal) {topic : Key}
    (named : (b.dispatch conn request).1.topic? = some topic) : topic = request.subject := by
  unfold dispatch at named
  simp only at named
  split at named
  · rename_i answered
    exact topic_handle answered named
  · exact Signal.topic_refusal named

/-- Every reply comes back as it was sent. -/
theorem echo_dispatch (b : Broker) (conn : ConnId) (request : Signal) :
    (b.dispatch conn request).1.echo = (b.dispatch conn request).1 := by
  cases request with
  | getOfferedVars target offerer =>
    exact (Signal.echo_eq_self_iff _).mpr
      (Name.not_ambiguous (b.table.offeredVariables target offerer))
  | _ =>
    apply Signal.echo_of_ne
    rw [kind_dispatch]
    simp [Signal.kind, Signal.Kind.answer]

end Broker

namespace Inquiry

/-- The questions that a client asks. -/
inductive Method : {α : Type} → Inquiry α → Prop where
  | call (request : Signal) (asks : request.kind.isRequest = true) : Method (plain request)
  | register (id : Identity) (pid : UInt32) : Method (register id pid)
  | isRegistered (id : Identity) : Method (isRegistered id)
  | matchOrMake (name : String) (wanted requester : Identity) :
      Method (matchOrMake name wanted requester)
  | retract (key : Key) : Method (retract key)
  | mayUse (key : Key) (attempt : UInt32) : Method (mayUse key attempt)
  | maySet (key : Key) (attempt : UInt32) : Method (maySet key attempt)
  | setState (key : Key) (used : Bool) : Method (setState key used)
  | getState (key : Key) : Method (getState key)
  | setControl (key : Key) (control : Mask) : Method (setControl key control)
  | getControl (key : Key) : Method (getControl key)
  | getCoupling (key : Key) : Method (getCoupling key)
  | getVarname (key : Key) : Method (getVarname key)
  | getValue (key : Key) : Method (getValue key)
  | assignValue (key : Key) (payload : Octets) : Method (assignValue key payload)
  | getEvents (id : Identity) : Method (getEvents id)
  | clearAllEvents (id : Identity) : Method (clearAllEvents id)
  | addEvent (key : Key) (id : Identity) (events : Events) : Method (addEvent key id events)
  | findOfferingId (key : Key) : Method (findOfferingId key)
  | offeringProcessors (target : Identity) : Method (offeringProcessors target)
  | offeredVariables (target offerer : Identity) : Method (offeredVariables target offerer)
  | findPairingKey (key : Key) : Method (findPairingKey key)
  | printDatabase (format : DumpFormat) : Method (printDatabase format)

variable {α : Type} {q : Inquiry α}

theorem Method.isRequest (method : q.Method) : q.request.kind.isRequest = true := by
  cases method with
  | call request asks => exact asks
  | _ => rfl

/-- Each question expects the kind of reply that its request gets. -/
theorem Method.read_ne_unexpected (method : q.Method) {reply : Signal}
    (kind : reply.kind = q.request.kind.answer) (expected actual : String) :
    q.read reply ≠ .error (.unexpectedReply expected actual) := by
  intro failed
  cases method with
  | call => simp [plain] at failed
  | register =>
    cases reply <;> cases kind
    rename_i yes
    cases yes <;> cases failed
  | getValue | assignValue =>
    cases reply <;> cases kind
    simp only [Inquiry.getValue, Inquiry.assignValue] at failed
    split at failed <;> cases failed
  | _ =>
    cases reply <;> cases kind
    cases failed

/-- A question on its way: the request is encoded, decoded and handled for a connection, and the
reply is encoded, decoded and read. -/
def consult (q : Inquiry α) (b : Broker) (conn : ConnId) : Except Fault α := do
  let request ← Signal.decode (← q.request.encode)
  let reply ← Signal.decode (← (b.dispatch conn request).1.encode)
  q.read (← orRemote reply)

theorem orRemote_of_answer {k : Signal.Kind} (asks : k.isRequest = true) {reply : Signal}
    (kind : reply.kind = k.answer) : orRemote reply = .ok reply := by
  cases reply with
  | error => cases k <;> cases kind <;> cases asks
  | _ => rfl

theorem single_of_isRequest {k : Signal.Kind} (asks : k.isRequest = true) :
    k ≠ .offeredVarsAre := by
  rintro rfl
  cases asks

/-- A question whose request and reply can be encoded reads the broker's reply. -/
theorem consult_eq {b : Broker} {conn : ConnId} (asks : q.request.kind.isRequest = true)
    (asked : ∃ bs, q.request.encode = .ok bs)
    (answered : ∃ bs, (b.dispatch conn q.request).1.encode = .ok bs) :
    q.consult b conn = q.read (b.dispatch conn q.request).1 := by
  obtain ⟨sent, asked⟩ := asked
  obtain ⟨payload, answered⟩ := answered
  have decoded := Signal.decode_of_encode (single_of_isRequest asks) asked
  have replied := Signal.decode_of_encode_echo answered
  rw [b.echo_dispatch] at replied
  have clean := orRemote_of_answer asks (b.kind_dispatch conn q.request)
  simp only [consult, asked, decoded, answered, replied, clean, bind, Except.bind]

theorem consult_of_encode (b : Broker) (conn : ConnId) (asks : q.request.kind.isRequest = true)
    (asked : q.request.kind.layout.all (·.form.isFixed) = true)
    (answered : ∃ bs, (b.dispatch conn q.request).1.encode = .ok bs) :
    q.consult b conn = q.read (b.dispatch conn q.request).1 :=
  consult_eq asks (q.request.encode_ok_iff.mpr (Signal.fits_of_isFixed asked)) answered

theorem consult_of_isFixed (b : Broker) (conn : ConnId) (asks : q.request.kind.isRequest = true)
    (asked : q.request.kind.layout.all (·.form.isFixed) = true)
    (answered : q.request.kind.answer.layout.all (·.form.isFixed) = true) :
    q.consult b conn = q.read (b.dispatch conn q.request).1 := by
  apply consult_of_encode b conn asks asked
  apply (Signal.encode_ok_iff _).mpr
  apply Signal.fits_of_isFixed
  rw [b.kind_dispatch]
  exact answered

end Inquiry

/-- The calls of a client that is in step are questions on their way. -/
theorem Service.InStep.consult {α : Type} {q : Inquiry α} {s : Service} {conn : ConnId}
    {c : Client} (inStep : s.InStep conn c.link) (live : (s.broker.roster.get? conn).isSome)
    (method : q.Method) (asked : ∃ bs, q.request.encode = .ok bs)
    (answered : ∃ bs, (s.broker.dispatch conn q.request).1.encode = .ok bs) :
    ∃ t after, Client.ask (peer (some conn)) q (s, c) = (q.consult s.broker conn, t, after) ∧
      t.broker = (s.broker.step (.request conn q.request)).1 ∧ t.InStep conn after.link := by
  have asks := method.isRequest
  have consulted := Inquiry.consult_eq asks asked answered
  obtain ⟨sent, asked⟩ := asked
  obtain ⟨payload, answered⟩ := answered
  obtain ⟨t, after, told, handled, again⟩ :=
    inStep.ask live (Inquiry.single_of_isRequest asks) asked answered
  refine ⟨t, after, ?_, handled, again⟩
  rw [told, consulted, s.broker.echo_dispatch,
    Inquiry.orRemote_of_answer asks (s.broker.kind_dispatch conn q.request)]
  rfl

theorem Key.isNull_of_ne {key : Key} (other : key ≠ .null) : key.isNull = false := by
  rw [isNull, beq_eq_false_iff_ne]
  intro zero
  exact other (congrArg Key.mk zero)

namespace Table

variable {t : Table}

theorem key_ne_null_of_run (capacity : Option Nat) (ops : List Operation) :
    ∀ r ∈ ((new capacity).performAll ops).records, r.key ≠ .null := by
  intro r mem
  have logged := List.mem_of_getElem? ((chronicled_run capacity ops).created r mem)
  exact (supply_performAll (new capacity) ops).key_ne_null logged

/-- Whoever has made an offer was a processor, which the unused identity never is. -/
def Offered (t : Table) : Prop := ∀ r ∈ t.records, r.offering.id.isNobody = false

theorem Offered.perform (offered : t.Offered) (sound : t.Sound) {op : Operation}
    (new : ∀ r, t.newcomer? op = some r → r.offering.id.isNobody = false) :
    (t.perform op).Offered := by
  intro s mem
  rcases (mem_perform sound).mp mem with ⟨r, before, left⟩ | joins
  · rw [(sameOrigin_of_fate left).offerer]
    exact offered r before
  · exact new s joins

theorem offerer_of_newcomer {name : Name} {wanted requester : Identity} {conn : ConnId}
    {r : Record} (new : t.newcomer? (.matchOrMake name wanted requester conn) = some r) :
    r.offering.id = requester := by
  simp only [newcomer?, offer?, Option.ite_none_right_eq_some, Option.ite_none_left_eq_some,
    Option.some.injEq] at new
  obtain ⟨-, -, rfl⟩ := new
  rfl

theorem mem_of_pairingKey? {key pairing : Key} (found : t.pairingKey? key = some pairing) :
    ∃ r ∈ t.records, r.key = pairing := by
  simp only [pairingKey?, Option.bind_eq_bind, Option.bind_eq_some_iff] at found
  obtain ⟨_, -, _, -, r, oldest, same⟩ := found
  exact ⟨r, (oldestIn_some oldest).1, Option.some.inj same⟩

end Table

namespace Broker

variable {b : Broker} {conn : ConnId}

theorem Departs.offered {last : Broker} {pending : List ConnId} {posts : List Post}
    (departs : Departs b pending last posts) (sound : b.table.Sound) (offered : b.table.Offered) :
    last.table.Offered := by
  induction departs with
  | done => exact offered
  | absent _ _ ih => exact ih sound offered
  | plain _ _ _ ih => exact ih sound offered
  | @processor b _ conn _ _ _ _ _ _ _ _ _ ih =>
    have kept : (b.table.perform (.disconnect conn)).Offered :=
      offered.perform sound fun r new => by simp [Table.newcomer?] at new
    exact ih (sound.perform (.disconnect conn)) kept

theorem Upkept.offered_step (upkept : b.Upkept []) (offered : b.table.Offered)
    (event : Occurrence) :
    (b.step event).1.table.Offered := by
  cases event with
  | connected | malformed => exact offered
  | request conn request =>
    simp only [Broker.step, dispatch_broker]
    rcases handle_enacts upkept.sound conn request with same | ⟨op, enacts, done⟩
    · rw [same]
      exact offered
    · rw [done]
      apply offered.perform upkept.sound
      intro r new
      cases enacts with
      | share acts =>
        rw [Table.offerer_of_newcomer new]
        exact (upkept.agrees.proper _ _ (upkept.agrees.listed acts)).1
      | _ => simp [Table.newcomer?] at new
  | disconnected conn => exact (depart_departs b [conn]).offered upkept.sound offered

theorem Upkept.offered_run (upkept : b.Upkept []) (offered : b.table.Offered)
    {events : List Occurrence} (fresh : b.Fresh events) : (b.run events).1.table.Offered := by
  induction events generalizing b with
  | nil => exact offered
  | cons event rest ih =>
    exact ih (upkept.step fresh.first) (upkept.offered_step offered event) fresh.step

/-- The processor of a connection holds an active side of a variable that has a value. -/
def Reads (b : Broker) (conn : ConnId) (key : Key) (payload : Octets) : Prop :=
  ∃ id r side, b.roster.identityOf? conn = some id ∧ b.table.get? key = some r ∧
    (r.partner side).id = id ∧
    (r.partner side).isActive = true ∧ r.value = some payload

theorem held_iff (sound : b.table.Sound) {key : Key} {r : Record} {side : Side} :
    b.held conn key = .ok (r, side) ↔
      ∃ id, b.roster.identityOf? conn = some id ∧ b.table.get? key = some r ∧
      (r.partner side).id = id ∧ (r.partner side).isActive = true := by
  constructor
  · intro holds
    obtain ⟨id, acts, held⟩ := held_ok holds
    exact ⟨id, caller_ok acts, Table.activePartnerOf_ok held⟩
  · rintro ⟨id, acts, found, plays, active⟩
    have own := (sound.records r (Table.mem_of_get? found)).activeSideOf?_iff.mpr ⟨plays, active⟩
    simp [held, caller, acts, Table.activePartnerOf_of_get? found, own]

theorem getValue_ok_iff (sound : b.table.Sound) {key : Key} {reply : Signal} :
    b.getValue conn key = .ok reply ↔
      ∃ payload, reply = .valueIs key 0 "" payload ∧ b.Reads conn key payload := by
  constructor
  · intro answered
    unfold getValue at answered
    split at answered
    · simp at answered
    · rename_i r side holds
      split at answered
      · rename_i payload stored
        obtain ⟨id, acts, found, plays, active⟩ := (held_iff sound).mp holds
        exact ⟨payload, (Except.ok.inj answered).symm, id, r, side, acts, found,
          plays, active, stored⟩
      · simp at answered
  · rintro ⟨payload, rfl, id, r, side, acts, found, plays, active, stored⟩
    have holds := (held_iff sound).mpr ⟨id, acts, found, plays, active⟩
    simp [getValue, holds, stored]

theorem code_of_held {key : Key} {fault : Fault} (failed : b.held conn key = .error fault) :
    fault.code = Fault.unknownKeyCode ∨ fault.code = Fault.identityCode := by
  unfold held at failed
  split at failed
  · rename_i unregistered
    unfold caller at unregistered
    split at unregistered
    · simp at unregistered
    · obtain rfl := Except.error.inj unregistered
      obtain rfl := Except.error.inj failed
      exact .inr rfl
  · rename_i id acts
    cases found : b.table.get? key with
    | none =>
      simp only [Table.activePartnerOf, Table.partnerOf, found] at failed
      obtain rfl := Except.error.inj failed
      exact .inl rfl
    | some r =>
      rw [Table.activePartnerOf_of_get? found] at failed
      split at failed
      · simp at failed
      · obtain rfl := Except.error.inj failed
        exact .inr rfl

theorem code_of_getValue {key : Key} {fault : Fault} (failed : b.getValue conn key = .error fault) :
    fault.code ∈ [Fault.unknownKeyCode, Fault.identityCode, Fault.noValueCode] := by
  unfold getValue at failed
  split at failed
  · rename_i refused
    obtain rfl := Except.error.inj failed
    rcases code_of_held refused with unknown | identity
    · simp [unknown]
    · simp [identity]
  · split at failed
    · simp at failed
    · obtain rfl := Except.error.inj failed
      simp [Fault.code]

theorem consult_getEvents (keyed : ∀ r ∈ b.table.records, r.key ≠ .null) (conn : ConnId)
    (id : Identity) :
    (Inquiry.getEvents id).consult b conn = .ok (b.table.events? id) := by
  have reads := Inquiry.consult_of_isFixed (q := .getEvents id) b conn rfl rfl rfl
  rw [reads]
  cases found : b.table.events? id with
  | none => simp [Inquiry.getEvents, dispatch, handle, found, answer, settle, Key.isNull, Key.null]
  | some pair =>
    obtain ⟨r, oldest, rfl⟩ := Option.map_eq_some_iff.mp found
    have real := Key.isNull_of_ne (keyed r (Table.oldestIn_some oldest).1)
    simp [Inquiry.getEvents, dispatch, handle, found, answer, settle, real]

theorem consult_findOfferingId (offered : b.table.Offered) (conn : ConnId) (key : Key) :
    (Inquiry.findOfferingId key).consult b conn = .ok (b.table.offererOf? key) := by
  have reads := Inquiry.consult_of_isFixed (q := .findOfferingId key) b conn rfl rfl rfl
  rw [reads]
  cases found : b.table.get? key with
  | none =>
    simp [Inquiry.findOfferingId, dispatch, handle, settle, record, found,
      Except.map, Table.offererOf?,
      Signal.refusal, Signal.kind, Identity.isNobody, Identity.nobody]
  | some r =>
    have real := offered r (Table.mem_of_get? found)
    simp [Inquiry.findOfferingId, dispatch, handle, settle, record, found, Except.map,
      Table.offererOf?, real]

theorem consult_findPairingKey (keyed : ∀ r ∈ b.table.records, r.key ≠ .null) (conn : ConnId)
    (key : Key) :
    (Inquiry.findPairingKey key).consult b conn = .ok (b.table.pairingKey? key) := by
  have reads := Inquiry.consult_of_isFixed (q := .findPairingKey key) b conn rfl rfl rfl
  rw [reads]
  cases found : b.table.pairingKey? key with
  | none =>
    simp [Inquiry.findPairingKey, dispatch, handle, found, answer, settle, Key.isNull, Key.null]
  | some pairing =>
    obtain ⟨r, mem, rfl⟩ := Table.mem_of_pairingKey? found
    have real := Key.isNull_of_ne (keyed r mem)
    simp [Inquiry.findPairingKey, dispatch, handle, found, answer, settle, real]

theorem consult_of_reads (sound : b.table.Sound) {key : Key} {payload : Octets}
    (reads : b.Reads conn key payload)
    (answered : ∃ bs, (b.dispatch conn (.getValue key)).1.encode = .ok bs) :
    (Inquiry.getValue key).consult b conn = .ok payload := by
  have told := Inquiry.consult_of_encode (q := .getValue key) b conn rfl rfl answered
  have outcome := (getValue_ok_iff sound).mpr ⟨payload, rfl, reads⟩
  rw [told]
  simp [Inquiry.getValue, dispatch, handle, settle, outcome]

/-- A refusal bears the code of its fault, which is never the code of success. -/
theorem consult_of_not_reads (sound : b.table.Sound) {key : Key}
    (none : ∀ payload, ¬ b.Reads conn key payload) :
    ∃ code ∈ [Fault.unknownKeyCode, Fault.identityCode, Fault.noValueCode],
      (Inquiry.getValue key).consult b conn = .error (.remote code Signal.Kind.getValue.name) := by
  cases outcome : b.getValue conn key with
  | ok reply =>
    obtain ⟨payload, -, reads⟩ := (getValue_ok_iff sound).mp outcome
    exact absurd reads (none payload)
  | error fault =>
    have code := code_of_getValue outcome
    have failing : fault.code ≠ 0 := by
      intro zero
      rw [zero] at code
      exact absurd code (by decide)
    have refused : (b.dispatch conn (.getValue key)).1 = .refusal .getValue key fault := by
      simp [dispatch, handle, settle, outcome, Signal.kind, Signal.subject]
    have fits := (Signal.encode_ok_iff _).mpr (Signal.fits_refusal .getValue key fault)
    have told := Inquiry.consult_of_encode (q := .getValue key) b conn rfl rfl (refused ▸ fits)
    refine ⟨fault.code, code, told.trans ?_⟩
    show (Inquiry.getValue key).read (b.dispatch conn (.getValue key)).1 = _
    rw [refused]
    exact if_neg failing

/-- What a client on a connection is told: the reply of the broker, of the kind that it expects; and
of the table, what the table holds. -/
structure Reported (b : Broker) (conn : ConnId) : Prop where
  expected : ∀ {α : Type} {q : Inquiry α}, q.Method → (∃ bs, q.request.encode = .ok bs) →
    (∃ bs, (b.dispatch conn q.request).1.encode = .ok bs) →
      (b.dispatch conn q.request).1.kind = q.request.kind.answer ∧
      (∀ key, (b.dispatch conn q.request).1.topic? = some key → key = q.request.subject) ∧
      q.consult b conn = q.read (b.dispatch conn q.request).1 ∧
      ∀ expected actual, q.consult b conn ≠ .error (.unexpectedReply expected actual)
  events : ∀ id, (Inquiry.getEvents id).consult b conn = .ok (b.table.events? id)
  offerer : ∀ key, (Inquiry.findOfferingId key).consult b conn = .ok (b.table.offererOf? key)
  pairing : ∀ key, (Inquiry.findPairingKey key).consult b conn = .ok (b.table.pairingKey? key)
  processors : ∀ target, (∃ bs, (b.dispatch conn (.getOfferingProcs target)).1.encode = .ok bs) →
    (Inquiry.offeringProcessors target).consult b conn = .ok (b.table.offeringProcessors target)
  names : ∀ target offerer,
    (∃ bs, (b.dispatch conn (.getOfferedVars target offerer)).1.encode = .ok bs) →
    (Inquiry.offeredVariables target offerer).consult b conn =
      .ok ((b.table.offeredVariables target offerer).map (·.text))
  value : ∀ key, (∃ bs, (b.dispatch conn (.getValue key)).1.encode = .ok bs) →
    ∀ payload, (Inquiry.getValue key).consult b conn = .ok payload ↔ b.Reads conn key payload
  refusal : ∀ key, (∀ payload, ¬ b.Reads conn key payload) →
    ∃ code ∈ [Fault.unknownKeyCode, Fault.identityCode, Fault.noValueCode],
      (Inquiry.getValue key).consult b conn = .error (.remote code Signal.Kind.getValue.name)

theorem reported (sound : b.table.Sound) (keyed : ∀ r ∈ b.table.records, r.key ≠ .null)
    (offered : b.table.Offered) (conn : ConnId) : b.Reported conn where
  expected := by
    intro α q method asked answered
    have kind := b.kind_dispatch conn q.request
    have reads := Inquiry.consult_eq method.isRequest asked answered
    refine ⟨kind, fun key => b.topic_dispatch conn q.request, reads, ?_⟩
    rw [reads]
    exact method.read_ne_unexpected kind
  events := consult_getEvents keyed conn
  offerer := consult_findOfferingId offered conn
  pairing := consult_findPairingKey keyed conn
  processors target answered :=
    Inquiry.consult_of_encode (q := .offeringProcessors target) b conn rfl rfl answered
  names target offerer answered :=
    Inquiry.consult_of_encode (q := .offeredVariables target offerer) b conn rfl rfl answered
  value key answered := by
    intro payload
    refine ⟨fun told => ?_, fun reads => consult_of_reads sound reads answered⟩
    by_cases any : ∃ stored, b.Reads conn key stored
    · obtain ⟨stored, reads⟩ := any
      obtain rfl := Except.ok.inj (told.symm.trans (consult_of_reads sound reads answered))
      exact reads
    · obtain ⟨code, -, refused⟩ := consult_of_not_reads sound (not_exists.mp any)
      simp [told] at refused
  refusal key := consult_of_not_reads sound

theorem reported_of_run (capacity : Option Nat) (wording : Wording) {events : List Occurrence}
    (distinct : (events.filterMap Occurrence.opened).Nodup) (conn : ConnId) :
    ((new capacity wording).run events).1.Reported conn := by
  have start := upkept_new capacity wording
  have none : (new capacity wording).table.Offered := fun r mem => by simp [new, Table.new] at mem
  obtain ⟨ops, performed⟩ := run_performs start.sound events
  refine reported (upkept_run capacity wording distinct).sound ?_ ?_ conn
  · rw [performed]
    exact Table.key_ne_null_of_run capacity ops
  · exact start.offered_run none (fresh_new capacity wording distinct)

/-- What clients are told is what the table holds. No answer is of an unexpected kind or about
another key, nothing is reported exactly where the table finds nothing, and a value is read exactly
by those who hold a side of it. Over a connection that is in step, the calls of a running client
come to the same, one after the other. -/
theorem client_told_table (capacity : Option Nat) (wording : Wording) (events : List Occurrence)
    (distinct : (events.filterMap Occurrence.opened).Nodup) :
    let b := ((new capacity wording).run events).1
    (∀ conn, b.Reported conn) ∧
    ∀ (s : Service) (conn : ConnId) (c : Client), s.broker = b → (b.roster.get? conn).isSome →
      s.InStep conn c.link →
      ∀ {α : Type} {q : Inquiry α}, q.Method → (∃ bs, q.request.encode = .ok bs) →
        (∃ bs, (b.dispatch conn q.request).1.encode = .ok bs) →
          ∃ t after, Client.ask (Service.peer (some conn)) q (s, c) = (q.consult b conn, t, after) ∧
            t.broker = (b.step (.request conn q.request)).1 ∧ t.InStep conn after.link := by
  intro b
  refine ⟨reported_of_run capacity wording distinct, ?_⟩
  intro s conn c at_b live inStep α q method asked answered
  rw [← at_b] at live answered ⊢
  exact inStep.consult live method asked answered

/-- A control variable that is coupled and has a value, and its data variable, which is only
offered. The partner reads the value and its event channel does not; a call of the partner passes
over the late reply to an earlier one. -/
theorem client_told_of_partner :
    let key : Key := .compose 2001 0
    let events : List Occurrence :=
      [.connected ⟨1⟩ "", .request ⟨1⟩ (.registerProcessor ⟨2001, 0, 0⟩ 7),
        .connected ⟨2⟩ "", .request ⟨2⟩ (.registerProcessor ⟨2002, 0, 0⟩ 8),
        .connected ⟨3⟩ "", .request ⟨3⟩ (.registerEventChannel ⟨2002, 0, 0⟩),
        .request ⟨1⟩ (.matchOrMake "CTLA" ⟨2002, 0, 0⟩ ⟨2001, 0, 0⟩),
        .request ⟨2⟩ (.matchOrMake "CTLA" ⟨2001, 0, 0⟩ ⟨2002, 0, 0⟩),
        .request ⟨1⟩ (.matchOrMake "DATA" ⟨2002, 0, 0⟩ ⟨2001, 0, 0⟩),
          .request ⟨1⟩ (.assignValue key [5])]
    let b := ((new none {}).run events).1
    let late : Letter := ⟨[0x80, 0x01, 1], .yesNo true, by decide, rfl⟩
    let s : Service := ⟨{}, {}, b, 3, [{ conn := ⟨2⟩, outbound := Letter.stream [late] }]⟩
    let c : Client := { Client.anonymous .standard with link := { peer := "", owed := 1 } }
    (∃ t after, Client.ask (Service.peer (some ⟨2⟩)) (.getValue key) (s, c) = (.ok [5], t, after)) ∧
      (∃ code, code ≠ 0 ∧ (Inquiry.getValue key).consult b ⟨3⟩ = .error (.remote code "GetValue")) ∧
      (Inquiry.findPairingKey key).consult b ⟨3⟩ = .ok (some (.compose 2001 1)) ∧
      (Inquiry.findPairingKey (.compose 2002 0)).consult b ⟨3⟩ = .ok none := by
  intro key events b late s c
  obtain ⟨reported, calls⟩ := client_told_table none {} events (by decide)
  have told : (b.dispatch ⟨2⟩ (.getValue key)).1 = .valueIs key 0 "" [5] := by decide +kernel
  have answered : ∃ bs, (b.dispatch ⟨2⟩ (.getValue key)).1.encode = .ok bs := by
    rw [told]
    exact ⟨_, rfl⟩
  have inStep : s.InStep ⟨2⟩ c.link := ⟨rfl, _, [late], rfl, rfl, rfl, rfl, rfl⟩
  obtain ⟨t, after, called, -⟩ :=
    calls s ⟨2⟩ c rfl (by decide +kernel) inStep (.getValue key) ⟨_, rfl⟩ answered
  have reads : b.Reads ⟨2⟩ key [5] := by
    have holds : (b.table.get? key).any (fun r =>
        r.accepting.id == ⟨2002, 0, 0⟩ && r.accepting.isActive && r.value == some [5]) = true := by
          decide +kernel
    simp only [Option.any_eq_true, Bool.and_eq_true, beq_iff_eq] at holds
    obtain ⟨r, found, ⟨plays, active⟩, stored⟩ := holds
    exact ⟨⟨2002, 0, 0⟩, r, .accepting, by decide +kernel, found, plays, active, stored⟩
  have silent : ∀ payload, ¬ b.Reads ⟨3⟩ key payload := by
    rintro payload ⟨id, -, -, acts, -⟩
    have none : b.roster.identityOf? ⟨3⟩ = none := by decide +kernel
    rw [none] at acts
    cases acts
  obtain ⟨code, mem, refused⟩ := (reported ⟨3⟩).refusal key silent
  have paired : b.table.pairingKey? key = some (.compose 2001 1) := by decide +kernel
  have alone : b.table.pairingKey? (.compose 2002 0) = none := by decide +kernel
  refine ⟨⟨t, after, ?_⟩, ⟨code, ?_, refused⟩, ?_, ?_⟩
  · rw [called, ((reported ⟨2⟩).value key answered [5]).mpr reads]
  · rintro rfl
    exact absurd mem (by decide)
  · rw [(reported ⟨3⟩).pairing key, paired]
  · rw [(reported ⟨3⟩).pairing (.compose 2002 0), alone]

end Broker
end SharedVariables
