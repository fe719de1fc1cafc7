import SharedVariables.Client

/-! What a client asks that reads and writes one variable, call after call. It is run on a list of
replies, and each of its requests is seen to follow from the exchange before it. -/
namespace SharedVariables

structure Exchange where
  request : Signal
  reply : Signal
deriving DecidableEq

/-- The replies that wait for a client, and its exchanges so far. -/
structure Tape where
  replies : List Signal
  exchanges : List Exchange := []
deriving DecidableEq

namespace Tape

/-- Takes the next reply for a request. With none left the client waits in vain, and the request
does not count. -/
def call (request : Signal) : Act Tape Signal
  | ⟨[], xs⟩ => (.error (.timeout Limits.replyTimeout), ⟨[], xs⟩)
  | ⟨reply :: rest, xs⟩ => (Inquiry.orRemote reply, ⟨rest, xs ++ [⟨request, reply⟩]⟩)

def ask {α : Type} (q : Inquiry α) : Act Tape α := (call q.request).refine q.read

def accessor : Accessor Tape where
  mayUse key attempt := ask (.mayUse key attempt)
  maySet key attempt := ask (.maySet key attempt)
  getValue key := ask (.getValue key)
  assignValue key payload := ask (.assignValue key payload)
  setState key used := ask (.setState key used)

end Tape

/-- How a call goes about its access: by which policy, what it runs on, and when it begins. -/
structure Terms extends Policy where
  runtime : Runtime := {}
  start : Duration := .zero

inductive Call where
  | read (terms : Terms)
  | write (payload : Octets) (terms : Terms)

namespace Call

def used : Call → Bool
  | read _ => true
  | write _ _ => false

/-- What a call ends with, and the payloads that it returns. -/
def run (key : Key) : Call → Tape → Ending (List Octets) × Tape
  | read terms, t =>
    let made := Tape.accessor.read terms.runtime key terms.toPolicy terms.start t
    (made.1.1.map fun value => [value], made.2)
  | write payload terms, t =>
    let made := Tape.accessor.write terms.runtime key payload terms.toPolicy terms.start t
    (made.1.1.map fun _ => [], made.2)

/-- The calls one after the other. One that fails is followed by the next all the same, one that
crashes is the last. -/
def runAll (key : Key) : List Call → Tape → List Octets × Tape
  | [], t => ([], t)
  | c :: rest, t =>
    match c.run key t with
    | (.crashed, t) => ([], t)
    | (.returned outcome, t) =>
      let (later, t) := runAll key rest t
      (outcome.toOption.getD [] ++ later, t)

/-- What the calls have returned when some exchanges have been made. -/
def returned (key : Key) (calls : List Call) (xs : List Exchange) : List Octets :=
  (runAll key calls ⟨xs.map (·.reply), []⟩).1

/-- With the replies of the exchanges, the calls make these exchanges. -/
def Conduct (key : Key) (calls : List Call) (xs : List Exchange) : Prop :=
  (runAll key calls ⟨xs.map (·.reply), []⟩).2.exchanges = xs

instance (key : Key) (calls : List Call) (xs : List Exchange) : Decidable (Conduct key calls xs) :=
  inferInstanceAs (Decidable (_ = _))

def check (key : Key) (attempt : UInt32) : Call → Inquiry Bool
  | read _ => .mayUse key attempt
  | write _ _ => .maySet key attempt

def act (key : Key) : Call → Signal
  | read _ => .getValue key
  | write payload _ => .assignValue key payload

/-- The payload that has been fetched or assigned, as the reply tells. -/
def moved : Call → Signal → Option Octets
  | read _, .valueIs _ code _ payload => if code = 0 then some payload else none
  | write payload _, .assignWas _ code _ => if code = 0 then some payload else none
  | _, _ => none

def yields (c : Call) (payload : Option Octets) :
    List Octets := if c.used then payload.toList else []

theorem yields_none (c : Call) : c.yields none = [] := by cases c <;> rfl

end Call

namespace Exchange

def assigned? : Exchange → Option Octets
  | ⟨.assignValue _ payload, _⟩ => some payload
  | _ => none

@[simp] theorem assigned?_check (c : Call) (key : Key) (attempt : UInt32) (reply : Signal) :
    assigned? ⟨(c.check key attempt).request, reply⟩ = none := by
  cases c <;> rfl

end Exchange

inductive Stage where
  | asking
  | permitted (call : Call)
  /-- The payload is fetched or assigned, and the access is not yet reported. -/
  | performed (call : Call) (payload : Octets)

namespace Stage

/-- One exchange of a client, with what it makes the current call return. -/
inductive Next (key : Key) (calls : List Call) : Stage → Exchange → Stage → List Octets → Prop where
  | refused {c : Call} {attempt : UInt32} {reply : Signal} (mem : c ∈ calls)
      (refusal : reply ≠ .yesNo true) :
      Next key calls .asking ⟨(c.check key attempt).request, reply⟩ .asking []
  | permitted {c : Call} {attempt : UInt32} (mem : c ∈ calls) :
      Next key calls .asking ⟨(c.check key attempt).request, .yesNo true⟩ (.permitted c) []
  | failed {c : Call} {reply : Signal} (none : c.moved reply = none) :
      Next key calls (.permitted c) ⟨c.act key, reply⟩ .asking []
  | performed {c : Call} {reply : Signal} {payload : Octets} (done : c.moved reply = some payload) :
      Next key calls (.permitted c) ⟨c.act key, reply⟩ (.performed c payload) []
  | reported {c : Call} {payload : Octets} {k : Key} {state : State} :
      Next key calls (.performed c payload) ⟨.setState key c.used, .stateIs k state⟩ .asking
        (c.yields (some payload))
  | unreported {c : Call} {payload : Octets} {reply : Signal}
      (other : ∀ k state, reply ≠ .stateIs k state) :
      Next key calls (.performed c payload) ⟨.setState key c.used, reply⟩ .asking []

end Stage

/-- The exchanges of a client that has come to a stage, and what its calls have returned. -/
inductive Course (key : Key) (calls : List Call) : List Exchange → Stage → List Octets → Prop where
  | start : Course key calls [] .asking []
  | next {xs : List Exchange} {x : Exchange} {s t : Stage} {returned more : List Octets}
      (before : Course key calls xs s returned) (next : s.Next key calls x t more) :
      Course key calls (xs ++ [x]) t (returned ++ more)

theorem Course.silent {key : Key} {calls : List Call} {xs : List Exchange} {x : Exchange}
    {s t : Stage} {returned : List Octets} (before : Course key calls xs s returned)
    (next : s.Next key calls x t []) :
    Course key calls (xs ++ [x]) t returned := by
  have course := before.next next
  rwa [List.append_nil] at course

theorem Course.of_nil {key : Key} {calls : List Call} {s : Stage} {returned : List Octets}
    (course : Course key calls [] s returned) : s = .asking ∧ returned = [] := by
  generalize none : [] = xs at course
  cases course with
  | start => exact ⟨rfl, rfl⟩
  | next => simp at none

theorem Course.of_append {key : Key} {calls : List Call} {xs : List Exchange} {x : Exchange}
    {t : Stage} {total : List Octets} (course : Course key calls (xs ++ [x]) t total) :
    ∃ s returned more, Course key calls xs s returned ∧ s.Next key calls x t more ∧
      total = returned ++ more := by
  generalize whole : xs ++ [x] = ys at course
  cases course with
  | start => simp at whole
  | next before next =>
    obtain ⟨rfl, last⟩ := List.append_inj' whole rfl
    obtain rfl := List.head_eq_of_cons_eq last
    exact ⟨_, _, _, before, next, rfl⟩

namespace Tape

variable {key : Key} {calls : List Call} {returned : List Octets} {t : Tape}

/-- The exchanges are a course. Between two calls the client asks, unless it has no replies left. -/
def Follows (key : Key) (calls : List Call) (returned : List Octets) (t : Tape) : Prop :=
  ∃ stage, Course key calls t.exchanges stage returned ∧ (stage = .asking ∨ t.replies = [])

theorem ask_cases {α : Type} (q : Inquiry α) (t : Tape) :
    (t.replies = [] ∧ ∃ e, ask q t = (.error e, t)) ∨
      ∃ reply rest, t.replies = reply :: rest ∧
        ask q t = ((Inquiry.orRemote reply).bind q.read,
          ⟨rest, t.exchanges ++ [⟨q.request, reply⟩]⟩) := by
  obtain ⟨replies, xs⟩ := t
  cases replies with
  | nil => exact .inl ⟨rfl, _, rfl⟩
  | cons reply rest => exact .inr ⟨reply, rest, rfl, rfl⟩

theorem Follows.asking {reply : Signal} {rest : List Signal}
    (follows : Follows key calls returned t) (waits : t.replies = reply :: rest) :
    Course key calls t.exchanges .asking returned := by
  obtain ⟨stage, course, rfl | none⟩ := follows
  · exact course
  · simp [waits] at none

theorem read_check (c : Call) (key : Key) (attempt : UInt32) (reply : Signal) :
    (Inquiry.orRemote reply).bind (c.check key attempt).read = .ok true ↔ reply = .yesNo true := by
  cases c <;> cases reply <;>
    simp [Call.check, Inquiry.mayUse, Inquiry.maySet, Inquiry.yesNo, Inquiry.orRemote,
      Inquiry.unexpected, Except.bind]

theorem Follows.check {c : Call} (mem : c ∈ calls) (attempt : UInt32)
    (follows : Follows key calls returned t) :
    (∃ u, ask (c.check key attempt) t = (.ok true, u) ∧
      Course key calls u.exchanges (.permitted c) returned) ∨
    ∃ outcome u, ask (c.check key attempt) t = (outcome, u) ∧
      ((∃ e, outcome = .error e) ∨ outcome = .ok false) ∧ Follows key calls returned u := by
  rcases ask_cases (c.check key attempt) t with ⟨-, e, asked⟩ | ⟨reply, rest, waits, asked⟩
  · exact .inr ⟨_, _, asked, .inl ⟨e, rfl⟩, follows⟩
  · have course := follows.asking waits
    by_cases permitted : reply = .yesNo true
    · subst reply
      rw [(read_check _ _ _ _).mpr rfl] at asked
      exact .inl ⟨_, asked, course.silent (.permitted mem)⟩
    · refine .inr ⟨_, _, asked, ?_, .asking, course.silent (.refused mem permitted), .inl rfl⟩
      cases outcome : (Inquiry.orRemote reply).bind (c.check key attempt).read with
      | error e => exact .inl ⟨e, rfl⟩
      | ok answer =>
        cases answer with
        | false => exact .inr rfl
        | true => exact absurd ((read_check _ _ _ _).mp outcome) permitted

theorem Follows.waitFrom {c : Call} (mem : c ∈ calls) (runtime : Runtime) (policy : Policy)
    (deadline : Duration) (left : Nat) (attempt : UInt32) (now : Duration)
    (follows : Follows key calls returned t) :
    let waited := Accessor.waitFrom runtime (fun n => ask (c.check key n)) (fun _ t => t) key policy
      deadline left attempt now t
    (waited.1.1 = .returned (.ok ()) ∧
      Course key calls waited.2.exchanges (.permitted c) returned) ∨
      (waited.1.1.toOption = none ∧ Follows key calls returned waited.2) := by
  -- Each check but a permitted one leaves the client where it was, with one exchange more.
  induction left generalizing attempt now t with
  | zero =>
    rw [Accessor.waitFrom]
    rcases follows.check mem attempt with ⟨u, asked, course⟩ | ⟨outcome, u, asked, refused, still⟩
    · rw [asked]
      exact .inl ⟨rfl, course⟩
    · rw [asked]
      rcases refused with ⟨e, rfl⟩ | rfl <;> exact .inr ⟨rfl, still⟩
  | succ left ih =>
    rw [Accessor.waitFrom]
    rcases follows.check mem attempt with ⟨u, asked, course⟩ | ⟨outcome, u, asked, refused, still⟩
    · rw [asked]
      exact .inl ⟨rfl, course⟩
    · rw [asked]
      rcases refused with ⟨e, rfl⟩ | rfl
      · exact .inr ⟨rfl, still⟩
      · simp only
        split
        · exact .inr ⟨rfl, still⟩
        · exact ih _ _ still

theorem Follows.waitFor {c : Call} (mem : c ∈ calls) (runtime : Runtime) (policy : Policy)
    (start : Duration) (follows : Follows key calls returned t) :
    let waited := Accessor.waitFor runtime (fun n => ask (c.check key n))
      (fun _ t => t) key policy start t
    (waited.1.1 = .returned (.ok ()) ∧
      Course key calls waited.2.exchanges (.permitted c) returned) ∨
      (waited.1.1.toOption = none ∧ Follows key calls returned waited.2) := by
  rw [Accessor.waitFor]
  split
  · exact follows.waitFrom mem runtime policy _ _ _ _
  · exact .inr ⟨rfl, follows⟩

theorem read_setState (key : Key) (used : Bool) (reply : Signal) :
    (∃ k state, reply = .stateIs k state ∧
      (Inquiry.orRemote reply).bind (Inquiry.setState key used).read = .ok state) ∨
      ((∀ k state, reply ≠ .stateIs k state) ∧
        ∃ e, (Inquiry.orRemote reply).bind (Inquiry.setState key used).read = .error e) := by
  cases reply with
  | stateIs k state => exact .inl ⟨k, state, rfl, rfl⟩
  | _ => exact .inr ⟨by simp, _, rfl⟩

theorem Follows.report {α : Type} {c : Call} {payload : Octets} (a : α)
    (course : Course key calls t.exchanges (.performed c payload) returned) :
    let reported := (ask (.setState key c.used)).refine (fun _ => .ok a) t
    ((∃ e, reported.1 = .error e) ∧ Follows key calls returned reported.2) ∨
      (reported.1 = .ok a ∧
        Follows key calls (returned ++ c.yields (some payload)) reported.2) := by
  simp only [Act.refine]
  rcases ask_cases (.setState key c.used) t with ⟨none, e, asked⟩ | ⟨reply, rest, -, asked⟩
  · rw [asked]
    exact .inl ⟨⟨e, rfl⟩, _, course, .inr none⟩
  · rw [asked]
    rcases read_setState key c.used reply with ⟨k, state, rfl, read⟩ | ⟨other, e, read⟩
    · rw [read]
      exact .inr ⟨rfl, .asking, course.next .reported, .inl rfl⟩
    · rw [read]
      exact .inl ⟨⟨e, rfl⟩, .asking, course.silent (.unreported other), .inl rfl⟩

/-- What is done once an access is permitted: the value is moved by a question `q`, and then the
access is reported. -/
theorem Follows.perform {α : Type} {c : Call} {q : Inquiry α} {payload : α → Octets}
    (request : q.request = c.act key)
    (reads : ∀ reply, ((Inquiry.orRemote reply).bind q.read).toOption.map payload = c.moved reply)
    (course : Course key calls t.exchanges (.permitted c) returned) :
    let performed := (ask q).andThen (fun a => (ask (.setState key c.used)).refine fun _ => .ok a) t
    Follows key calls (returned ++ c.yields (performed.1.toOption.map payload)) performed.2 := by
  simp only [Act.andThen]
  rcases ask_cases q t with ⟨none, e, asked⟩ | ⟨reply, rest, -, asked⟩
  · rw [asked]
    simp only [Except.toOption, Option.map_none, Call.yields_none, List.append_nil]
    exact ⟨_, course, .inr none⟩
  · have moved := reads reply
    rw [asked, request]
    cases outcome : (Inquiry.orRemote reply).bind q.read with
    | error e =>
      simp only [outcome, Except.toOption, Option.map_none] at moved
      simp only [Except.toOption, Option.map_none, Call.yields_none, List.append_nil]
      exact ⟨.asking, course.silent (.failed moved.symm), .inl rfl⟩
    | ok a =>
      simp only [outcome, Except.toOption, Option.map_some] at moved
      simp only
      rcases Follows.report (t := ⟨rest, _⟩) a (course.silent (.performed moved.symm)) with
        ⟨⟨e, failed⟩, follows⟩ | ⟨done, follows⟩
      · simp only [failed, Except.toOption, Option.map_none, Call.yields_none, List.append_nil]
        exact follows
      · simp only [done, Except.toOption, Option.map_some]
        exact follows

theorem Follows.access {α : Type} {c : Call} (mem : c ∈ calls) (runtime : Runtime) (policy : Policy)
    (start : Duration) {q : Inquiry α} {payload : α → Octets} (request : q.request = c.act key)
    (reads : ∀ reply, ((Inquiry.orRemote reply).bind q.read).toOption.map payload = c.moved reply)
    (follows : Follows key calls returned t) :
    let access := Accessor.whenPermitted runtime (fun n => ask (c.check key n))
      (fun _ t => t) key policy
      ((ask q).andThen fun a => (ask (.setState key c.used)).refine fun _ => .ok a) start t
    Follows key calls (returned ++ c.yields (access.1.1.toOption.map payload)) access.2 := by
  have waited := follows.waitFor mem runtime policy start
  simp only [Accessor.whenPermitted]
  generalize Accessor.waitFor runtime (fun n => ask (c.check key n)) (fun _ t => t)
    key policy start t = w
    at waited ⊢
  obtain ⟨⟨ending, now⟩, u⟩ := w
  rcases waited with ⟨rfl, course⟩ | ⟨failed, still⟩
  · exact Follows.perform request reads course
  · match ending, failed with
    | .crashed, _ | .returned (.error _), _ =>
      simp only [Ending.toOption, Except.toOption, Option.map_none,
        Call.yields_none, List.append_nil]
      exact still

end Tape

namespace Call

variable {key : Key} {calls : List Call} {returned : List Octets} {t : Tape}

theorem payloads_map_singleton (e : Ending Octets) :
    (e.map fun value => [value]).toOption.getD [] = e.toOption.toList := by
  rcases e with (_ | _) | _ <;> rfl

theorem payloads_map_nil (e : Ending Unit) :
    (e.map fun _ => ([] : List Octets)).toOption.getD [] = [] := by
  rcases e with (_ | _) | _ <;> rfl

theorem follows_run {c : Call} (mem : c ∈ calls) (follows : t.Follows key calls returned) :
    (c.run key t).2.Follows key calls (returned ++ (c.run key t).1.toOption.getD []) := by
  cases c with
  | read terms =>
    have reads : ∀ reply,
      ((Inquiry.orRemote reply).bind (Inquiry.getValue key).read).toOption.map id =
        (read terms).moved reply := by
      intro reply
      cases reply with
      | valueIs k code location payload =>
        by_cases fine : code = 0 <;>
          simp [Inquiry.orRemote, Inquiry.getValue, moved, Except.bind, Except.toOption, fine]
      | _ => rfl
    have after := follows.access mem terms.runtime terms.toPolicy terms.start
      (q := .getValue key) rfl reads
    simp only [yields, used, Option.map_id, id_eq, if_true] at after
    rw [run, payloads_map_singleton]
    exact after
  | write payload terms =>
    have reads : ∀ reply,
      ((Inquiry.orRemote reply).bind (Inquiry.assignValue key payload).read).toOption.map
        (fun _ => payload) = (write payload terms).moved reply := by
      intro reply
      cases reply with
      | assignWas k code location =>
        by_cases fine : code = 0 <;>
          simp [Inquiry.orRemote, Inquiry.assignValue, moved, Except.bind, Except.toOption, fine]
      | _ => rfl
    have after := follows.access mem terms.runtime terms.toPolicy terms.start
      (q := .assignValue key payload)
      rfl reads
    simp only [yields, used, Bool.false_eq_true, if_false] at after
    rw [run, payloads_map_nil]
    exact after

theorem follows_runAll {cs : List Call} (sub : ∀ c ∈ cs, c ∈ calls)
    (follows : t.Follows key calls returned) :
    (runAll key cs t).2.Follows key calls (returned ++ (runAll key cs t).1) := by
  induction cs generalizing t returned with
  | nil => simpa [runAll] using follows
  | cons c rest ih =>
    have first := follows_run (sub c List.mem_cons_self) follows
    rw [runAll]
    generalize c.run key t = made at first ⊢
    obtain ⟨ending, u⟩ := made
    cases ending with
    | crashed => exact first
    | returned outcome =>
      have later := ih (fun c mem => sub c (List.mem_cons_of_mem _ mem)) first
      rw [List.append_assoc] at later
      exact later

theorem Conduct.course {xs : List Exchange} (conduct : Conduct key calls xs) :
    ∃ stage, Course key calls xs stage (Call.returned key calls xs) := by
  have start : (⟨xs.map (·.reply), []⟩ : Tape).Follows key calls [] := ⟨.asking, .start, .inl rfl⟩
  obtain ⟨stage, course, -⟩ := follows_runAll (fun _ mem => mem) start
  rw [conduct] at course
  exact ⟨stage, course⟩

end Call
end SharedVariables
