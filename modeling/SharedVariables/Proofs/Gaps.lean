import SharedVariables.Proofs.Refusals

/-! What the far end of a connection receives of the signals that the broker tries to send it.
Nothing is reordered, and what is queued arrives; but a queue that has dropped a signal goes on
taking others once there is room, so the far end sees a hole as soon as it takes one signal more
than had been queued before the first drop. -/
namespace SharedVariables

/-- The signals tried on a connection, in order, each with whether it was queued. -/
abbrev Trials := List (Signal × Bool)

namespace Trials

def signals (tried : Trials) : List Signal := tried.map (·.1)

def queued (tried : Trials) : List Signal := signals (tried.filter (·.2))

/-- The trials before the first signal that was dropped. -/
def unbroken (tried : Trials) : Trials := tried.takeWhile (·.2)

/-- Of the first `taken` signals that were queued, none was tried after a signal that was
dropped. -/
def Gapless (tried : Trials) (taken : Nat) : Prop :=
  ∀ before dropped between later after,
    tried = before ++ (dropped, false) :: between ++ (later, true) :: after →
      taken ≤ (queued (before ++ (dropped, false) :: between)).length

theorem queued_append (tried more : Trials) :
    queued (tried ++ more) = queued tried ++ queued more := by
  simp [queued, signals]

theorem queued_dropped (dropped : Signal) (tried : Trials) :
    queued ((dropped, false) :: tried) = queued tried := by
  simp [queued]

theorem queued_unbroken (tried : Trials) : queued (unbroken tried) = signals (unbroken tried) := by
  have all : (unbroken tried).filter (·.2) = unbroken tried := by
    apply List.filter_eq_self.mpr
    exact List.all_eq_true.mp List.all_takeWhile
  rw [queued, all]

theorem unbroken_append_dropped (before : Trials) (dropped : Signal) (rest : Trials) :
    unbroken (before ++ (dropped, false) :: rest) = unbroken before := by
  induction before with
  | nil => rfl
  | cons trial before ih =>
    obtain ⟨signal, kept⟩ := trial
    cases kept with
    | false => rfl
    | true => exact congrArg ((signal, true) :: ·) ih

theorem unbroken_split (tried : Trials) :
    unbroken tried = tried ∨ ∃ dropped rest,
      tried = unbroken tried ++ (dropped, false) :: rest := by
  induction tried with
  | nil => exact .inl rfl
  | cons trial tried ih =>
    obtain ⟨signal, kept⟩ := trial
    cases kept with
    | false => exact .inr ⟨signal, tried, rfl⟩
    | true =>
      rcases ih with all | ⟨dropped, rest, split⟩
      · exact .inl (congrArg ((signal, true) :: ·) all)
      · exact .inr ⟨dropped, rest, congrArg ((signal, true) :: ·) split⟩

theorem unbroken_prefix_append (tried more : Trials) :
    unbroken tried <+: unbroken (tried ++ more) := by
  induction tried with
  | nil => exact List.nil_prefix
  | cons trial tried ih =>
    obtain ⟨signal, kept⟩ := trial
    cases kept with
    | false => exact List.nil_prefix
    | true => exact (List.prefix_cons_inj _).mpr ih

theorem signals_unbroken_prefix_queued (tried : Trials) :
    signals (unbroken tried) <+: queued tried := by
  obtain ⟨rest, split⟩ : unbroken tried <+: tried := List.takeWhile_prefix _
  refine ⟨queued rest, ?_⟩
  rw [← queued_unbroken, ← queued_append, split]

theorem signals_unbroken_prefix (tried : Trials) : signals (unbroken tried) <+: signals tried :=
  (List.takeWhile_prefix _).map _

theorem first_queued (tried : Trials) (some : queued tried ≠ []) :
    ∃ between later after, tried = between ++ (later, true) :: after ∧ queued between = [] := by
  induction tried with
  | nil => exact absurd rfl some
  | cons trial tried ih =>
    obtain ⟨signal, kept⟩ := trial
    cases kept with
    | true => exact ⟨[], signal, tried, rfl, rfl⟩
    | false =>
      obtain ⟨between, later, after, rfl, none⟩ := ih (queued_dropped signal tried ▸ some)
      exact ⟨(signal, false) :: between, later, after, rfl,
        (queued_dropped signal between).trans none⟩

theorem gapless_iff {tried : Trials} {taken : Nat} (enough : taken ≤ (queued tried).length) :
    tried.Gapless taken ↔ taken ≤ (unbroken tried).length := by
  have length : ∀ tried, (queued (unbroken tried)).length = (unbroken tried).length := by
    intro tried
    rw [queued_unbroken, signals, List.length_map]
  constructor
  · intro gapless
    rcases unbroken_split tried with all | ⟨dropped, rest, split⟩
    · rw [← length, all]
      exact enough
    · -- The first signal queued after the first drop would be the next one to be taken.
      apply Nat.le_of_not_lt
      intro more
      have longer : queued rest ≠ [] := by
        intro none
        rw [split, queued_append, queued_dropped, none, List.append_nil, length] at enough
        exact Nat.not_le_of_lt more enough
      obtain ⟨between, later, after, rfl, none⟩ := first_queued rest longer
      have bound := gapless (unbroken tried) dropped between later after (split.trans (by simp))
      rw [queued_append, queued_dropped, none, List.append_nil, length] at bound
      exact Nat.not_le_of_lt more bound
  · rintro bound before dropped between later after rfl
    rw [List.append_assoc, List.cons_append, unbroken_append_dropped] at bound
    have within :=
      (signals_unbroken_prefix_queued (before ++ (dropped, false) :: between)).length_le
    rw [unbroken_append_dropped, signals, List.length_map] at within
    exact Nat.le_trans bound within

end Trials

/-- The account of a connection: what was tried on it, what the far end took, and what that leaves
on its line. -/
structure Line.Accounted (capacity : Nat) (tried : Trials) (taken : List Signal) (l : Line) :
    Prop where
  limit : l.capacity = capacity
  waiting : l.reading = true → taken ++ l.queue = tried.queued
  inOrder : taken <+: tried.queued
  /-- A far end that reads is spared a signal only once the queue has been full, and is then asked
  to hang up. -/
  spared : l.reading = true → (∃ trial ∈ tried, trial.2 = false) →
    capacity ≤ tried.unbroken.length ∧ (l.asked = true ∨ l.heard = true)

def Line.Receipt.signal? : Line.Receipt → Option Signal
  | .signal s => some s
  | _ => none

namespace Line.Accounted

variable {l : Line} {capacity : Nat} {tried : Trials} {taken : List Signal}

theorem fresh (capacity : Nat) : Accounted capacity [] [] { capacity } where
  limit := rfl
  waiting := fun _ => rfl
  inOrder := List.nil_prefix
  spared := fun _ dropped => by simp at dropped

theorem ask (account : l.Accounted capacity tried taken) :
    l.ask.Accounted capacity tried taken := by
  unfold Line.ask
  split
  · exact account
  · refine ⟨account.limit, account.waiting, account.inOrder, ?_⟩
    intro reading dropped
    exact ⟨(account.spared reading dropped).1, .inl rfl⟩

theorem asked_ask (l : Line) : l.ask.asked = true ∨ l.ask.heard = true := by
  unfold Line.ask
  split
  · exact .inr ‹_›
  · exact .inl rfl

/-- Before anything is dropped, what waits is among what was tried. -/
theorem full (account : l.Accounted capacity tried taken) (reading : l.reading = true)
    (full : l.capacity ≤ l.queue.length) : capacity ≤ tried.unbroken.length := by
  rcases Trials.unbroken_split tried with all | ⟨dropped, rest, split⟩
  · have whole := congrArg List.length (account.waiting reading)
    rw [← all, Trials.queued_unbroken, Trials.signals, List.length_append, List.length_map] at whole
    have limit := account.limit
    omega
  · have lost : ∃ trial ∈ tried, trial.2 = false :=
      ⟨(dropped, false), split ▸ List.mem_append_right _ List.mem_cons_self, rfl⟩
    exact (account.spared reading lost).1

theorem offer (account : l.Accounted capacity tried taken) (signal : Signal) :
    (l.offer signal).2.Accounted capacity (tried ++ [(signal, (l.offer signal).1)]) taken := by
  have dropped : Trials.queued (tried ++ [(signal, false)]) = tried.queued := by
    simp [Trials.queued]
  have kept : Trials.queued (tried ++ [(signal, true)]) = tried.queued ++ [signal] := by
    simp [Trials.queued, Trials.signals]
  unfold Line.offer
  split
  · rename_i closed
    have closed : l.reading = false := by simpa using closed
    refine ⟨account.limit, ?_, dropped ▸ account.inOrder, ?_⟩ <;> simp [closed]
  · rename_i reading
    have reading : l.reading = true := by simpa using reading
    split
    · rename_i crowded
      refine ⟨account.ask.limit, dropped ▸ account.ask.waiting, dropped ▸ account.inOrder, ?_⟩
      intro _ _
      rw [Trials.unbroken_append_dropped]
      exact ⟨account.full reading crowded, asked_ask l⟩
    · refine ⟨account.limit, ?_, kept ▸ account.inOrder.trans (List.prefix_append _ _), ?_⟩
      · intro _
        rw [kept, ← account.waiting reading, List.append_assoc]
      · rintro _ ⟨trial, mem, lost⟩
        have earlier : trial ∈ tried := by
          rcases List.mem_append.mp mem with earlier | last
          · exact earlier
          · simp_all
        obtain ⟨long, told⟩ := account.spared reading ⟨trial, earlier, lost⟩
        exact ⟨Nat.le_trans long (tried.unbroken_prefix_append _).length_le, told⟩

theorem stopReading (account : l.Accounted capacity tried taken) :
    l.stopReading.Accounted capacity tried taken :=
  ⟨account.limit, nofun, account.inOrder, nofun⟩

theorem summons (account : l.Accounted capacity tried taken) :
    l.summons.2.Accounted capacity tried taken := by
  unfold Line.summons
  split
  · refine ⟨account.limit, account.waiting, account.inOrder, ?_⟩
    intro reading dropped
    exact ⟨(account.spared reading dropped).1, .inr rfl⟩
  · split <;> exact account

theorem receive (account : l.Accounted capacity tried taken) :
    l.receive.2.Accounted capacity tried (taken ++ l.receive.1.signal?.toList) := by
  unfold Line.receive
  split
  · simpa [Receipt.signal?] using account
  · rename_i reading
    have reading : l.reading = true := by simpa using reading
    have whole := account.waiting reading
    split
    · rename_i signal rest waiting
      have next : (taken ++ [signal]) ++ rest = tried.queued := by
        rw [← whole, waiting, List.append_assoc]
        rfl
      exact ⟨account.limit, fun _ => next, ⟨rest, next⟩, account.spared⟩
    · split <;> simpa [Receipt.signal?] using account

end Line.Accounted

namespace Switchboard

/-- What the broker does with the lines of the connections listed, and what their far ends do. -/
inductive Move where
  | send (conn : ConnId) (signal : Signal)
  | push (id : Identity) (signal : Signal)
  | close (conn : ConnId)
  | receive (conn : ConnId)
  | summons (conn : ConnId)
  | stopReading (conn : ConnId)
deriving DecidableEq

def move (s : Switchboard) : Move → Switchboard
  | .send conn signal => (s.send conn signal).2
  | .push id signal => (s.push id signal).2
  | .close conn => (s.close conn).2
  | .receive conn => (s.receive conn).2
  | .summons conn => (s.summons conn).2
  | .stopReading conn => s.stopReading conn

def moveAll (s : Switchboard) (moves : List Move) : Switchboard := moves.foldl move s

/-- The signal that a move tries to send over a connection, and whether it is queued. -/
def trial? (s : Switchboard) (conn : ConnId) : Move → Option (Signal × Bool)
  | .send c signal => if c = conn then some (signal, (s.send c signal).1) else none
  | .push id signal =>
    if s.roster.channelOf? id = some conn then some (signal, (s.push id signal).1) else none
  | _ => none

/-- The signal that the far end of a connection takes by a move. -/
def taken? (s : Switchboard) (conn : ConnId) : Move → Option Signal
  | .receive c => if c = conn then (s.receive c).1.signal? else none
  | _ => none

def trials (conn : ConnId) : Switchboard → List Move → Trials
  | _, [] => []
  | s, m :: later => (s.trial? conn m).toList ++ trials conn (s.move m) later

def received (conn : ConnId) : Switchboard → List Move → List Signal
  | _, [] => []
  | s, m :: later => (s.taken? conn m).toList ++ received conn (s.move m) later

variable {s : Switchboard} {conn : ConnId} {l : Line}

theorem line?_setLine_self (s : Switchboard) (conn : ConnId) (l : Line) :
    (s.setLine conn l).line? conn = some l := by
  have struck := Lookup.find_strike Prod.fst s.lines conn conn
  rw [if_pos rfl] at struck
  rw [line?, setLine, List.find?_append, struck]
  simp

theorem line?_onLine_of_line? {α : Type} (found : s.line? conn = some l) (c : ConnId)
    (missing : α) (f : Line → α × Line) :
    (s.onLine c missing f).2.line? conn = some (if c = conn then (f l).2 else l) := by
  split
  · rename_i same
    rw [same, onLine, found]
    exact s.line?_setLine_self conn _
  · rename_i other
    rw [line?_onLine s c missing f (Ne.symm other), found]

theorem roster_onLine {α : Type} (s : Switchboard) (conn : ConnId) (missing : α)
    (f : Line → α × Line) :
    (s.onLine conn missing f).2.roster = s.roster := by
  unfold onLine
  split <;> rfl

theorem roster_send (s : Switchboard) (conn : ConnId) (signal : Signal) :
    (s.send conn signal).2.roster = s.roster := by
  unfold send
  split
  · rfl
  · exact s.roster_onLine conn _ _

theorem roster_move (s : Switchboard) (m : Move) : (s.move m).roster = s.roster := by
  cases m with
  | send c signal => exact s.roster_send c signal
  | push id signal =>
    simp only [move, push]
    split
    · rfl
    · exact s.roster_send _ signal
  | close c =>
    simp only [move, close]
    split
    · rfl
    · exact s.roster_onLine c _ _
  | receive c => exact s.roster_onLine c _ _
  | summons c => exact s.roster_onLine c _ _
  | stopReading c => exact s.roster_onLine c _ _

theorem send_of_listed (listed : (s.roster.get? conn).isSome) (found : s.line? conn = some l)
    (signal : Signal) :
    s.send conn signal = ((l.offer signal).1, s.setLine conn (l.offer signal).2) := by
  obtain ⟨entry, here⟩ := Option.isSome_iff_exists.mp listed
  rw [send, here]
  simp only [onLine, found]

variable {capacity : Nat} {tried : Trials} {taken : List Signal}

/-- A change to any line keeps the account of one, if it would on that line. -/
theorem accounted_onLine {α : Type} (found : s.line? conn = some l)
    (account : l.Accounted capacity tried taken) (c : ConnId) (missing : α) {f : Line → α × Line}
    (keeps : (f l).2.Accounted capacity tried taken) :
    ∃ left, (s.onLine c missing f).2.line? conn = some left ∧
      left.Accounted capacity tried taken := by
  refine ⟨_, line?_onLine_of_line? found c missing f, ?_⟩
  split
  · exact keeps
  · exact account

/-- One move keeps the account of a listed connection. -/
theorem accounted_move (listed : (s.roster.get? conn).isSome) (found : s.line? conn = some l)
    (account : l.Accounted capacity tried taken) (m : Move) :
    ∃ left, (s.move m).line? conn = some left ∧
      left.Accounted capacity (tried ++ (s.trial? conn m).toList)
        (taken ++ (s.taken? conn m).toList) := by
  have sent : ∀ signal, (s.send conn signal).2.line? conn = some (l.offer signal).2 := by
    intro signal
    rw [send_of_listed listed found]
    exact s.line?_setLine_self conn _
  have answered : ∀ signal, (s.send conn signal).1 = (l.offer signal).1 := by
    intro signal
    rw [send_of_listed listed found]
  cases m with
  | send c signal =>
    by_cases same : c = conn
    · subst same
      exact ⟨_, sent signal, by simpa [trial?, taken?, answered] using account.offer signal⟩
    · exact ⟨l, (s.line?_send c signal (Ne.symm same)).trans found, by
        simpa [trial?, taken?, same] using account⟩
  | push id signal =>
    by_cases same : s.roster.channelOf? id = some conn
    · refine ⟨(l.offer signal).2, ?_, ?_⟩
      · simp only [move, push, same, sent]
      · simpa [trial?, taken?, push, same, answered] using account.offer signal
    · refine ⟨l, ?_, by simpa [trial?, taken?, same] using account⟩
      simp only [move, push]
      split
      · exact found
      · rename_i c channel
        have other : conn ≠ c := by
          rintro rfl
          exact same channel
        exact (s.line?_send c signal other).trans found
  | receive c =>
    by_cases same : c = conn
    · subst same
      have took : (s.receive c).1 = l.receive.1 := by rw [receive, onLine, found]
      have left := line?_onLine_of_line? found c .notReading Line.receive
      rw [if_pos rfl] at left
      exact ⟨_, left, by simpa [trial?, taken?, took] using account.receive⟩
    · exact ⟨l, (line?_onLine s c _ _ (Ne.symm same)).trans found, by
        simpa [trial?, taken?, same] using account⟩
  | close c =>
    simp only [trial?, taken?, Option.toList_none, List.append_nil, move, close]
    split
    · exact ⟨l, found, account⟩
    · exact accounted_onLine found account c false account.ask
  | summons c =>
    simp only [trial?, taken?, Option.toList_none, List.append_nil]
    exact accounted_onLine found account c none account.summons
  | stopReading c =>
    simp only [trial?, taken?, Option.toList_none, List.append_nil]
    exact accounted_onLine found account c () account.stopReading

theorem accounted_moveAll (listed : (s.roster.get? conn).isSome) (found : s.line? conn = some l)
    (account : l.Accounted capacity tried taken) (moves : List Move) :
    ∃ left, (s.moveAll moves).line? conn = some left ∧
      left.Accounted capacity (tried ++ trials conn s moves) (taken ++ received conn s moves) := by
  induction moves generalizing s l tried taken with
  | nil => exact ⟨l, found, by simpa [trials, received] using account⟩
  | cons m later ih =>
    obtain ⟨next, here, kept⟩ := accounted_move listed found account m
    rw [← s.roster_move m] at listed
    simpa [trials, received, moveAll] using ih listed here kept

/-- What the far end of a connection receives is a prefix of what was queued for it, in the order
tried. Nothing tried after a drop is received just when the far end takes no more than was queued
before the first drop, and then it has received a prefix of all that was tried. While it reads, what
it has not received of the signals queued still waits, nothing is dropped before the queue has been
full, and from the first drop on it is asked to hang up. -/
theorem received_gapless_iff (listed : (s.roster.get? conn).isSome)
    (fresh : s.line? conn = some { capacity }) (moves : List Move) :
    let tried := trials conn s moves
    let taken := received conn s moves
    taken <+: tried.queued ∧
      (tried.Gapless taken.length ↔ taken.length ≤ tried.unbroken.length) ∧
      (tried.Gapless taken.length → taken <+: tried.signals) ∧
      ∃ left, (s.moveAll moves).line? conn = some left ∧ (left.reading = true →
        taken ++ left.queue = tried.queued ∧ ((∃ trial ∈ tried, trial.2 = false) →
          capacity ≤ tried.unbroken.length ∧ (left.asked = true ∨ left.heard = true))) := by
  intro tried taken
  obtain ⟨left, here, account⟩ := accounted_moveAll listed fresh (.fresh capacity) moves
  have inOrder : taken <+: tried.queued := account.inOrder
  have gapless := Trials.gapless_iff inOrder.length_le
  refine ⟨inOrder, gapless, ?_, left, here, fun reading =>
    ⟨account.waiting reading, account.spared reading⟩⟩
  intro whole
  have short : taken.length ≤ tried.unbroken.signals.length := by
    rw [Trials.signals, List.length_map]
    exact gapless.mp whole
  have start : taken <+: tried.unbroken.signals :=
    List.prefix_of_prefix_length_le inOrder tried.signals_unbroken_prefix_queued short
  exact start.trans tried.signals_unbroken_prefix

/-- Two signals are pushed on a channel with room for one; the far end takes the first and finds
nothing after it. -/
theorem received_gapless_push :
    let conn : ConnId := ⟨1⟩
    let id : Identity := ⟨2001, 0, 0⟩
    let entry : Entry := { conn, peer := "slow", identity := some id, role := .events }
    let roster : Roster := { entries := [entry], channels := [(id, conn)] }
    let s : Switchboard := { roster, lines := [(conn, { capacity := 1 })] }
    let moves : List Move :=
      [.push id (.yesNo true), .push id (.yesNo false), .receive conn, .receive conn]
    (s.roster.get? conn).isSome ∧ s.line? conn = some { capacity := 1 } ∧
      received conn s moves = [.yesNo true] ∧
        (trials conn s moves).Gapless (received conn s moves).length := by
  intro conn id entry roster s moves
  have listed : (s.roster.get? conn).isSome := by decide
  have fresh : s.line? conn = some { capacity := 1 } := by decide
  refine ⟨listed, fresh, by decide, ?_⟩
  exact (received_gapless_iff listed fresh moves).2.1.mpr (by decide)

/-- The far end is slow once: the second signal is dropped, and the third one follows on the
first. -/
theorem received_gap :
    let conn : ConnId := ⟨1⟩
    let s := ({} : Switchboard).insert conn 1 "slow"
    let first : Signal := .stateIs ⟨1⟩ .idle
    let second : Signal := .stateIs ⟨2⟩ .idle
    let third : Signal := .stateIs ⟨3⟩ .idle
    let moves : List Move :=
      [.send conn first, .send conn second, .summons conn, .receive conn,
        .send conn third, .receive conn]
    trials conn s moves = [(first, true), (second, false), (third, true)] ∧
      received conn s moves = [first, third] ∧
        ¬ received conn s moves <+: (trials conn s moves).signals := by
  decide

end Switchboard
end SharedVariables
