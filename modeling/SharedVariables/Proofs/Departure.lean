import SharedVariables.Proofs.Handling

/-! The cascade of departures as a derivation, one rule for each way in which a pending connection
leaves. With it, what a whole run keeps of the records. -/
namespace SharedVariables.Broker

/-- The broker once the connection of a processor is struck and the sides held over it are
released. -/
def struck (b : Broker) (conn : ConnId) (roster : Roster) : Broker :=
  { b with table := (b.table.disconnect conn).2, roster }

/-- What remaining partners are told of the sides that a processor held over its connection. -/
def farewells (b : Broker) (conn : ConnId) (roster : Roster) (leaver : Identity) : List Post :=
  (b.table.disconnect conn).1.flatMap fun r => { b with roster }.announce r.key r.remaining leaver

/-- The pending connections leave, and with them all that goes along; the last two are the broker
that is left and what it sent. -/
inductive Departs : Broker → List ConnId → Broker → List Post → Prop where
  | done (b : Broker) : Departs b [] b []
  | absent {b last : Broker} {conn : ConnId} {rest : List ConnId} {posts : List Post}
      (gone : b.roster.get? conn = none) (others : Departs b rest last posts) :
        Departs b (conn :: rest) last posts
  | plain {b last : Broker} {conn : ConnId} {rest : List ConnId} {posts : List Post}
      {entry : Entry} {roster : Roster}
      (removed : b.roster.remove conn = (some entry, roster))
      (other : ∀ leaver, entry.identity = some leaver → entry.role ≠ .command)
      (others : Departs { b with roster } rest last posts) :
        Departs b (conn :: rest) last (.hangUp conn :: posts)
  | processor {b last : Broker} {conn : ConnId} {rest : List ConnId}
      {posts : List Post} {entry : Entry}
      {roster : Roster} {leaver : Identity} (removed : b.roster.remove conn = (some entry, roster))
      (known : entry.identity = some leaver) (role : entry.role = .command)
      (others : Departs (b.struck conn roster)
        ((b.struck conn roster).followers leaver ++ rest) last posts) :
      Departs b (conn :: rest) last (.hangUp conn :: b.farewells conn roster leaver ++ posts)

theorem depart_departs (b : Broker) (pending : List ConnId) :
    Departs b pending (b.depart pending).1 (b.depart pending).2 := by
  fun_induction depart b pending with
  | case1 b => exact .done b
  | case2 b conn rest _ removed ih => exact .absent (Roster.get?_of_remove_none removed) ih
  | case3 b conn rest entry roster removed leaver role known freed told released last
      later departed ih =>
    obtain ⟨rfl, rfl⟩ := Prod.mk.inj released
    rw [departed] at ih
    exact .processor removed known role ih
  | case4 b conn rest entry roster removed last later departed other ih =>
    rw [departed] at ih
    exact .plain removed other ih

/-- Departures strike entries and change none. -/
theorem Departs.entry {b last : Broker} {pending : List ConnId} {posts : List Post}
    (departs : Departs b pending last posts) {c : ConnId} {e : Entry}
    (left : last.roster.get? c = some e) :
    b.roster.get? c = some e := by
  induction departs with
  | done => exact left
  | absent _ _ ih => exact ih left
  | plain removed _ _ ih =>
    have before := ih left
    simp only [Roster.get?_remove removed] at before
    split at before
    · simp at before
    · exact before
  | processor removed _ _ _ ih =>
    have before := ih left
    simp only [struck, Roster.get?_remove removed] at before
    split at before
    · simp at before
    · exact before

variable {P : Record → Prop}

theorem Departs.records (released : ∀ r conn, P r → P (r.releaseHeld conn).2) {b last : Broker}
    {pending : List ConnId} {posts : List Post} (departs : Departs b pending last posts)
    (all : ∀ r ∈ b.table.records, P r) :
    ∀ r ∈ last.table.records, P r := by
  induction departs with
  | done => exact all
  | absent _ _ ih => exact ih all
  | plain _ _ _ ih => exact ih all
  | processor _ _ _ _ ih =>
    apply ih
    intro r mem
    obtain ⟨old, was, rfl⟩ := Table.mem_disconnect mem
    exact released old _ (all old was)

variable {Allowed : Occurrence → Prop}

theorem step_records (released : ∀ r conn, P r → P (r.releaseHeld conn).2)
    (revised : ∀ {b conn request r}, Allowed (.request conn request) →
      (∀ s ∈ b.table.records, P s) → Revised b conn request r → P r)
    {b : Broker} {event : Occurrence} (allowed : Allowed event) (all : ∀ r ∈ b.table.records, P r) :
    ∀ r ∈ (b.step event).1.table.records, P r := by
  cases event with
  | connected | malformed => exact all
  | request conn request =>
    simp only [step, dispatch_broker]
    intro r mem
    exact revised allowed all ((handle_handled b conn request).revised mem)
  | disconnected conn => exact (depart_departs b [conn]).records released all

/-- What requests and releases keep of each record holds of every record that a run leads to. -/
theorem run_records (released : ∀ r conn, P r → P (r.releaseHeld conn).2)
    (revised : ∀ {b conn request r}, Allowed (.request conn request) →
      (∀ s ∈ b.table.records, P s) → Revised b conn request r → P r)
    (capacity : Option Nat) (wording : Wording) {events : List Occurrence}
    (allowed : ∀ e ∈ events, Allowed e) :
    ∀ r ∈ ((new capacity wording).run events).1.table.records, P r := by
  have none : ∀ r ∈ (new capacity wording).table.records, P r := fun r mem => by
    simp [new, Table.new] at mem
  generalize new capacity wording = b at none
  induction events generalizing b with
  | nil => exact none
  | cons event rest ih =>
    refine ih (fun e later => allowed e (List.mem_cons_of_mem _ later)) _ ?_
    exact step_records released revised (allowed event List.mem_cons_self) none

end SharedVariables.Broker
