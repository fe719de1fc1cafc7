import Mathlib.Data.List.Basic
import SharedVariables.Proofs.Upkeep

/-! What a broker is once some connections are gone, said of all of them at once. Striking a
connection and releasing its sides gives the broker without it, so the order in which connections
are struck leaves no trace. -/
namespace SharedVariables

namespace Partner

def isOver (p : Partner) (gone : List ConnId) : Bool := p.conn.any fun c => c ∈ gone

variable {p : Partner}

@[simp] theorem isOver_deactivate (p : Partner) (gone : List ConnId) :
    p.deactivate.isOver gone = false := rfl

@[simp] theorem isOver_addEvents (p : Partner) (e : Events) (gone : List ConnId) :
    (p.addEvents e).isOver gone = p.isOver gone := rfl

@[simp] theorem isActive_deactivate (p : Partner) : p.deactivate.isActive = false := rfl

@[simp] theorem isActive_addEvents (p : Partner) (e : Events) :
    (p.addEvents e).isActive = p.isActive := rfl

theorem isOver_append (p : Partner) (g h : List ConnId) :
    p.isOver (g ++ h) = (p.isOver g || p.isOver h) := by
  unfold isOver
  cases p.conn <;> simp

theorem isOver_of_inactive (inactive : p.isActive = false) (gone : List ConnId) :
    p.isOver gone = false := by
  unfold isActive at inactive
  unfold isOver
  cases held : p.conn with
  | none => rfl
  | some c => simp [held] at inactive

theorem isOver_iff {gone : List ConnId} : p.isOver gone = true ↔ ∃ c ∈ gone, p.conn = some c := by
  unfold isOver
  cases p.conn <;> simp

theorem isOver_singleton {conn : ConnId} : p.isOver [conn] = true ↔ p.conn = some conn := by
  unfold isOver
  cases p.conn <;> simp

theorem isOver_congr {g h : List ConnId} (same : ∀ c, c ∈ g ↔ c ∈ h) (p : Partner) :
    p.isOver g = p.isOver h := by
  unfold isOver
  cases p.conn <;> simp [same]

end Partner

namespace Record

/-- What is left of a record: a side whose connection is gone is vacated, and a remaining side is
told of it. -/
def remains (gone : List ConnId) (r : Record) : Option Record :=
  match r.offering.isOver gone, r.accepting.isOver gone with
  | false, false => some r
  | true, false =>
    if r.accepting.isActive then
      some { r with
        state := .notShared
        offering := r.offering.deactivate
        accepting := r.accepting.addEvents .retracted }
    else none
  | false, true =>
    if r.offering.isActive then
      some { r with
        state := .notShared
        offering := r.offering.addEvents .retracted
        accepting := r.accepting.deactivate }
    else none
  | true, true => none

theorem remains_append (g h : List ConnId) (r : Record) :
    (r.remains g).bind (remains h) = r.remains (g ++ h) := by
  have offerer := r.offering.isOver_append g h
  have acceptor := r.accepting.isOver_append g h
  cases first : r.offering.isOver g <;> cases second : r.accepting.isOver g
  · simp [remains, first, second, offerer, acceptor]
  · -- Only the acceptor is lost at first; the offerer may follow, and then nothing is left.
    cases offers : r.offering.isActive with
    | false =>
      have vacant := Partner.isOver_of_inactive offers h
      simp [remains, first, second, offerer, acceptor, offers, vacant]
    | true =>
      cases later : r.offering.isOver h <;>
        simp [remains, first, second, offerer, acceptor, offers, later]
  · cases accepts : r.accepting.isActive with
    | false =>
      have vacant := Partner.isOver_of_inactive accepts h
      simp [remains, first, second, offerer, acceptor, accepts, vacant]
    | true =>
      cases later : r.accepting.isOver h <;>
        simp [remains, first, second, offerer, acceptor, accepts, later]
  · simp [remains, first, second, offerer, acceptor]

theorem remains_congr {g h : List ConnId} (same : ∀ c, c ∈ g ↔ c ∈ h) : remains g = remains h := by
  funext r
  unfold remains
  rw [Partner.isOver_congr same, Partner.isOver_congr same]

theorem remains_of_not_over {gone : List ConnId} {r : Record}
    (kept : ∀ side, (r.partner side).isOver gone = false) :
    r.remains gone = some r := by
  have offerer : r.offering.isOver gone = false := kept .offering
  have acceptor : r.accepting.isOver gone = false := kept .accepting
  simp [remains, offerer, acceptor]

/-- A side of what remains was vacated, was told that the other side was, or is as it was. -/
theorem partner_remains {gone : List ConnId} {r s : Record} (left : r.remains gone = some s)
    (side : Side) :
    s.partner side =
      if (r.partner side).isOver gone then (r.partner side).deactivate
      else if (r.partner side.other).isOver gone then (r.partner side).addEvents .retracted
      else r.partner side := by
  unfold remains at left
  split at left
  · rename_i offerer acceptor
    obtain rfl := Option.some.inj left
    cases side <;> simp [partner, Side.other, offerer, acceptor]
  · rename_i offerer acceptor
    obtain rfl := Option.some.inj (Option.ite_none_right_eq_some.mp left).2
    cases side <;> simp [partner, Side.other, offerer, acceptor]
  · rename_i offerer acceptor
    obtain rfl := Option.some.inj (Option.ite_none_right_eq_some.mp left).2
    cases side <;> simp [partner, Side.other, offerer, acceptor]
  · simp at left

/-- Releasing what is held over a connection, and reaping, leaves what remains without that
connection. -/
theorem guard_releaseHeld {r : Record} (attended : r.coupling ≠ .uncoupled) (conn : ConnId) :
    (Option.guard (fun s => decide (s.coupling ≠ .uncoupled)) (r.releaseHeld conn).2) =
      r.remains [conn] := by
  have offerer : r.offering.isOver [conn] = true ↔ r.offering.conn = some conn :=
    Partner.isOver_singleton
  have acceptor : r.accepting.isOver [conn] = true ↔ r.accepting.conn = some conn :=
    Partner.isOver_singleton
  rw [releaseHeld_record]
  by_cases first : r.offering.conn = some conn <;> by_cases second : r.accepting.conn = some conn
  · have gone : ((r.release .offering).release .accepting).coupling = .uncoupled := by
      rw [coupling_eq_uncoupled]
      intro side
      cases side <;> simp [Partner.isActive]
    simp [remains, partner, first, second, offerer.mpr first, acceptor.mpr second, gone]
  · have kept : r.accepting.isOver [conn] = false := Bool.eq_false_iff.mpr fun there =>
      second (acceptor.mp there)
    cases accepts : r.accepting.isActive <;>
      simp [remains, partner, first, second, offerer.mpr first, kept, accepts, release, modify,
        Side.other, coupling,
        Coupling.ofActive]
  · have kept : r.offering.isOver [conn] = false := Bool.eq_false_iff.mpr fun there =>
      first (offerer.mp there)
    cases offers : r.offering.isActive <;>
      simp [remains, partner, first, second, acceptor.mpr second, kept, offers, release, modify,
        Side.other, coupling,
        Coupling.ofActive]
  · have kept : ∀ side, (r.partner side).isOver [conn] = false := by
      intro side
      cases side
      · exact Bool.eq_false_iff.mpr fun there => first (offerer.mp there)
      · exact Bool.eq_false_iff.mpr fun there => second (acceptor.mp there)
    simp [remains_of_not_over kept, partner, first, second, attended]

theorem Sound.remains {gone : List ConnId} {r s : Record} (sound : r.Sound)
    (left : r.remains gone = some s) :
    s.key = r.key ∧ s.Sound := by
  unfold Record.remains at left
  split at left
  · obtain rfl := Option.some.inj left
    exact ⟨rfl, sound⟩
  · split at left
    · rename_i accepts
      obtain rfl := Option.some.inj left
      refine ⟨rfl, ?_, fun _ => sound.apart accepts⟩
      simp [coupling, Coupling.ofActive, accepts]
    · simp at left
  · split at left
    · rename_i offers
      obtain rfl := Option.some.inj left
      refine ⟨rfl, ?_, fun accepts => by simp at accepts⟩
      simp [coupling, Coupling.ofActive, offers]
    · simp at left
  · simp at left

end Record

/-- A table once some connections are gone. -/
def Table.without (t : Table) (gone : List ConnId) : Table :=
  { t with records := t.records.filterMap (Record.remains gone) }

def Roster.without (r : Roster) (gone : List ConnId) : Roster where
  entries := r.entries.filter fun e => e.conn ∉ gone
  commands := r.commands.filter fun e => e.2 ∉ gone
  channels := r.channels.filter fun e => e.2 ∉ gone

def Broker.without (b : Broker) (gone : List ConnId) : Broker :=
  { b with table := b.table.without gone, roster := b.roster.without gone }

namespace Table

theorem Sound.without {t : Table} (sound : t.Sound) (gone : List ConnId) : (t.without gone).Sound :=
  sound.filterMap _ fun r mem _ left => (sound.records r mem).remains left

theorem without_append (t : Table) (g h : List ConnId) :
    (t.without g).without h = t.without (g ++ h) := by
  simp only [without, List.filterMap_filterMap]
  congr 2
  funext r
  exact r.remains_append g h

theorem Sound.get?_without {t : Table} (sound : t.Sound) (gone : List ConnId) (key : Key) :
    (t.without gone).get? key = (t.get? key).bind (Record.remains gone) := by
  -- What is found under the key afterwards is what remains of the record that was found there
  -- before.
  have origin : ∀ s, (t.without gone).get? key = some s →
      ∃ r, t.get? key = some r ∧ r.remains gone = some s := by
    intro s after
    obtain ⟨r, mem, left⟩ := List.mem_filterMap.mp (mem_of_get? after)
    have same : s.key = key := by simpa using List.find?_some after
    have found := sound.get? mem
    rw [← ((sound.records r mem).remains left).1, same] at found
    exact ⟨r, found, left⟩
  cases after : (t.without gone).get? key with
  | some s =>
    obtain ⟨r, before, left⟩ := origin s after
    rw [before, Option.bind_some, left]
  | none =>
    rw [eq_comm, Option.bind_eq_none_iff]
    intro r before
    rw [Option.eq_none_iff_forall_ne_some]
    intro s left
    have mem := mem_of_get? before
    have there := (sound.without gone).get? (List.mem_filterMap.mpr ⟨r, mem, left⟩)
    have key : r.key = key := by simpa using List.find?_some before
    rw [((sound.records r mem).remains left).1, key, after] at there
    simp at there

theorem disconnect_eq_without {t : Table} (sound : t.Sound) (conn : ConnId) :
    (t.disconnect conn).2 = t.without [conn] := by
  simp only [disconnect, reap, without, List.map_map]
  rw [← List.filterMap_eq_filter, List.filterMap_map]
  congr 1
  apply List.filterMap_congr
  intro r mem
  exact Record.guard_releaseHeld (sound.records r mem).attended conn

theorem without_eq_self {t : Table} {gone : List ConnId}
    (kept : ∀ r ∈ t.records, ∀ side, (r.partner side).isOver gone = false) :
    t.without gone = t := by
  have same : t.records.filterMap (Record.remains gone) = t.records.filterMap some :=
    List.filterMap_congr fun r mem => Record.remains_of_not_over (kept r mem)
  simp [without, same]

end Table

namespace Directory

theorem filter_unlisted {d : Directory} (single : Single d) {conn : ConnId}
    (unlisted : ∀ id, get? d id ≠ some conn) :
    (d.filter fun e => e.2 ∉ [conn]) = d := by
  rw [List.filter_eq_self]
  rintro ⟨id, c⟩ mem
  have listed := (mem_iff_get? single).mp mem
  have apart : c ≠ conn := by
    rintro rfl
    exact unlisted id listed
  simpa using apart

/-- Where a connection is listed once, forgetting its processor strikes that listing. -/
theorem forget_eq_filter {d : Directory} (single : Single d) {id : Identity} {conn : ConnId}
    (listed : get? d id = some conn) (only : ∀ other, get? d other = some conn → other = id) :
    forget d id conn = d.filter fun e => e.2 ∉ [conn] := by
  rw [forget, if_pos listed]
  apply List.filter_congr
  rintro ⟨i, c⟩ mem
  have here := (mem_iff_get? single).mp mem
  by_cases same : c = conn
  · subst c
    have own := only i here
    simp [own]
  · have apart : i ≠ id := by
      rintro rfl
      exact same (Option.some.inj (here.symm.trans listed))
    simp [same, apart]

end Directory

namespace Roster

theorem without_append (r : Roster) (g h : List ConnId) :
    (r.without g).without h = r.without (g ++ h) := by
  simp [without, List.filter_filter, Bool.and_comm]

theorem get?_without (r : Roster) (gone : List ConnId) (c : ConnId) :
    (r.without gone).get? c = if c ∈ gone then none else r.get? c := by
  simp only [get?, without, List.find?_filter]
  split
  · rename_i struck
    rw [List.find?_eq_none]
    intro e _ found
    simp only [decide_eq_true_eq, beq_iff_eq] at found
    exact found.1 (found.2 ▸ struck)
  · rename_i kept
    congr 1
    funext e
    by_cases here : e.conn = c <;> simp [here, kept]

theorem remove_eq_without {r left : Roster} {conn : ConnId} {entry : Entry}
    (consistent : r.Consistent) (single : r.Single) (removed : r.remove conn = (some entry, left)) :
    left = r.without [conn] := by
  have found := get?_of_remove removed
  have erased : (r.entries.filter fun e => e.conn ∉ [conn]) = (r.erase conn).entries := by
    apply List.filter_congr
    intro e _
    by_cases here : e.conn = conn <;> simp [here]
  have commands : ∀ id, Directory.get? r.commands id = some conn →
      entry.identity = some id ∧ entry.role = .command :=
    fun id listed => consistent.commands.entry listed found
  have channels : ∀ id, Directory.get? r.channels id = some conn →
      entry.identity = some id ∧ entry.role = .events :=
    fun id listed => consistent.channels.entry listed found
  simp only [remove, found] at removed
  split at removed <;> obtain rfl := (Prod.mk.inj removed).2
  · rename_i nobody
    rw [without, erased, Directory.filter_unlisted single.commands,
      Directory.filter_unlisted single.channels]
    · rfl
    · intro id listed
      simpa [nobody] using (channels id listed).1
    · intro id listed
      simpa [nobody] using (commands id listed).1
  · rename_i id known role
    have listed := (consistent.commands id conn).mpr ⟨entry, found, known, role⟩
    have only : ∀ other, Directory.get? r.commands other = some conn → other = id := by
      intro other again
      exact Option.some.inj ((commands other again).1.symm.trans known)
    rw [without, erased, Directory.filter_unlisted single.channels]
    · exact congrArg (Roster.mk _ · _) (Directory.forget_eq_filter single.commands listed only)
    · intro other again
      simpa [role] using (channels other again).2
  · rename_i id known role
    have listed := (consistent.channels id conn).mpr ⟨entry, found, known, role⟩
    have only : ∀ other, Directory.get? r.channels other = some conn → other = id := by
      intro other again
      exact Option.some.inj ((channels other again).1.symm.trans known)
    rw [without, erased, Directory.filter_unlisted single.commands]
    · exact congrArg (Roster.mk _ _ ·) (Directory.forget_eq_filter single.channels listed only)
    · intro other again
      simpa [role] using (commands other again).2

end Roster

namespace Broker

theorem without_nil (b : Broker) : b.without [] = b := by
  have entries : b.table.without [] = b.table := Table.without_eq_self fun r _ side => by
    unfold Partner.isOver
    cases (r.partner side).conn <;> rfl
  simp [without, entries, Roster.without]

theorem without_append (b : Broker) (g h : List ConnId) :
    (b.without g).without h = b.without (g ++ h) := by
  simp only [without, Table.without_append, Roster.without_append]

theorem without_congr (b : Broker) {g h : List ConnId} (same : ∀ c, c ∈ g ↔ c ∈ h) :
    b.without g = b.without h := by
  simp only [without, Table.without, Roster.without, Record.remains_congr same, same]

/-- Roster, directories and table are in order, but for the event channels among the pending
connections. -/
structure Upkept (pending : List ConnId) (b : Broker) : Prop where
  agrees : b.Departing pending
  single : b.roster.Single
  sound : b.table.Sound

variable {b : Broker} {conn : ConnId} {entry : Entry} {roster : Roster} {rest : List ConnId}

/-- Striking the connection of a processor and releasing its sides gives the broker without it. -/
theorem Upkept.processor (upkept : b.Upkept (conn :: rest))
    (removed : b.roster.remove conn = (some entry, roster)) {leaver : Identity}
    (known : entry.identity = some leaver) (role : entry.role = .command) :
    b.struck conn roster = b.without [conn] ∧
      (b.struck conn roster).Upkept ((b.struck conn roster).followers leaver ++ rest) := by
  have same := Roster.remove_eq_without upkept.agrees.consistent upkept.single removed
  have freed := Table.disconnect_eq_without upkept.sound conn
  have next : b.struck conn roster = b.without [conn] := by rw [struck, freed, same, without]
  refine ⟨next, upkept.agrees.processor removed known role, upkept.single.remove removed, ?_⟩
  rw [next]
  exact upkept.sound.without [conn]

/-- No side is held over a connection that is no processor's, so striking it leaves the table as it
is. -/
theorem Upkept.plain (upkept : b.Upkept (conn :: rest))
    (removed : b.roster.remove conn = (some entry, roster))
    (other : ∀ leaver, entry.identity = some leaver → entry.role ≠ .command) :
    { b with roster } = b.without [conn] ∧ { b with roster }.Upkept rest := by
  have found := Roster.get?_of_remove removed
  have same := Roster.remove_eq_without upkept.agrees.consistent upkept.single removed
  have free : b.table.without [conn] = b.table := by
    apply Table.without_eq_self
    intro r mem side
    refine Bool.eq_false_iff.mpr fun there => ?_
    have held := (upkept.agrees.backed r mem side).held conn (Partner.isOver_singleton.mp there)
    obtain ⟨known, role⟩ := upkept.agrees.consistent.commands.entry held found
    exact other _ known role
  refine ⟨by rw [same, without, free], upkept.agrees.plain removed other,
    upkept.single.remove removed, upkept.sound⟩

end Broker
end SharedVariables
