import SharedVariables.Proofs.Lookup
import SharedVariables.Roster

/-! The directories of a roster against its entries. Every operation is described by what a look-up
finds afterwards; nothing below opens the lists themselves again. -/
namespace SharedVariables

namespace Directory

theorem get?_add {d : Directory} {id : Identity} (absent : get? d id = none) (conn : ConnId)
    (other : Identity) :
    get? (add d id conn) other = if other = id then some conn else get? d other := by
  simp only [get?, add, List.find?_append, Option.map_eq_none_iff] at absent ⊢
  by_cases same : other = id
  · subst other
    simp [absent]
  · have apart : (id == other) = false := by simpa using fun h => same h.symm
    simp [same, apart]

theorem get?_forget (d : Directory) (id : Identity) (conn : ConnId) (other : Identity) :
    get? (forget d id conn) other = if other = id ∧ get? d id = some conn then
      none else get? d other := by
  unfold forget
  split
  · rename_i listed
    have struck := Lookup.find_strike (fun e : Identity × ConnId => e.1) d id other
    by_cases same : other = id
    · simp only [if_pos same] at struck
      simp [get?, same, ← listed]
    · simp only [if_neg same] at struck
      simp [get?, struck, same]
  · rename_i unlisted
    simp [unlisted]

theorem unlisted_filter {d : Directory} {conn : ConnId} (unlisted : ∀ id, get? d id ≠ some conn)
    (id : Identity) :
    get? d id = (get? d id).filter (· != conn) := by
  cases found : get? d id with
  | none => rfl
  | some c =>
    have apart : c ≠ conn := by
      rintro rfl
      exact unlisted id found
    simp [Option.filter_some, apart]

theorem forget_filter {d : Directory} {id : Identity} {conn : ConnId}
    (only : ∀ other, get? d other = some conn → other = id) (other : Identity) :
    get? (forget d id conn) other = (get? d other).filter (· != conn) := by
  rw [get?_forget]
  split
  · rename_i listed
    simp [listed.1, listed.2, Option.filter_some]
  · rename_i unlisted
    cases found : get? d other with
    | none => rfl
    | some c =>
      have apart : c ≠ conn := by
        rintro rfl
        obtain rfl := only other found
        exact unlisted ⟨rfl, found⟩
      simp [Option.filter_some, apart]

end Directory

namespace Roster

theorem get?_erase (r : Roster) (conn c : ConnId) :
    (r.erase conn).get? c = if c = conn then none else r.get? c :=
  Lookup.find_strike Entry.conn r.entries conn c

theorem get?_insert (r : Roster) (conn : ConnId) (peer : String) (c : ConnId) :
    (r.insert conn peer).get? c = if c = conn then some { conn, peer } else r.get? c := by
  have left := get?_erase r conn c
  simp only [get?, insert, List.find?_append] at left ⊢
  rw [left]
  by_cases same : c = conn
  · subst c
    simp
  · have apart : (conn == c) = false := by simpa using fun h => same h.symm
    simp [same, apart]

theorem get?_update (r : Roster) (conn : ConnId) (f : Entry → Entry)
    (keeps : ∀ e, (f e).conn = e.conn) (c : ConnId) :
    (r.update conn f).get? c = if c = conn then (r.get? conn).map f else r.get? c :=
  Lookup.find_change Entry.conn r.entries conn f (fun e here => (keeps e).trans here) c

/-- A directory lists exactly the connections whose entries have a role, each under the identity of
its entry. -/
def Lists (r : Roster) (role : Role) (d : Directory) : Prop :=
  ∀ id c, Directory.get? d id = some c ↔
    ∃ e, r.get? c = some e ∧ e.identity = some id ∧ e.role = role

structure Consistent (r : Roster) : Prop where
  commands : r.Lists .command r.commands
  channels : r.Lists .events r.channels

theorem Consistent.live_channel {r : Roster} (consistent : r.Consistent) {id : Identity}
    {c : ConnId} (channel : r.channelOf? id = some c) : (r.get? c).isSome := by
  obtain ⟨e, found, -⟩ := (consistent.channels id c).mp channel
  exact Option.isSome_iff_exists.mpr ⟨e, found⟩

theorem consistent_empty : ({} : Roster).Consistent := by
  constructor <;> intro id c <;> simp [Directory.get?, get?]

theorem Lists.entry {r : Roster} {role : Role} {d : Directory} (lists : r.Lists role d)
    {id : Identity} {conn : ConnId} {entry : Entry} (listed : Directory.get? d id = some conn)
    (found : r.get? conn = some entry) :
    entry.identity = some id ∧ entry.role = role := by
  obtain ⟨e, here, facts⟩ := (lists id conn).mp listed
  obtain rfl := Option.some.inj (found.symm.trans here)
  exact facts

theorem Lists.strike {r left : Roster} {role : Role} {d e : Directory} {conn : ConnId}
    (lists : r.Lists role d) (entries : ∀ c, left.get? c = if c = conn then none else r.get? c)
    (listings : ∀ id, Directory.get? e id = (Directory.get? d id).filter (· != conn)) :
    left.Lists role e := by
  intro id c
  rw [listings, entries, Option.filter_eq_some_iff, lists id c]
  by_cases struck : c = conn <;> simp [struck]

theorem Lists.insert {r : Roster} {role : Role} {d : Directory} {conn : ConnId}
    (lists : r.Lists role d) (fresh : r.get? conn = none) (peer : String) :
    (r.insert conn peer).Lists role d := by
  intro id c
  rw [get?_insert, lists id c]
  by_cases new : c = conn
  · subst c
    simp [fresh]
  · simp [new]

section Claim

/- A connection on which nobody was registered gets the entry `claim`. -/
variable {r s : Roster} {d : Directory} {conn : ConnId} {free claim : Entry}

theorem Lists.keep {role : Role} (lists : r.Lists role d) (found : r.get? conn = some free)
    (nobody : free.identity = none)
    (entries : ∀ c, s.get? c = if c = conn then some claim else r.get? c)
    (other : claim.role ≠ role) : s.Lists role d := by
  intro id c
  rw [entries, lists id c]
  by_cases here : c = conn
  · subst c
    simp [found, nobody, other]
  · simp [here]

theorem Lists.add {id : Identity} (lists : r.Lists claim.role d) (found : r.get? conn = some free)
    (nobody : free.identity = none)
    (entries : ∀ c, s.get? c = if c = conn then some claim else r.get? c)
    (claimed : claim.identity = some id) (unlisted : Directory.get? d id = none) :
    s.Lists claim.role (Directory.add d id conn) := by
  intro other c
  rw [entries, Directory.get?_add unlisted]
  by_cases here : c = conn
  · subst c
    by_cases same : other = id
    · simp [same, claimed]
    · have apart : id ≠ other := fun h => same h.symm
      simp [same, claimed, apart, lists other conn, found, nobody]
  · by_cases same : other = id
    · subst other
      have none := lists id c
      have apart : conn ≠ c := fun h => here h.symm
      simpa [here, apart, unlisted] using none
    · simp [here, same, lists other c]

end Claim

theorem identityOf?_eq_some {r : Roster} {conn : ConnId} {id : Identity} :
    r.identityOf? conn = some id ↔
      ∃ e, r.get? conn = some e ∧ e.identity = some id ∧ e.role = .command := by
  unfold identityOf?
  cases r.get? conn with
  | none => simp
  | some e => by_cases role : e.role = .command <;> simp [Option.filter_some, role]

theorem get?_of_remove {r left : Roster} {conn : ConnId} {entry : Entry}
    (removed : r.remove conn = (some entry, left)) : r.get? conn = some entry := by
  unfold remove at removed
  split at removed
  · simp at removed
  · rename_i found
    split at removed <;> exact found.trans (Prod.mk.inj removed).1

theorem get?_of_remove_none {r left : Roster} {conn : ConnId}
    (removed : r.remove conn = (none, left)) :
    r.get? conn = none := by
  unfold remove at removed
  split at removed
  · assumption
  · split at removed <;> simp at removed

theorem get?_remove {r left : Roster} {conn : ConnId} {entry : Entry}
    (removed : r.remove conn = (some entry, left)) (c : ConnId) :
    left.get? c = if c = conn then none else r.get? c := by
  simp only [remove, get?_of_remove removed] at removed
  split at removed <;> obtain rfl := (Prod.mk.inj removed).2 <;> exact get?_erase r conn c

theorem channel_of_remove {r left : Roster} {conn : ConnId} {entry : Entry}
    (removed : r.remove conn = (some entry, left)) {id : Identity} {c : ConnId}
    (listed : left.channelOf? id = some c) :
    r.channelOf? id = some c := by
  simp only [remove, get?_of_remove removed] at removed
  split at removed <;> obtain rfl := (Prod.mk.inj removed).2
  · exact listed
  · exact listed
  · simp only [channelOf?, Directory.get?_forget] at listed
    split at listed
    · simp at listed
    · exact listed

/-- Striking a connection takes its listings away and nothing else. -/
theorem remove_spec {r left : Roster} {conn : ConnId} {entry : Entry} (consistent : r.Consistent)
    (removed : r.remove conn = (some entry, left)) :
    (∀ id, Directory.get? left.commands id = (Directory.get? r.commands id).filter (· != conn)) ∧
      (∀ id, Directory.get? left.channels id =
        (Directory.get? r.channels id).filter (· != conn)) := by
  have found := get?_of_remove removed
  simp only [remove, found] at removed
  split at removed <;> obtain rfl := (Prod.mk.inj removed).2
  · rename_i nobody
    refine ⟨Directory.unlisted_filter ?_, Directory.unlisted_filter ?_⟩
    · intro other listed
      simpa [nobody] using (consistent.commands.entry listed found).1
    · intro other listed
      simpa [nobody] using (consistent.channels.entry listed found).1
  · rename_i id known role
    refine ⟨Directory.forget_filter ?_, Directory.unlisted_filter ?_⟩
    · intro other listed
      exact Option.some.inj ((consistent.commands.entry listed found).1.symm.trans known)
    · intro other listed
      simpa [role] using (consistent.channels.entry listed found).2
  · rename_i id known role
    refine ⟨Directory.unlisted_filter ?_, Directory.forget_filter ?_⟩
    · intro other listed
      simpa [role] using (consistent.commands.entry listed found).2
    · intro other listed
      exact Option.some.inj ((consistent.channels.entry listed found).1.symm.trans known)

theorem Consistent.remove {r left : Roster} {conn : ConnId} {entry : Entry}
    (consistent : r.Consistent) (removed : r.remove conn = (some entry, left)) :
    left.Consistent := by
  obtain ⟨commands, channels⟩ := remove_spec consistent removed
  have entries := get?_remove removed
  exact ⟨consistent.commands.strike entries commands, consistent.channels.strike entries channels⟩

theorem Consistent.insert {r : Roster} {conn : ConnId} (consistent : r.Consistent)
    (fresh : r.get? conn = none) (peer : String) : (r.insert conn peer).Consistent :=
  ⟨consistent.commands.insert fresh peer, consistent.channels.insert fresh peer⟩

theorem unclaimed_ok {r : Roster} {conn : ConnId} {id : Identity} {entry : Entry}
    (free : r.unclaimed conn id = .ok entry) :
    r.get? conn = some entry ∧ entry.identity = none := by
  unfold unclaimed at free
  split at free
  · simp at free
  · rename_i found
    split at free
    · simp at free
    · rename_i nobody
      obtain rfl := Except.ok.inj free
      exact ⟨found, nobody⟩

/-- The entry of a processor's command connection. -/
def asProcessor (e : Entry) (id : Identity) (pid : UInt32) : Entry :=
  { e with identity := some id, pid := some pid, role := .command }

/-- The entry of a processor's event channel. -/
def asChannel (e : Entry) (id : Identity) : Entry := { e with identity := some id, role := .events }

theorem register_ok {r s : Roster} {conn : ConnId} {id : Identity} {pid : UInt32}
    (accepted : r.register conn id pid = .ok s) :
    id.isNobody = false ∧ id.isGeneral = false ∧ Directory.get? r.commands id = none ∧
      s.commands = Directory.add r.commands id conn ∧ s.channels = r.channels ∧
      ∃ e, r.get? conn = some e ∧ e.identity = none ∧
        ∀ c, s.get? c = if c = conn then some (asProcessor e id pid) else r.get? c := by
  unfold register at accepted
  split at accepted
  · simp at accepted
  · rename_i proper
    split at accepted
    · simp at accepted
    · rename_i unlisted
      split at accepted
      · simp at accepted
      · rename_i entry free
        obtain ⟨found, nobody⟩ := unclaimed_ok free
        obtain rfl := Except.ok.inj accepted
        simp only [Bool.or_eq_true, not_or, Bool.not_eq_true] at proper
        refine ⟨proper.1, proper.2, by
          simpa [Directory.contains] using unlisted, rfl, rfl, entry, found, nobody, ?_⟩
        intro c
        exact (get?_update r conn (asProcessor · id pid) (fun _ => rfl) c).trans
          (by rw [found]; rfl)

theorem registerChannel_ok {r s : Roster} {conn : ConnId} {id : Identity}
    (accepted : r.registerChannel conn id = .ok s) :
    (∃ c, Directory.get? r.commands id = some c) ∧ Directory.get? r.channels id = none ∧
      s.commands = r.commands ∧ s.channels = Directory.add r.channels id conn ∧
      ∃ e, r.get? conn = some e ∧ e.identity = none ∧
        ∀ c, s.get? c = if c = conn then some (asChannel e id) else r.get? c := by
  unfold registerChannel at accepted
  split at accepted
  · simp at accepted
  · rename_i registered
    split at accepted
    · simp at accepted
    · rename_i unlisted
      split at accepted
      · simp at accepted
      · rename_i entry free
        obtain ⟨found, nobody⟩ := unclaimed_ok free
        obtain rfl := Except.ok.inj accepted
        refine ⟨?_, by simpa [Directory.contains] using unlisted, rfl, rfl, entry, found, nobody,
          ?_⟩
        · simpa [Directory.contains, ← Option.isSome_iff_ne_none,
            Option.isSome_iff_exists] using registered
        · intro c
          exact (get?_update r conn (asChannel · id) (fun _ => rfl) c).trans (by rw [found]; rfl)

theorem Consistent.register {r s : Roster} {conn : ConnId} {id : Identity} {pid : UInt32}
    (consistent : r.Consistent) (accepted : r.register conn id pid = .ok s) : s.Consistent := by
  obtain ⟨-, -, unlisted, commands, channels, e, found, nobody, entries⟩ := register_ok accepted
  constructor
  · rw [commands]
    exact consistent.commands.add found nobody entries rfl unlisted
  · rw [channels]
    exact consistent.channels.keep found nobody entries (by simp [asProcessor])

theorem Consistent.registerChannel {r s : Roster} {conn : ConnId} {id : Identity}
    (consistent : r.Consistent) (accepted : r.registerChannel conn id = .ok s) : s.Consistent := by
  obtain ⟨-, unlisted, commands, channels, e, found, nobody, entries⟩ := registerChannel_ok accepted
  constructor
  · rw [commands]
    exact consistent.commands.keep found nobody entries (by simp [asChannel])
  · rw [channels]
    exact consistent.channels.add found nobody entries rfl unlisted

end Roster
end SharedVariables
