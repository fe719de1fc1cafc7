import SharedVariables.Proofs.Operations

/-! The keys that a table gives out. Running numbers only grow and can be read off a key, so no key
is given out twice, whatever became of the record that it was made for. -/
namespace SharedVariables

namespace Key

/-- Bits 16 to 47 are the number of the processor. -/
theorem processor_compose (proc : UInt32) {n : Nat} (small : n < sequenceLimit) :
    ((compose proc n).bits >>> 16).toUInt32 = proc := by
  have bits := toNat_compose proc small
  have bound := proc.toNat_lt
  have shift : (16 : UInt64).toNat % 64 = 16 := rfl
  rw [← UInt32.toNat_inj, UInt64.toNat_toUInt32, UInt64.toNat_shiftRight, shift, bits,
    Nat.shiftRight_eq_div_pow]
  omega

end Key

namespace Table

/-- A key that was given out, and for whose offer. -/
structure Issue where
  key : Key
  offerer : Identity
deriving DecidableEq

def issue? (t : Table) : Operation → Option Issue
  | .matchOrMake name wanted requester conn =>
    match (t.matchOrMake name wanted requester conn).1 with
    | .created key _ => some ⟨key, requester⟩
    | _ => none
  | .createOffer name wanted offerer conn =>
    (t.createOffer name wanted offerer conn).1.map (⟨·, offerer⟩)
  | _ => none

/-- The keys that are given out along a run. -/
def issues (t : Table) : List Operation → List Issue
  | [] => []
  | op :: later => (t.issue? op).toList ++ (t.perform op).issues later

/-- What an operation has to do with keys: it gives none out and leaves the running number alone, or
it spends the next number on the key of one new record. -/
inductive Supplies (t : Table) : Option Issue → Table → Prop where
  | nothing {u : Table} (sequence : u.sequence = t.sequence) : Supplies t none u
  | key {offerer : Identity} {r : Record} {u : Table}
      (room : t.nextNumber offerer.proc < Key.sequenceLimit)
      (made : r.key = .compose offerer.proc (t.nextNumber offerer.proc))
        (records : u.records = t.records ++ [r])
      (sequence : u.sequence = t.nextNumber offerer.proc + 1) : Supplies t (some ⟨r.key, offerer⟩) u

theorem supplies_createOffer (t : Table) (name : Name) (wanted offerer : Identity) (conn : ConnId) :
    Supplies t ((t.createOffer name wanted offerer conn).1.map (⟨·, offerer⟩))
      (t.createOffer name wanted offerer conn).2 := by
  rcases made : t.createOffer name wanted offerer conn with ⟨_ | key, s⟩
  · obtain rfl := createOffer_none made
    exact .nothing rfl
  · obtain ⟨-, room, rfl, rfl⟩ := createOffer_some made
    exact .key room rfl rfl rfl

theorem supplies_perform (t : Table) (op : Operation) :
    Supplies t (t.issue? op) (t.perform op) := by
  cases op with
  | matchOrMake name wanted requester conn =>
    have offer := supplies_createOffer t name wanted requester conn
    cases pending : t.pendingOffer? name wanted requester with
    | some r =>
      simp only [issue?, perform, Table.matchOrMake, pending]
      exact .nothing rfl
    | none =>
      rcases made : t.createOffer name wanted requester conn with ⟨_ | key, s⟩
      all_goals
        rw [made] at offer
        simp only [issue?, perform, Table.matchOrMake, pending, made]
        exact offer
  | createOffer name wanted offerer conn => exact supplies_createOffer t name wanted offerer conn
  | retract key caller =>
    apply Supplies.nothing
    simp only [perform, Table.retract]
    split
    · rfl
    · split <;> rfl
  | addEvents key id events =>
    apply Supplies.nothing
    simp only [perform, Table.addEvents]
    split <;> rfl
  | disconnect | reap | clearEvents | amend => exact .nothing rfl

/-- The keys given out on the way from one table to another. -/
inductive Supply : Table → List Issue → Table → Prop where
  | done (t : Table) : Supply t [] t
  | step {t u s : Table} {issue : Option Issue} {log : List Issue} (first : Supplies t issue u)
      (later : Supply u log s) : Supply t (issue.toList ++ log) s

theorem supply_performAll (t : Table) (ops : List Operation) :
    Supply t (t.issues ops) (t.performAll ops) := by
  induction ops generalizing t with
  | nil => exact .done t
  | cons op later ih => exact .step (t.supplies_perform op) (ih (t.perform op))

variable {t s : Table} {log : List Issue}

/-- Every key carries a running number that was not spent at the start. -/
theorem Supply.number (supply : Supply t log s) {i : Issue} (mem : i ∈ log) :
    ∃ n, t.sequence ≤ n ∧ n < Key.sequenceLimit ∧ i.key = .compose i.offerer.proc n ∧
      (i.offerer.proc = 0 → n ≠ 0) := by
  induction supply with
  | done => simp at mem
  | @step t _ _ _ _ first later ih =>
    cases first with
    | nothing sequence =>
      obtain ⟨n, low, facts⟩ := ih mem
      exact ⟨n, by omega, facts⟩
    | @key offerer r _ room made records sequence =>
      have grows := t.le_nextNumber offerer.proc
      rcases List.mem_cons.mp mem with rfl | after
      · refine ⟨t.nextNumber offerer.proc, grows, room, made, ?_⟩
        intro zero
        simp only [nextNumber]
        split
        · simp
        · rename_i started
          exact fun none => started ⟨zero, none⟩
      · obtain ⟨n, low, facts⟩ := ih after
        exact ⟨n, by omega, facts⟩

theorem Supply.key_ne_null (supply : Supply t log s) {i : Issue} (mem : i ∈ log) :
    i.key ≠ .null := by
  obtain ⟨n, -, small, key, passed⟩ := supply.number mem
  intro null
  have zero : (Key.compose i.offerer.proc n).isNull = true := by
    rw [← key, null]
    rfl
  obtain ⟨proc, none⟩ := (Key.isNull_compose _ small).mp zero
  exact passed proc none

theorem Supply.nodup (supply : Supply t log s) : (log.map (·.key)).Nodup := by
  induction supply with
  | done => exact List.nodup_nil
  | step first later ih =>
    cases first with
    | nothing => exact ih
    | key room made records sequence =>
      refine List.nodup_cons.mpr ⟨?_, ih⟩
      intro again
      obtain ⟨i, mem, same⟩ := List.mem_map.mp again
      -- A later key has a number above the one that this key has spent.
      obtain ⟨n, low, small, key, -⟩ := later.number mem
      have equal := Key.number_of_compose small room (key.symm.trans (same.trans made))
      omega

/-- One number is spent on each key, and one more where the null key was passed over. -/
theorem Supply.sequence (supply : Supply t log s) :
    t.sequence + log.length ≤ s.sequence ∧
      s.sequence ≤ t.sequence + log.length + if t.sequence = 0 then 1 else 0 := by
  induction supply with
  | done => simp
  | @step t _ _ _ _ first later ih =>
    cases first with
    | nothing sequence =>
      rw [sequence] at ih
      exact ih
    | @key offerer _ _ room made records sequence =>
      have grows := t.le_nextNumber offerer.proc
      have near : t.nextNumber offerer.proc ≤ t.sequence + if t.sequence = 0 then 1 else 0 := by
        unfold nextNumber
        split <;> simp_all
      simp only [Option.toList_some, List.singleton_append, List.length_cons]
      rw [if_neg (by omega)] at ih
      omega

theorem Sound.get?_issue (sound : t.Sound) {i : Issue} {u : Table} (first : Supplies t (some i) u) :
    t.get? i.key = none := by
  cases first with
  | @key offerer r _ room made records sequence =>
    rw [Table.get?, List.find?_eq_none]
    intro live mem
    obtain ⟨proc, n, below, issued⟩ := sound.issued live mem
    have grows := t.le_nextNumber offerer.proc
    rw [beq_iff_eq]
    intro same
    have equal := Key.number_of_compose (by omega) room (issued.symm.trans (same.trans made))
    omega

theorem createOffer_refused_iff (sound : t.Sound) (name : Name) (wanted offerer : Identity)
    (conn : ConnId) :
    (t.createOffer name wanted offerer conn).1 = none ↔
      t.isFull = true ∨ t.sequence = Key.sequenceLimit := by
  have bound := sound.bounded
  have spent : t.sequence = Key.sequenceLimit ↔ Key.sequenceLimit ≤ t.sequence := by omega
  rw [spent, ← createOffer_eq_none_iff]
  constructor
  · intro refused
    exact Prod.ext refused (createOffer_none (Prod.ext refused rfl))
  · intro refused
    rw [refused]

/-- Along every run the keys are distinct, not null and marked with their processor. The key of the
next operation is that of no live record, so its record joins the others. Offers are refused exactly
when the table is full or the numbers are spent, and then nothing changes. -/
theorem keys_never_reused (capacity : Option Nat) (ops : List Operation) :
    let t := (new capacity).performAll ops
    let log := (new capacity).issues ops
    (log.map (·.key)).Nodup ∧
      (∀ i ∈ log, i.key ≠ .null ∧ (i.key.bits >>> 16).toUInt32 = i.offerer.proc) ∧
      (∀ op i, t.issue? op = some i →
        t.get? i.key = none ∧ ∃ r :
          Record, r.key = i.key ∧ (t.perform op).records = t.records ++ [r]) ∧
      (log.length ≤ t.sequence ∧ t.sequence ≤ log.length + 1) ∧
      ∀ name wanted offerer conn,
        ((t.createOffer name wanted offerer conn).1 = none ↔
          t.isFull = true ∨ t.sequence = Key.sequenceLimit) ∧
        ((t.createOffer name wanted offerer conn).1 = none →
          (t.createOffer name wanted offerer conn).2 = t) := by
  intro t log
  have supply : Supply (new capacity) log t := supply_performAll (new capacity) ops
  have sound : t.Sound := (sound_new capacity).performAll ops
  refine ⟨supply.nodup, ?_, ?_, ?_, ?_⟩
  · intro i mem
    obtain ⟨n, -, small, key, -⟩ := supply.number mem
    refine ⟨supply.key_ne_null mem, ?_⟩
    rw [key, Key.processor_compose _ small]
  · intro op i issued
    have first := t.supplies_perform op
    rw [issued] at first
    refine ⟨sound.get?_issue first, ?_⟩
    cases first with
    | key room made records sequence => exact ⟨_, rfl, records⟩
  · have spent := supply.sequence
    simp only [new, if_true] at spent
    omega
  · intro name wanted offerer conn
    refine ⟨createOffer_refused_iff sound name wanted offerer conn, ?_⟩
    intro refused
    exact createOffer_none (Prod.ext refused rfl)

/-- One processor offers a variable over and over. -/
def offering (name : Name) (n : Nat) : List Operation :=
  List.replicate n (.createOffer name .general ⟨2001, 0, 0⟩ ⟨1⟩)

theorem performAll_offering (name : Name) {n : Nat} (small : n ≤ Key.sequenceLimit) :
    ((new none).performAll (offering name n)).sequence = n ∧
      ((new none).performAll (offering name n)).capacity = none := by
  induction n with
  | zero => exact ⟨rfl, rfl⟩
  | succ n ih =>
    obtain ⟨sequence, capacity⟩ := ih (by omega)
    simp only [offering, performAll] at sequence capacity ⊢
    rw [List.replicate_succ', List.foldl_append, List.foldl_cons, List.foldl_nil]
    generalize List.foldl perform (new none) _ = t at sequence capacity ⊢
    have number : t.nextNumber 2001 = n := by simp [nextNumber, sequence]
    have room : ¬ Key.sequenceLimit ≤ n := by omega
    simp [perform, createOffer_eq, isFull, capacity, number, room]

/-- After as many offers as there are numbers, every key was another one, and no processor gets one
more. -/
theorem keys_never_reused_exhausted :
    ((new none).performAll (offering ⟨"X", by decide⟩ Key.sequenceLimit)).sequence =
      Key.sequenceLimit ∧
      Key.sequenceLimit - 1 ≤
        ((new none).issues (offering ⟨"X", by decide⟩ Key.sequenceLimit)).length ∧
      (((new none).issues (offering ⟨"X", by decide⟩ Key.sequenceLimit)).map (·.key)).Nodup ∧
      (((new none).performAll (offering ⟨"X", by decide⟩ Key.sequenceLimit)).createOffer
        ⟨"Y", by decide⟩ .general
        ⟨0, 0, 0⟩ ⟨2⟩).1 = none := by
  -- The run is far too long to be evaluated, so all that is known of it comes from the lemmas.
  have spent := (performAll_offering ⟨"X", by decide⟩ (Nat.le_refl Key.sequenceLimit)).1
  obtain ⟨nodup, -, -, count, refusals⟩ :=
    keys_never_reused none (offering ⟨"X", by decide⟩ Key.sequenceLimit)
  refine ⟨spent, ?_, nodup, (refusals _ _ _ _).1.mpr (.inr spent)⟩
  rw [spent] at count
  omega

end Table
end SharedVariables
