import SharedVariables.Proofs.Enumeration
import SharedVariables.Proofs.Holding
import SharedVariables.Proofs.Posting

/-! The order in which the variables came to be. A history lists the keys of all offers in the order
in which they were recorded. Serials follow it, so what is chosen or sorted by serial is chosen or
sorted by creation. -/
namespace SharedVariables

namespace Table

variable {t : Table} {history : List Key} {log : List Issue} {r s : Record} {rs : List Record}
  {p : Record → Bool}
  {P Q : Record → Prop}

def Older (history : List Key) (r s : Record) : Prop := history.idxOf r.key < history.idxOf s.key

/-- The records of a table were created in the order that a history tells. -/
structure Dated (history : List Key) (t : Table) : Prop where
  sound : t.Sound
  nodup : history.Nodup
  created : ∀ r ∈ t.records, history[r.serial]? = some r.key

/-- The first created of the records with a property. -/
structure Eldest (history : List Key) (t : Table) (P : Record → Prop) (r : Record) : Prop where
  mem : r ∈ t.records
  fits : P r
  first : ∀ s ∈ t.records, P s → s ≠ r → Older history r s

/-- The records with a property, in the order of their creation. -/
structure Listing (history : List Key) (t : Table) (P : Record → Prop) (rs : List Record) :
    Prop where
  mem_iff : ∀ r, r ∈ rs ↔ r ∈ t.records ∧ P r
  ordered : rs.Pairwise (Older history)

theorem Chronicled.dated (kept : t.Chronicled log) (nodup : (log.map (·.key)).Nodup) :
    t.Dated (log.map (·.key)) := by
  refine ⟨kept.sound, nodup, ?_⟩
  intro r mem
  rw [List.getElem?_map, kept.created r mem, Option.map_some]

theorem dated_performAll (capacity : Option Nat) (ops : List Operation) :
    ((new capacity).performAll ops).Dated (((new capacity).issues ops).map (·.key)) :=
  (chronicled_run capacity ops).dated (supply_performAll (new capacity) ops).nodup

theorem Dated.idxOf_key (dated : t.Dated history) (mem : r ∈ t.records) :
    history.idxOf r.key = r.serial := by
  obtain ⟨small, here⟩ := List.getElem?_eq_some_iff.mp (dated.created r mem)
  rw [← here]
  exact dated.nodup.idxOf_getElem _ small

theorem Dated.older_iff (dated : t.Dated history) (one : r ∈ t.records) (other : s ∈ t.records) :
    Older history r s ↔ r.serial < s.serial := by
  rw [Older, dated.idxOf_key one, dated.idxOf_key other]

theorem Dated.eq_of_serial (dated : t.Dated history) (one : r ∈ t.records) (other : s ∈ t.records)
    (same : r.serial = s.serial) : r = s := by
  have key := dated.created r one
  rw [same, dated.created s other] at key
  exact dated.sound.eq_of_key one other (Option.some.inj key).symm

theorem Dated.oldest?_iff (dated : t.Dated history) (same : ∀ r, p r = true ↔ P r) :
    t.oldest? p = some r ↔ t.Eldest history P r := by
  constructor
  · intro found
    obtain ⟨mem, fits⟩ := oldestIn_some found
    refine ⟨mem, (same r).mp fits, ?_⟩
    intro s there also apart
    have le := oldestIn_le found there ((same s).mpr also)
    have ne : r.serial ≠ s.serial := fun equal => apart (dated.eq_of_serial mem there equal).symm
    exact (dated.older_iff mem there).mpr (by omega)
  · intro eldest
    obtain ⟨oldest, found, le⟩ := oldestIn_least eldest.mem ((same r).mpr eldest.fits)
    obtain ⟨there, fits⟩ := oldestIn_some found
    have equal : oldest = r := by
      refine Classical.byContradiction fun apart => ?_
      have older := eldest.first oldest there ((same oldest).mp fits) apart
      have lt := (dated.older_iff eldest.mem there).mp older
      omega
    rw [← equal]
    exact found

theorem oldest?_eq_none_iff (same : ∀ r, p r = true ↔ P r) :
    t.oldest? p = none ↔ ∀ r ∈ t.records, ¬ P r := by
  constructor
  · intro none r mem fits
    obtain ⟨oldest, found, -⟩ := oldestIn_least mem ((same r).mpr fits)
    rw [oldest?, found] at none
    simp at none
  · intro without
    rw [Option.eq_none_iff_forall_ne_some]
    intro r found
    obtain ⟨mem, fits⟩ := oldestIn_some found
    exact without r mem ((same r).mp fits)

theorem Eldest.unique (one : t.Eldest history P r) (other : t.Eldest history P s) : r = s := by
  refine Classical.byContradiction fun apart => ?_
  have older := one.first s other.mem other.fits fun same => apart same.symm
  have younger := other.first r one.mem one.fits apart
  simp only [Older] at older younger
  omega

theorem Eldest.and (eldest : t.Eldest history P r) (also : Q r) :
    t.Eldest history (fun r => P r ∧ Q r) r :=
  ⟨eldest.mem, ⟨eldest.fits, also⟩, fun s mem fits => eldest.first s mem fits.1⟩

theorem Dated.exists_eldest (dated : t.Dated history) (mem : r ∈ t.records) (fits : P r) :
    ∃ eldest, t.Eldest history P eldest := by
  have := Classical.decPred P
  have same : ∀ r, decide (P r) = true ↔ P r := fun r => decide_eq_true_iff
  cases found : t.oldest? (fun r => decide (P r)) with
  | none => exact absurd fits ((oldest?_eq_none_iff same).mp found r mem)
  | some eldest => exact ⟨eldest, (dated.oldest?_iff same).mp found⟩

theorem Dated.listing (dated : t.Dated history) (same : ∀ r, p r = true ↔ P r) :
    t.Listing history P (t.byAge.filter p) := by
  constructor
  · intro r
    rw [List.mem_filter, byAge, List.mem_mergeSort, same]
  · have distinct : t.records.Nodup :=
      List.Pairwise.of_map Record.key (fun _ _ apart same => apart (congrArg Record.key same))
        dated.sound.distinct
    have nodup : t.byAge.Nodup := (List.mergeSort_perm _ _).nodup_iff.mpr distinct
    have strict := t.pairwise_byAge.and nodup
    refine List.Pairwise.filter p (strict.imp_of_mem ?_)
    intro r s one other sorted
    have here := List.mem_mergeSort.mp one
    have there := List.mem_mergeSort.mp other
    have ne : r.serial ≠ s.serial := fun equal => sorted.2 (dated.eq_of_serial here there equal)
    exact (dated.older_iff here there).mpr (by omega)

theorem Listing.congr (listing : t.Listing history P rs) (same : ∀ r ∈ t.records, P r ↔ Q r) :
    t.Listing history Q rs := by
  refine ⟨fun r => ?_, listing.ordered⟩
  rw [listing.mem_iff]
  exact and_congr_right fun mem => same r mem

theorem Listing.filter (listing : t.Listing history P rs) (p : Record → Bool) :
    t.Listing history (fun r => P r ∧ p r = true) (rs.filter p) := by
  refine ⟨fun r => ?_, List.Pairwise.filter p listing.ordered⟩
  rw [List.mem_filter, listing.mem_iff, and_assoc]

theorem performAll_append (t : Table) (ops later : List Operation) :
    t.performAll (ops ++ later) = (t.performAll ops).performAll later :=
  List.foldl_append

theorem performAll_concat (t : Table) (ops : List Operation) (op : Operation) :
    t.performAll (ops ++ [op]) = (t.performAll ops).perform op :=
  t.performAll_append ops [op]

theorem issues_append (t : Table) (ops later : List Operation) :
    t.issues (ops ++ later) = t.issues ops ++ (t.performAll ops).issues later := by
  induction ops generalizing t with
  | nil => rfl
  | cons op ops ih =>
    simp only [List.cons_append, issues, ih, List.append_assoc]
    rfl

/-- What is given out next was never given out before. -/
theorem fresh_issue {capacity : Option Nat} {ops : List Operation} {op : Operation} {i : Issue}
    (issued : ((new capacity).performAll ops).issue? op = some i) :
    i.key ∉ ((new capacity).issues ops).map (·.key) ∧ i.key ≠ .null ∧
      ((new capacity).performAll ops).get? i.key = none := by
  have log : (new capacity).issues (ops ++ [op]) = (new capacity).issues ops ++ [i] := by
    rw [issues_append, issues, issues, issued]
    rfl
  have supply := supply_performAll (new capacity) (ops ++ [op])
  rw [log] at supply
  have distinct := supply.nodup
  rw [List.map_append, List.nodup_append] at distinct
  have first := ((new capacity).performAll ops).supplies_perform op
  rw [issued] at first
  refine ⟨fun before => distinct.2.2 _ before _ List.mem_cons_self rfl, ?_, ?_⟩
  · exact supply.key_ne_null (List.mem_append_right _ List.mem_cons_self)
  · exact ((sound_new capacity).performAll ops).get?_issue first

theorem issues_disconnect (t : Table) (gone : List ConnId) :
    t.issues (gone.map .disconnect) = [] := by
  induction gone generalizing t with
  | nil => rfl
  | cons conn rest ih => exact ih (t.perform (.disconnect conn))

end Table

/-- The key that a reply tells of a new offer. -/
def Signal.newOffer? : Signal → Option Key
  | .matchOrMakeResult key .offered => some key
  | _ => none

theorem Signal.newOffer?_of_kind {s : Signal} (other : s.kind ≠ .matchOrMakeResult) :
    s.newOffer? = none := by
  cases s with
  | matchOrMakeResult => exact absurd rfl other
  | _ => rfl

theorem Signal.Kind.eq_matchOrMake {k : Kind} (answered : k.answer = .matchOrMakeResult) :
    k = .matchOrMake := by
  revert answered
  cases k <;> decide

namespace Broker

variable {b : Broker}

def created? (b : Broker) : Occurrence → Option Key
  | .request conn request => (b.dispatch conn request).1.newOffer?
  | _ => none

/-- The keys of the offers that were made along a run, in the order in which they were told. -/
def creations (b : Broker) : List Occurrence → List Key
  | [] => []
  | event :: rest => (b.created? event).toList ++ (b.step event).1.creations rest

theorem handle_matchOrMake (b : Broker) (conn : ConnId) (text : String)
    (wanted requester : Identity) :
    let handling := b.handle conn (.matchOrMake text wanted requester)
    (∃ fault, handling = b.refuse fault) ∨
      ∃ name, handling.outcome =
        .ok (.matchOrMakeResult (b.table.matchOrMake name wanted requester conn).1.key
          (b.table.matchOrMake name wanted requester conn).1.coupling) ∧
        handling.broker.table = b.table.perform (.matchOrMake name wanted requester conn) := by
  simp only [handle, matchOrMake]
  split
  · exact .inl ⟨_, rfl⟩
  · split
    · exact .inl ⟨_, rfl⟩
    · split
      · exact .inl ⟨_, rfl⟩
      · rename_i name _
        split
        · rename_i full
          rw [Table.matchOrMake_full full]
          exact .inl ⟨_, rfl⟩
        · rename_i done
          refine .inr ⟨name, ?_, ?_⟩
          · rw [done]
          · simp only [Table.perform, done]

/-- What a request does to the table, and the offer that it makes there, if it makes one. -/
theorem handle_creates (sound : b.table.Sound) (conn : ConnId) (request : Signal) :
    ∃ ops, (b.handle conn request).broker.table = b.table.performAll ops ∧
      (b.table.issues ops).map (·.key) = (b.dispatch conn request).1.newOffer?.toList := by
  by_cases shares : request.kind = .matchOrMake
  · cases request with
    | matchOrMake text wanted requester =>
      rcases b.handle_matchOrMake conn text wanted requester with
        ⟨fault, refused⟩ | ⟨name, told, table⟩
      · refine ⟨[], by rw [refused]; rfl, ?_⟩
        rw [dispatch, refused]
        rfl
      · refine ⟨[.matchOrMake name wanted requester conn], table, ?_⟩
        rw [dispatch_reply told]
        simp only [Table.issues, Table.issue?]
        cases (b.table.matchOrMake name wanted requester conn).1 <;> rfl
    | _ => simp [Signal.kind] at shares
  · have silent : (b.dispatch conn request).1.newOffer? = none := by
      apply Signal.newOffer?_of_kind
      rw [kind_dispatch]
      exact fun answered => shares (Signal.Kind.eq_matchOrMake answered)
    rw [silent]
    rcases handle_enacts sound conn request with same | ⟨op, enacts, done⟩
    · exact ⟨[], same, rfl⟩
    · refine ⟨[op], done, ?_⟩
      cases enacts with
      | share => exact absurd rfl shares
      | _ => rfl

theorem Departs.performs {last : Broker} {pending : List ConnId} {posts : List Post}
    (departs : Departs b pending last posts) :
    ∃ gone : List ConnId, last.table = b.table.performAll (gone.map .disconnect) := by
  induction departs with
  | done b => exact ⟨[], rfl⟩
  | absent _ _ ih => exact ih
  | plain _ _ _ ih => exact ih
  | @processor b _ conn _ _ _ _ _ _ _ _ _ ih =>
    obtain ⟨gone, done⟩ := ih
    exact ⟨conn :: gone, done⟩

theorem step_creates (sound : b.table.Sound) (event : Occurrence) :
    ∃ ops, (b.step event).1.table = b.table.performAll ops ∧
      (b.table.issues ops).map (·.key) = (b.created? event).toList := by
  cases event with
  | connected | malformed => exact ⟨[], rfl, rfl⟩
  | request conn request =>
    simp only [step, dispatch_broker]
    exact handle_creates sound conn request
  | disconnected conn =>
    obtain ⟨gone, done⟩ := (depart_departs b [conn]).performs
    exact ⟨gone.map .disconnect, done, by rw [Table.issues_disconnect]; rfl⟩

theorem run_creates (sound : b.table.Sound) (events : List Occurrence) :
    ∃ ops, (b.run events).1.table = b.table.performAll ops ∧
      (b.table.issues ops).map (·.key) = b.creations events := by
  induction events generalizing b with
  | nil => exact ⟨[], rfl, rfl⟩
  | cons event rest ih =>
    obtain ⟨first, done, made⟩ := step_creates sound event
    obtain ⟨later, after, offers⟩ := ih (done ▸ sound.performAll first)
    refine ⟨first ++ later, after.trans ?_, ?_⟩
    · rw [done, Table.performAll_append]
    · rw [Table.issues_append, List.map_append, made, ← done, offers, creations]

/-- Whatever happens is done to the table by operations. -/
theorem step_performs (sound : b.table.Sound) (event : Occurrence) :
    ∃ ops, (b.step event).1.table = b.table.performAll ops := by
  obtain ⟨ops, done, -⟩ := step_creates sound event
  exact ⟨ops, done⟩

theorem run_performs (sound : b.table.Sound) (events : List Occurrence) :
    ∃ ops, (b.run events).1.table = b.table.performAll ops := by
  obtain ⟨ops, done, -⟩ := run_creates sound events
  exact ⟨ops, done⟩

theorem dated_run (capacity : Option Nat) (wording : Wording) (events : List Occurrence) :
    ((new capacity wording).run events).1.table.Dated
      ((new capacity wording).creations events) := by
  obtain ⟨ops, done, made⟩ :=
    run_creates (b := new capacity wording) (Table.sound_new capacity) events
  rw [done, ← made]
  exact Table.dated_performAll capacity ops

end Broker
end SharedVariables
