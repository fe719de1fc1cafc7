import Mathlib.Data.List.Nodup
import SharedVariables.Proofs.Advertising

/-! Who has something to offer. The list of offerers is gathered offer by offer, each name at its
first offer, and agrees with the matching rule for every processor that asks. -/
namespace SharedVariables

namespace Table

variable {R : Record → Record → Prop} {seen firsts : List Record} {r s : Record}

/-- Of a list of records, the first of each offerer. -/
structure Firsts (R : Record → Record → Prop) (seen firsts : List Record) : Prop where
  sublist : firsts.Sublist seen
  distinct : (firsts.map (·.offering.id)).Nodup
  first : ∀ s ∈ seen, ∃ r ∈ firsts, r.offering.id = s.offering.id ∧ (r = s ∨ R r s)

theorem Firsts.nil : Firsts R [] [] := ⟨.slnil, .nil, by simp⟩

theorem Firsts.known (heads : Firsts R seen firsts) (known : r ∈ firsts)
    (same : r.offering.id = s.offering.id) (later : ∀ r ∈ seen, R r s) :
    Firsts R (seen ++ [s]) firsts := by
  refine ⟨heads.sublist.trans (List.sublist_append_left seen [s]), heads.distinct, ?_⟩
  intro u mem
  rcases List.mem_append.mp mem with old | new
  · exact heads.first u old
  · obtain rfl := List.mem_singleton.mp new
    exact ⟨r, known, same, .inr (later r (heads.sublist.subset known))⟩

theorem Firsts.unknown (heads : Firsts R seen firsts)
    (new : s.offering.id ∉ firsts.map (·.offering.id)) :
    Firsts R (seen ++ [s]) (firsts ++ [s]) := by
  refine ⟨heads.sublist.append (.refl [s]), ?_, ?_⟩
  · rw [List.map_append, List.nodup_append]
    refine ⟨heads.distinct, by simp, ?_⟩
    rintro id old other last rfl
    obtain rfl : id = s.offering.id := by simpa using last
    exact new old
  · intro u mem
    rcases List.mem_append.mp mem with old | last
    · obtain ⟨r, known, first⟩ := heads.first u old
      exact ⟨r, List.mem_append_left [s] known, first⟩
    · obtain rfl := List.mem_singleton.mp last
      exact ⟨u, by simp, rfl, .inl rfl⟩

/-- One more offer names its offerer, unless it is named already. -/
theorem Firsts.step (heads : Firsts R seen firsts) (later : ∀ r ∈ seen, R r s) :
    ∃ more, Firsts R (seen ++ [s]) more ∧
      appendNew (firsts.map (·.offering.id)) s.offering.id = more.map (·.offering.id) := by
  by_cases named : s.offering.id ∈ firsts.map (·.offering.id)
  · obtain ⟨r, known, same⟩ := List.mem_map.mp named
    exact ⟨firsts, heads.known known same later, if_pos named⟩
  · refine ⟨firsts ++ [s], heads.unknown named, ?_⟩
    rw [appendNew, if_neg named, List.map_append]
    rfl

theorem Firsts.run (heads : Firsts R seen firsts) (rest : List Record)
    (ordered : (seen ++ rest).Pairwise R) :
    ∃ last, Firsts R (seen ++ rest) last ∧
      rest.foldl (fun ids r => appendNew ids r.offering.id) (firsts.map (·.offering.id)) =
        last.map (·.offering.id) := by
  induction rest generalizing seen firsts with
  | nil => exact ⟨firsts, by rwa [List.append_nil], rfl⟩
  | cons s rest ih =>
    have later : ∀ r ∈ seen, R r s := fun r mem =>
      (List.pairwise_append.mp ordered).2.2 r mem s List.mem_cons_self
    obtain ⟨more, next, named⟩ := heads.step later
    have grown : seen ++ s :: rest = (seen ++ [s]) ++ rest := by simp
    rw [grown] at ordered ⊢
    rw [List.foldl_cons, named]
    exact ih next ordered

variable {t : Table} {history : List Key} {P : Record → Prop} {rs : List Record}

/-- The first offer of an offerer in a list by age is the eldest that it has. -/
theorem Firsts.eldest (heads : Firsts (Older history) rs firsts)
    (listing : t.Listing history P rs) (mem : r ∈ firsts) :
    t.Eldest history (fun s => s.offering.id = r.offering.id ∧ P s) r := by
  obtain ⟨here, fits⟩ := (listing.mem_iff r).mp (heads.sublist.subset mem)
  refine ⟨here, ⟨rfl, fits⟩, ?_⟩
  rintro s there ⟨same, also⟩ apart
  obtain ⟨first, known, name, older⟩ := heads.first s ((listing.mem_iff s).mpr ⟨there, also⟩)
  obtain rfl := List.inj_on_of_nodup_map heads.distinct known mem (name.trans same)
  exact older.resolve_left fun is => apart is.symm

theorem Firsts.named_iff (heads : Firsts R rs firsts) {id : Identity} :
    id ∈ firsts.map (·.offering.id) ↔ ∃ r ∈ rs, r.offering.id = id := by
  rw [List.mem_map]
  constructor
  · rintro ⟨r, mem, named⟩
    exact ⟨r, heads.sublist.subset mem, named⟩
  · rintro ⟨s, mem, named⟩
    obtain ⟨r, known, same, -⟩ := heads.first s mem
    exact ⟨r, known, same.trans named⟩

end Table

namespace Broker

variable {b : Broker}

theorem Upkept.acceptable_listing {history : List Key} (upkept : b.Upkept [])
    (dated : b.table.Dated history) (target : Identity) :
    b.table.Listing history (Record.Acceptable target)
      (b.table.byAge.filter fun r => r.isOpenTo target.proc && r.offering.id != target) := by
  have listing :=
    dated.listing (p := fun r => r.isOpenTo target.proc && r.offering.id != target) fun r => Iff.rfl
  refine listing.congr fun r mem => ?_
  rw [Bool.and_eq_true, Record.isOpenTo_iff (upkept.offerer_particular mem), bne_iff_ne]
  constructor
  · rintro ⟨acceptable | ownOffer, other⟩
    · exact acceptable
    · exact absurd ownOffer.own other
  · intro acceptable
    exact ⟨.inl acceptable, acceptable.other⟩

/-- A processor that asks for offerers is told each once, exactly those with a pending offer that it
could take up by a request for the offerer or by one to anyone, and in the order in which the eldest
such offer of each was made. -/
theorem offerers_advertised (capacity : Option Nat) (wording : Wording) (events : List Occurrence)
    (target : Identity) (distinct : (events.filterMap Occurrence.opened).Nodup) :
    let t := ((new capacity wording).run events).1.table
    let history := (new capacity wording).creations events
    let told := t.offeringProcessors target
    told.Nodup ∧
    (∀ offerer, offerer ∈ told ↔ ∃ r ∈ t.records, r.offering.id = offerer ∧ r.isPending = true ∧
      (r.fits offerer target = true ∨ r.fits .general target = true)) ∧
    told.Pairwise fun one other => ∃ r s,
      t.Eldest history (fun r => r.offering.id = one ∧ r.Acceptable target) r ∧
      t.Eldest history (fun r => r.offering.id = other ∧ r.Acceptable target) s ∧
        Table.Older history r s := by
  intro t history told
  have listing :=
    (upkept_run capacity wording distinct).acceptable_listing
      (dated_run capacity wording events) target
  obtain ⟨firsts, heads, gathered⟩ := Table.Firsts.nil.run _ listing.ordered
  have named : told = firsts.map (·.offering.id) := gathered
  rw [named]
  refine ⟨heads.distinct, ?_, ?_⟩
  · intro offerer
    rw [heads.named_iff]
    constructor
    · rintro ⟨r, mem, rfl⟩
      obtain ⟨here, acceptable⟩ := (listing.mem_iff r).mp mem
      exact ⟨r, here, rfl, acceptable⟩
    · rintro ⟨r, here, rfl, acceptable⟩
      exact ⟨r, (listing.mem_iff r).mpr ⟨here, acceptable⟩, rfl⟩
  · rw [List.pairwise_map]
    refine (listing.ordered.sublist heads.sublist).imp_of_mem ?_
    intro r s one other older
    exact ⟨r, s, heads.eldest listing one, heads.eldest listing other, older⟩

/-- One processor offers to a third first, which counts for nothing here, and to the number of the
one that asks only after another has offered to anyone. The one that asks has an offer of its own.
It is told of the other two, in the order of the offers that are for it. -/
theorem offerers_advertised_late :
    let target : Identity := ⟨2001, 0, 0⟩
    let early : Identity := ⟨2002, 0, 0⟩
    let late : Identity := ⟨2003, 0, 0⟩
    let events : List Occurrence := [.connected ⟨1⟩ "", .request ⟨1⟩ (.registerProcessor target 7),
      .connected ⟨2⟩ "", .request ⟨2⟩ (.registerProcessor early 8),
      .connected ⟨3⟩ "", .request ⟨3⟩ (.registerProcessor late 9),
      .request ⟨3⟩ (.matchOrMake "U" ⟨2004, 0, 0⟩ late),
        .request ⟨2⟩ (.matchOrMake "X" .general early),
      .request ⟨3⟩ (.matchOrMake "Y" ⟨2001, 5, 0⟩ late),
        .request ⟨2⟩ (.matchOrMake "Z" target early),
      .request ⟨1⟩ (.matchOrMake "W" .general target)]
    let t := ((new none {}).run events).1.table
    (events.filterMap Occurrence.opened).Nodup ∧ t.offeringProcessors target = [early, late] ∧
      ∃ r s, t.Eldest ((new none {}).creations events)
        (fun r => r.offering.id = early ∧ r.Acceptable target) r ∧
        t.Eldest ((new none {}).creations events)
          (fun r => r.offering.id = late ∧ r.Acceptable target) s ∧
        Table.Older ((new none {}).creations events) r s := by
  intro target early late events t
  have distinct : (events.filterMap Occurrence.opened).Nodup := by decide
  have sorted : t.byAge = t.records := List.mergeSort_of_pairwise (by decide +kernel)
  have told : t.offeringProcessors target = [early, late] := by
    rw [Table.offeringProcessors, sorted]
    decide +kernel
  obtain ⟨-, -, ordered⟩ := offerers_advertised none {} events target distinct
  refine ⟨distinct, told, ?_⟩
  rw [told, List.pairwise_pair] at ordered
  exact ordered

end Broker
end SharedVariables
