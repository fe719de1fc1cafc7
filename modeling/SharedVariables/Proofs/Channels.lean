import SharedVariables.Proofs.Seniority

/-! Control and data channels. The pairing of names goes both ways and so does the sharing between
two processors, hence a channel that finds another is found by it, unless an older one of its own
name stands in between. -/
namespace SharedVariables

namespace Pairing

/-- The name of a control channel and that of its data channel. -/
inductive Channels : List Char → List Char → Prop where
  | long (rest : List Char) : Channels ('C' :: 'T' :: 'L' :: rest) ('D' :: 'A' :: 'T' :: rest)
  | short {rest : List Char} (digits : areDigits rest = true) : Channels ('C' :: rest) ('D' :: rest)

theorem channels_of_pairedChars? {a b : List Char} (paired : pairedChars? a = some b) :
    Channels a b ∨ Channels b a := by
  unfold pairedChars? at paired
  split at paired
  · obtain rfl := Option.some.inj paired
    exact .inl (.long _)
  · obtain rfl := Option.some.inj paired
    exact .inr (.long _)
  · split at paired
    · rename_i digits
      obtain rfl := Option.some.inj paired
      exact .inl (.short digits)
    · simp at paired
  · split at paired
    · rename_i digits
      obtain rfl := Option.some.inj paired
      exact .inr (.short digits)
    · simp at paired
  · simp at paired

/-- Digits after the first letter are no long name. -/
theorem not_long_of_digits {c : Char} {rest more : List Char} (digits : areDigits rest = true)
    (letter : c.isDigit = false) : rest ≠ c :: more := by
  rintro rfl
  simp [areDigits, letter] at digits

theorem Channels.pairedChars? {a b : List Char} (channels : Channels a b) :
    pairedChars? a = some b ∧ pairedChars? b = some a := by
  cases channels with
  | long rest => exact ⟨rfl, rfl⟩
  | @short rest digits =>
    have control : ∀ more, rest ≠ 'T' :: more := fun more => not_long_of_digits digits rfl
    have data : ∀ more, rest ≠ 'A' :: more := fun more => not_long_of_digits digits rfl
    constructor
    · simp [Pairing.pairedChars?, control, digits]
    · simp [Pairing.pairedChars?, data, digits]

theorem paired?_iff {a b : String} :
    paired? a = some b ↔ Channels a.toList b.toList ∨ Channels b.toList a.toList := by
  simp only [paired?, Option.map_eq_some_iff]
  constructor
  · rintro ⟨cs, paired, rfl⟩
    rw [String.toList_ofList]
    exact channels_of_pairedChars? paired
  · rintro (channels | channels)
    · exact ⟨b.toList, channels.pairedChars?.1, String.ofList_toList⟩
    · exact ⟨b.toList, channels.pairedChars?.2, String.ofList_toList⟩

theorem paired?_symm {a b : String} (paired : paired? a = some b) : paired? b = some a :=
  paired?_iff.mpr (paired?_iff.mp paired).symm

end Pairing

namespace Record

variable {r s u : Record}

/-- Two records are between the same two identities, in either role. -/
inductive SameIdentities (r s : Record) : Prop where
  | alike (offerer : s.offering.id = r.offering.id) (acceptor : s.accepting.id = r.accepting.id) :
      SameIdentities r s
  | crossed (offerer : s.offering.id = r.accepting.id) (acceptor : s.accepting.id = r.offering.id) :
      SameIdentities r s

theorem samePartners_iff : r.samePartners s = true ↔ r.SameIdentities s := by
  simp only [samePartners, Bool.or_eq_true, Bool.and_eq_true, beq_iff_eq]
  constructor
  · rintro (⟨offerer, acceptor⟩ | ⟨offerer, acceptor⟩)
    · exact .alike offerer acceptor
    · exact .crossed offerer acceptor
  · rintro (⟨offerer, acceptor⟩ | ⟨offerer, acceptor⟩)
    · exact .inl ⟨offerer, acceptor⟩
    · exact .inr ⟨offerer, acceptor⟩

theorem SameIdentities.symm (same : r.SameIdentities s) : s.SameIdentities r := by
  cases same with
  | alike offerer acceptor => exact .alike offerer.symm acceptor.symm
  | crossed offerer acceptor => exact .crossed acceptor.symm offerer.symm

theorem SameIdentities.trans (first : r.SameIdentities s) (second : s.SameIdentities u) :
    r.SameIdentities u := by
  cases first with
  | alike offerer acceptor =>
    cases second with
    | alike offerer' acceptor' => exact .alike (offerer'.trans offerer) (acceptor'.trans acceptor)
    | crossed offerer' acceptor' =>
      exact .crossed (offerer'.trans acceptor) (acceptor'.trans offerer)
  | crossed offerer acceptor =>
    cases second with
    | alike offerer' acceptor' => exact .crossed (offerer'.trans offerer) (acceptor'.trans acceptor)
    | crossed offerer' acceptor' => exact .alike (offerer'.trans acceptor) (acceptor'.trans offerer)

/-- Another record that carries the paired name between the same two identities. -/
structure Counterpart (r s : Record) : Prop where
  another : s.key ≠ r.key
  paired : Pairing.paired? r.name.text = some s.name.text
  between : r.SameIdentities s

theorem Counterpart.symm (counterpart : r.Counterpart s) : s.Counterpart r :=
  ⟨counterpart.another.symm, Pairing.paired?_symm counterpart.paired, counterpart.between.symm⟩

theorem Counterpart.name_eq (there : r.Counterpart s) (back : s.Counterpart u) :
    u.name = r.name := by
  have text : u.name.text = r.name.text :=
    Option.some.inj (back.paired.symm.trans there.symm.paired)
  cases hu : u.name
  cases hr : r.name
  simpa [hu, hr] using text

end Record

namespace Table

variable {t : Table} {history : List Key} {key : Key} {r s : Record}

/-- The key that is found is that of the eldest counterpart. -/
theorem Dated.pairingKey?_iff (dated : t.Dated history) (mem : r ∈ t.records) {other : Key} :
    t.pairingKey? r.key = some other ↔ ∃ s, t.Eldest history r.Counterpart s ∧ s.key = other := by
  have found := dated.sound.get? mem
  cases paired : Pairing.paired? r.name.text with
  | none =>
    simp only [pairingKey?, found, paired, Option.bind_eq_bind, Option.bind_some, Option.bind_none,
      reduceCtorEq, false_iff]
    rintro ⟨s, eldest, -⟩
    simp [eldest.fits.paired] at paired
  | some wanted =>
    have same : ∀ s : Record, (s.key != r.key && s.name.text == wanted && r.samePartners s) = true ↔
        r.Counterpart s := by
      intro s
      simp only [Bool.and_eq_true, bne_iff_ne, beq_iff_eq, Record.samePartners_iff]
      constructor
      · rintro ⟨⟨another, named⟩, between⟩
        exact ⟨another, by rw [paired, named], between⟩
      · rintro ⟨another, named, between⟩
        exact ⟨⟨another, (Option.some.inj (paired.symm.trans named)).symm⟩, between⟩
    simp only [pairingKey?, found, paired, Option.bind_eq_bind, Option.bind_some, Option.pure_def,
      Option.bind_eq_some_iff, Option.some.injEq]
    exact exists_congr fun s => and_congr_left fun _ => dated.oldest?_iff same

theorem Dated.pairingKey?_isSome_iff (dated : t.Dated history) (mem : r ∈ t.records) :
    (t.pairingKey? r.key).isSome = true ↔ ∃ s ∈ t.records, r.Counterpart s := by
  rw [Option.isSome_iff_exists]
  constructor
  · rintro ⟨other, found⟩
    obtain ⟨s, eldest, -⟩ := (dated.pairingKey?_iff mem).mp found
    exact ⟨s, eldest.mem, eldest.fits⟩
  · rintro ⟨s, there, counterpart⟩
    obtain ⟨eldest, first⟩ := dated.exists_eldest there counterpart
    exact ⟨eldest.key, (dated.pairingKey?_iff mem).mpr ⟨eldest, first, rfl⟩⟩

theorem Eldest.eq_or_older {P : Record → Prop} (eldest : t.Eldest history P s)
    (mem : r ∈ t.records) (fits : P r) :
    s = r ∨ Older history s r := by
  by_cases same : s = r
  · exact .inl same
  · exact .inr (eldest.first r mem fits fun is => same is.symm)

/-- A channel finds another exactly where one with the paired name is shared between the same two
processors, and then the eldest of these. From there the search leads back to a channel of its own
name between the same two processors, not younger than itself, and to itself where it is the only
one. -/
theorem channels_find_each_other (capacity : Option Nat) (ops : List Operation) (key : Key)
    (r : Record) (found : ((new capacity).performAll ops).get? key = some r) :
    let t := (new capacity).performAll ops
    let history := ((new capacity).issues ops).map (·.key)
    ((t.pairingKey? key).isSome = true ↔
      ∃ wanted, Pairing.paired? r.name.text = some wanted ∧
        ∃ s ∈ t.records, s.key ≠ key ∧ s.name.text = wanted ∧ r.SameIdentities s) ∧
    ∀ other, t.pairingKey? key = some other → other ≠ key ∧
      ∃ s, t.get? other = some s ∧ t.Eldest history r.Counterpart s ∧
      ∃ back u, t.pairingKey? other = some back ∧ t.get? back = some u ∧ u.name = r.name ∧
        r.SameIdentities u ∧
        (u = r ∨ Older history u r) ∧
        ((∀ v ∈ t.records, v.name = r.name → r.SameIdentities v → v = r) → back = key) := by
  intro t history
  have dated : t.Dated history := dated_performAll capacity ops
  obtain ⟨mem, rfl⟩ := dated.sound.get?_iff.mp found
  constructor
  · rw [dated.pairingKey?_isSome_iff mem]
    constructor
    · rintro ⟨s, there, another, paired, between⟩
      exact ⟨s.name.text, paired, s, there, another, rfl, between⟩
    · rintro ⟨-, paired, s, there, another, rfl, between⟩
      exact ⟨s, there, another, paired, between⟩
  · intro other given
    obtain ⟨s, eldest, rfl⟩ := (dated.pairingKey?_iff mem).mp given
    -- The record itself is a counterpart of what it has found, so the way back leads somewhere.
    obtain ⟨u, first⟩ := dated.exists_eldest mem eldest.fits.symm
    have back := (dated.pairingKey?_iff eldest.mem).mpr ⟨u, first, rfl⟩
    have name := eldest.fits.name_eq first.fits
    have between := eldest.fits.between.trans first.fits.between
    refine ⟨eldest.fits.another, s, dated.sound.get? eldest.mem, eldest, u.key, u, back,
      dated.sound.get? first.mem, name,
      between, first.eq_or_older mem eldest.fits.symm, ?_⟩
    intro only
    rw [only u first.mem name between]

/-- A processor has offered one control channel twice, and its partner has offered the data channel
in return. From the younger control channel the search leads to the data channel, and from there to
the elder. -/
theorem channels_find_each_other_twice :
    let control : Name := ⟨"CTL1", by decide⟩
    let data : Name := ⟨"DAT1", by decide⟩
    let one : Identity := ⟨2001, 0, 0⟩
    let other : Identity := ⟨2002, 0, 0⟩
    let ops : List Operation :=
      [.matchOrMake control other one ⟨1⟩, .matchOrMake control other one ⟨1⟩,
      .matchOrMake data one other ⟨2⟩]
    let t := (new none).performAll ops
    let history := ((new none).issues ops).map (·.key)
    let younger : Record :=
      { key := .compose 2001 1, name := control, offering := .active one ⟨1⟩
        accepting := { id := other, events := .made }, serial := 1 }
    t.get? younger.key = some younger ∧ t.pairingKey? younger.key = some (.compose 2002 2) ∧
      ∃ s, t.get? (.compose 2002 2) = some s ∧ t.Eldest history younger.Counterpart s ∧
      ∃ elder, t.pairingKey? s.key = some (.compose 2001 0) ∧
        t.get? (.compose 2001 0) = some elder ∧
        elder.name = control ∧ Older history elder younger := by
  intro control data one other ops t history younger
  have found : t.get? younger.key = some younger := by decide +kernel
  have given : t.pairingKey? younger.key = some (.compose 2002 2) := by decide +kernel
  have returned : t.pairingKey? (.compose 2002 2) = some (.compose 2001 0) := by decide +kernel
  obtain ⟨-, s, there, eldest, back, elder, leads, stands, name, -, age, -⟩ :=
    (channels_find_each_other none ops younger.key younger found).2 _ given
  obtain rfl := Option.some.inj (returned.symm.trans leads)
  have key : s.key = .compose 2002 2 := by simpa using List.find?_some there
  refine ⟨found, given, s, there, eldest, elder, by
    rw [key]; exact returned, stands, name, age.resolve_left ?_⟩
  rintro rfl
  have same : younger.key = .compose 2001 0 := by simpa using List.find?_some stands
  exact absurd same (by decide)

end Table
end SharedVariables
