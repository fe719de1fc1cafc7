import SharedVariables.Proofs.Channels

/-! The names of channels come in pairs. A name has a pair exactly if it is of the long or of the
short form. The pair is of the same form and just as long, and leads back to the name itself. -/
namespace SharedVariables

namespace Name

theorem ofText_ok_iff {s : String} : (∃ name, ofText s = .ok name) ↔ defect? s = none := by
  unfold ofText
  split
  · rename_i sound
    simp [sound]
  · rename_i reason defect
    simp [defect]

end Name

namespace Pairing

/-- The long form of a name: `CTL` or `DAT` and any rest. -/
def IsLong (s : String) : Prop := ∃ rest, s = "CTL" ++ rest ∨ s = "DAT" ++ rest

/-- The short form of a name: `C` or `D` and one or more digits. -/
def IsShort (s : String) : Prop :=
  ∃ digits, digits ≠ "" ∧ (∀ c ∈ digits.toList, '0' ≤ c ∧ c ≤ '9') ∧
    (s = "C" ++ digits ∨ s = "D" ++ digits)

variable {a b : String}

theorem areDigits_iff {digits : String} :
    areDigits digits.toList = true ↔ digits ≠ "" ∧ ∀ c ∈ digits.toList, '0' ≤ c ∧ c ≤ '9' := by
  simp [areDigits, Char.isDigit, Char.le_def]

theorem channels_iff : Channels a.toList b.toList ↔
    (∃ rest, a = "CTL" ++ rest ∧ b = "DAT" ++ rest) ∨
      ∃ digits, areDigits digits.toList = true ∧ a = "C" ++ digits ∧ b = "D" ++ digits := by
  constructor
  · intro channels
    generalize control : a.toList = cs, data : b.toList = ds at channels
    cases channels with
    | long rest =>
      refine .inl ⟨String.ofList rest, ?_, ?_⟩
      · exact String.toList_inj.mp (by simp [control])
      · exact String.toList_inj.mp (by simp [data])
    | @short rest digits =>
      refine .inr ⟨String.ofList rest, by rwa [String.toList_ofList], ?_, ?_⟩
      · exact String.toList_inj.mp (by simp [control])
      · exact String.toList_inj.mp (by simp [data])
  · rintro (⟨rest, rfl, rfl⟩ | ⟨digits, all, rfl, rfl⟩)
    · simpa using Channels.long rest.toList
    · simpa using Channels.short all

/-- Both names of a pair are of the same form. -/
theorem forms_of_channels (channels : Channels a.toList b.toList) :
    IsLong a ∧ IsLong b ∨ IsShort a ∧ IsShort b := by
  rcases channels_iff.mp channels with ⟨rest, control, data⟩ | ⟨digits, all, control, data⟩
  · exact .inl ⟨⟨rest, .inl control⟩, ⟨rest, .inr data⟩⟩
  · obtain ⟨some, each⟩ := areDigits_iff.mp all
    exact .inr ⟨⟨digits, some, each, .inl control⟩, ⟨digits, some, each, .inr data⟩⟩

theorem forms_of_paired? (paired : paired? a = some b) :
    IsLong a ∧ IsLong b ∨ IsShort a ∧ IsShort b := by
  rcases paired?_iff.mp paired with channels | channels
  · exact forms_of_channels channels
  · rcases forms_of_channels channels with long | short
    · exact .inl long.symm
    · exact .inr short.symm

/-- The second letter of a long name is no digit. -/
theorem IsShort.not_isLong (short : IsShort a) : ¬ IsLong a := by
  rintro ⟨rest, long⟩
  obtain ⟨digits, some, each, form⟩ := short
  have all := areDigits_iff.mpr ⟨some, each⟩
  have control : ∀ more, digits.toList ≠ 'T' :: more := fun more => not_long_of_digits all rfl
  have data : ∀ more, digits.toList ≠ 'A' :: more := fun more => not_long_of_digits all rfl
  rcases long with rfl | rfl <;> rcases form with same | same <;> have letters :=
    congrArg String.toList same <;>
    simp at letters
  · exact control _ letters.symm
  · exact data _ letters.symm

theorem isSome_paired?_iff : (paired? a).isSome = true ↔ IsLong a ∨ IsShort a := by
  rw [Option.isSome_iff_exists]
  constructor
  · rintro ⟨b, paired⟩
    exact (forms_of_paired? paired).imp And.left And.left
  · rintro (⟨rest, rfl | rfl⟩ | ⟨digits, some, each, rfl | rfl⟩)
    · exact ⟨"DAT" ++ rest, paired?_iff.mpr (.inl (channels_iff.mpr (.inl ⟨rest, rfl, rfl⟩)))⟩
    · exact ⟨"CTL" ++ rest, paired?_iff.mpr (.inr (channels_iff.mpr (.inl ⟨rest, rfl, rfl⟩)))⟩
    · have all := areDigits_iff.mpr ⟨some, each⟩
      exact ⟨"D" ++ digits,
        paired?_iff.mpr (.inl (channels_iff.mpr (.inr ⟨digits, all, rfl, rfl⟩)))⟩
    · have all := areDigits_iff.mpr ⟨some, each⟩
      exact ⟨"C" ++ digits,
        paired?_iff.mpr (.inr (channels_iff.mpr (.inr ⟨digits, all, rfl, rfl⟩)))⟩

theorem Channels.ne {cs ds : List Char} (channels : Channels cs ds) : cs ≠ ds := by
  cases channels <;> simp

theorem Channels.length_eq {cs ds : List Char} (channels : Channels cs ds) :
    cs.length = ds.length := by
  cases channels <;> rfl

/-- The two names differ in letters of the convention only. -/
theorem Channels.forall_iff {cs ds : List Char} (channels : Channels cs ds) {P : Char → Prop}
    (letters : ∀ c ∈ ['C', 'T', 'L', 'D', 'A'], P c) : (∀ c ∈ cs, P c) ↔ ∀ c ∈ ds, P c := by
  cases channels <;> simp_all

theorem Channels.sound_iff (channels : Channels a.toList b.toList) :
    Name.defect? a = none ↔ Name.defect? b = none := by
  have letters : ∀ c ∈ ['C', 'T', 'L', 'D', 'A'], (c == '\x00' || Text.isBlank c) = false := by
    have all : ['C', 'T', 'L', 'D', 'A'].all
        (fun c => !(c == '\x00' || Text.isBlank c)) = true := by decide
    simpa only [List.all_eq_true, Bool.not_eq_true'] using all
  rw [Name.defect?_eq_none_iff, Name.defect?_eq_none_iff, channels.length_eq,
    channels.forall_iff letters]
  have nonempty : a.toList ≠ [] ∧ b.toList ≠ [] := by
    generalize a.toList = cs, b.toList = ds at channels
    cases channels <;> simp
  simp only [nonempty, ne_eq, not_false_eq_true]

theorem isPair_iff : isPair a b = true ↔ paired? a = some b := by simp [isPair]

theorem isPair_comm (a b : String) : isPair a b = isPair b a := by
  rw [Bool.eq_iff_iff, isPair_iff, isPair_iff]
  exact ⟨paired?_symm, paired?_symm⟩

theorem paired?_ne (paired : paired? a = some b) : b ≠ a := by
  rintro rfl
  rcases paired?_iff.mp paired with channels | channels <;> exact channels.ne rfl

/-- The rule that pairs names is its own inverse. The pair of a name is another one, just as long,
and valid if the name is. Pairs are symmetric, no name is its own pair, and none has two. Names of
the long and of the short form have a pair and no others do, and a long name is never paired with a
short one. -/
theorem pairing_is_own_inverse (a b : String) :
    (paired? a = some b → b ≠ a ∧ paired? b = some a ∧ b.length = a.length ∧
      ((∃ name, Name.ofText a = .ok name) → ∃ name, Name.ofText b = .ok name)) ∧
    isPair a b = isPair b a ∧ isPair a a = false ∧
    (∀ c, isPair a b = true → isPair a c = true → c = b) ∧
    ((paired? a).isSome = true ↔ IsLong a ∨ IsShort a) ∧
    (IsLong a → IsShort b → isPair a b = false ∧ isPair b a = false) := by
  refine ⟨?_, isPair_comm a b, ?_, ?_, isSome_paired?_iff, ?_⟩
  · intro paired
    refine ⟨paired?_ne paired, paired?_symm paired, ?_, ?_⟩
    · rw [← String.length_toList, ← String.length_toList]
      rcases paired?_iff.mp paired with channels | channels
      · exact channels.length_eq.symm
      · exact channels.length_eq
    · rw [Name.ofText_ok_iff, Name.ofText_ok_iff]
      rcases paired?_iff.mp paired with channels | channels
      · exact channels.sound_iff.mp
      · exact channels.sound_iff.mpr
  · rw [Bool.eq_false_iff, ne_eq, isPair_iff]
    exact fun paired => paired?_ne paired rfl
  · intro c first second
    exact Option.some.inj ((isPair_iff.mp second).symm.trans (isPair_iff.mp first))
  · intro long short
    have apart : ¬ isPair a b = true := by
      intro pair
      rcases forms_of_paired? (isPair_iff.mp pair) with ⟨-, other⟩ | ⟨self, -⟩
      · exact short.not_isLong other
      · exact self.not_isLong long
    rw [← isPair_comm a b]
    exact ⟨Bool.eq_false_iff.mpr apart, Bool.eq_false_iff.mpr apart⟩

/-- A short name has its pair, and no long name with the same digits has anything to do with it. -/
theorem pairing_is_own_inverse_digits :
    paired? "C07" = some "D07" ∧ paired? "D07" = some "C07" ∧ "D07".length = "C07".length ∧
      IsLong "CTL07" ∧ IsShort "D07" ∧ isPair "CTL07" "D07" = false := by
  have paired : paired? "C07" = some "D07" := by decide
  have long : IsLong "CTL07" := ⟨"07", .inl rfl⟩
  obtain ⟨some, each⟩ := areDigits_iff.mp (show areDigits "07".toList = true by decide)
  have short : IsShort "D07" := ⟨"07", some, each, .inr rfl⟩
  obtain ⟨-, back, size, -⟩ := (pairing_is_own_inverse "C07" "D07").1 paired
  obtain ⟨-, -, -, -, -, apart⟩ := pairing_is_own_inverse "CTL07" "D07"
  exact ⟨paired, back, size, long, short, (apart long short).1⟩

end Pairing
end SharedVariables
