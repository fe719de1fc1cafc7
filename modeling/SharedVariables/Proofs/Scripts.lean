import Mathlib.Algebra.Ring.Int.Defs
import Mathlib.Algebra.Ring.Nat
import SharedVariables.Proofs.RoundTrip

/-! Fields of mixed types in one buffer. A value is written if it is in the range of its type and
otherwise leaves no trace, and a reader that asks for the types of those that were written gets
their values back and comes to the end. -/
namespace SharedVariables

namespace Octets

theorem range_eq_pow (width : Nat) : range width = 256 ^ width := by
  induction width with
  | zero => rfl
  | succ width ih => rw [range, ih, pow_succ, Nat.mul_comm]

/-- Half of the numbers are on either side of zero. -/
theorem range_eq_double {width : Nat} (sized : 0 < width) :
    (range width : Int) = 2 * 2 ^ (8 * width - 1) := by
  obtain ⟨w, rfl⟩ := Nat.exists_eq_succ_of_ne_zero (Nat.pos_iff_ne_zero.mp sized)
  have bits : 8 * (w + 1) = 8 * (w + 1) - 1 + 1 := by omega
  have base : (256 : Int) = 2 ^ 8 := rfl
  rw [range_eq_pow]
  push_cast
  rw [base, ← pow_mul, Nat.succ_eq_add_one, bits, pow_succ, Int.mul_comm, Nat.add_sub_cancel]

theorem range_pos (width : Nat) : 0 < range width := by
  induction width with
  | zero => exact Nat.one_pos
  | succ width ih => exact Nat.mul_pos (by decide) ih

/-- Two's complement reads back what it writes, on both sides of zero. -/
theorem toInt_ofInt {width : Nat} {i : Int} (low : -(range width : Int) ≤ 2 * i)
    (high : 2 * i < range width) :
    toInt (ofInt width i) = i := by
  have positive := range_pos width
  have bounded : (i % range width).toNat < range width := by
    have := Int.emod_lt_of_pos i (Int.natCast_pos.mpr positive)
    have := Int.emod_nonneg i (Int.natCast_ne_zero.mpr (Nat.ne_of_gt positive))
    omega
  simp only [toInt, ofInt, toNat_ofNat bounded, length_ofNat]
  rcases Int.lt_or_le i 0 with negative | natural
  · have wrapped : i % range width = i + range width := by
      rw [← Int.add_emod_right, Int.emod_eq_of_lt (by omega) (by omega)]
    rw [wrapped, if_neg (by omega)]
    omega
  · rw [Int.emod_eq_of_lt natural (by omega), if_pos (by omega)]
    omega

end Octets

namespace Field

namespace Value

/-- A signed number takes at least one byte. -/
def Sized : Value → Prop
  | .signed width _ => 0 < width
  | _ => True

/-- The value is in the range of its type. -/
def Fits : Value → Prop
  | .unsigned width value => value < 256 ^ width
  | .signed width value => -2 ^ (8 * width - 1) ≤ value ∧ value < 2 ^ (8 * width - 1)
  | .bytes value => value.length ≤ Limits.stringField
  | .text value => value.utf8ByteSize ≤ Limits.stringField

instance : DecidablePred Fits
  | .unsigned width value => inferInstanceAs (Decidable (value < 256 ^ width))
  | .signed width value =>
    inferInstanceAs (Decidable (-2 ^ (8 * width - 1) ≤ value ∧ value < 2 ^ (8 * width - 1)))
  | .bytes value => inferInstanceAs (Decidable (value.length ≤ Limits.stringField))
  | .text value => inferInstanceAs (Decidable (value.utf8ByteSize ≤ Limits.stringField))

theorem write_ok_iff {v : Value} (sized : v.Sized) : (∃ bs, v.write = .ok bs) ↔ v.Fits := by
  cases v with
  | unsigned width value =>
    simp only [write, writeUnsigned, Fits, Octets.range_eq_pow]
    split <;> simp_all
  | signed width value =>
    simp only [write, writeSigned, Fits, Octets.range_eq_double sized]
    split
    · simp only [Except.ok.injEq, exists_eq', true_iff]
      omega
    · simp only [reduceCtorEq, exists_false, false_iff]
      omega
  | bytes value => simp [write, Fits, writeBytes_ok]
  | text value => simp [write, Fits, writeText, writeBytes_ok]

theorem read_of_write {v : Value} {bs : Octets} (written : v.write = .ok bs) (field : String)
    (rest : Octets) :
    v.format.read field (bs ++ rest) = (.ok v, rest) := by
  cases v with
  | unsigned width value =>
    simp only [write, writeUnsigned] at written
    split at written
    · rename_i small
      obtain rfl := Except.ok.inj written
      simp [format, Format.read, readUnsigned_append field small, Reading.refine, Except.bind]
    · simp at written
  | signed width value =>
    simp only [write, writeSigned] at written
    split at written
    · rename_i small
      obtain rfl := Except.ok.inj written
      have raw := readRaw_append field (Octets.ofInt width value) rest
      rw [Octets.ofInt, Octets.length_ofNat, ← Octets.ofInt] at raw
      simp [format, Format.read, readSigned, raw, Reading.refine, Except.bind,
        Octets.toInt_ofInt small.1 small.2]
    · simp at written
  | bytes value =>
    obtain ⟨fits, rfl⟩ := writeBytes_ok.mp written
    rw [format, Format.read, readBytes_append field fits]
    rfl
  | text value =>
    obtain ⟨fits, rfl⟩ := writeBytes_ok.mp written
    rw [Octets.length_ofText] at fits
    rw [format, Format.read, readText_append field fits]
    rfl

/-- The bytes that a value adds to a buffer. -/
def octets (v : Value) : Octets := v.write.toOption.getD []

/-- Why a value is not written. -/
def fault? (v : Value) : Option Fault :=
  match v.write with
  | .ok _ => none
  | .error e => some e

theorem write_of_fits {v : Value} (sized : v.Sized) (fits : v.Fits) : v.write = .ok v.octets := by
  obtain ⟨bs, written⟩ := (write_ok_iff sized).mpr fits
  simp [octets, written, Except.toOption]

theorem octets_of_not_fits {v : Value} (sized : v.Sized) (large : ¬ v.Fits) : v.octets = [] := by
  cases written : v.write with
  | ok bs => exact absurd ((write_ok_iff sized).mp ⟨bs, written⟩) large
  | error e => simp [octets, written, Except.toOption]

theorem fault?_eq_none_iff {v : Value} (sized : v.Sized) : v.fault? = none ↔ v.Fits := by
  rw [← write_ok_iff sized]
  cases written : v.write <;> simp [fault?, written]

end Value

theorem writeScript_cons (v : Value) (values : List Value) (buffer : Octets) :
    writeScript (v :: values) buffer =
      ((v.fault?, (buffer ++ v.octets).length) :: (writeScript values (buffer ++ v.octets)).1,
        (writeScript values (buffer ++ v.octets)).2) := by
  cases written : v.write <;>
    simp [writeScript, Value.fault?, Value.octets, written, Except.toOption]

theorem writeScript_buffer (values : List Value) (buffer : Octets) :
    (writeScript values buffer).2 = buffer ++ values.flatMap Value.octets := by
  induction values generalizing buffer with
  | nil => simp [writeScript]
  | cons v rest ih => rw [writeScript_cons, ih, List.flatMap_cons, List.append_assoc]

theorem writeScript_report (earlier : List Value) (v : Value) (later : List Value)
    (buffer : Octets) :
    (writeScript (earlier ++ v :: later) buffer).1[earlier.length]? =
      some (v.fault?, (writeScript (earlier ++ [v]) buffer).2.length) := by
  induction earlier generalizing buffer with
  | nil => simp [writeScript_cons, writeScript]
  | cons u rest ih =>
    simp only [List.cons_append, writeScript_cons, List.length_cons, List.getElem?_cons_succ]
    exact ih (buffer ++ u.octets)

theorem readScript_octets {values : List Value} (sized : ∀ v ∈ values, v.Sized)
    {fields : List (Format × String)}
    (same : fields.map (·.1) = (values.filter (·.Fits)).map Value.format) (rest : Octets) :
    (readScript fields (values.flatMap Value.octets ++ rest)).1.map (·.1) =
      (values.filter (·.Fits)).map .ok ∧
      (readScript fields (values.flatMap Value.octets ++ rest)).2 = rest := by
  induction values generalizing fields with
  | nil =>
    obtain rfl := List.map_eq_nil_iff.mp same
    exact ⟨rfl, rfl⟩
  | cons v later ih =>
    have here := sized v List.mem_cons_self
    have others := fun u mem => sized u (List.mem_cons_of_mem v mem)
    rw [List.flatMap_cons, List.append_assoc]
    by_cases fits : v.Fits
    · rw [List.filter_cons_of_pos (by simpa using fits)] at same ⊢
      obtain ⟨⟨format, field⟩, more, rfl, rfl, tail⟩ := List.map_eq_cons_iff.mp same
      obtain ⟨outcomes, left⟩ := ih others tail
      simp [readScript, Value.read_of_write (Value.write_of_fits here fits), outcomes, left]
    · rw [List.filter_cons_of_neg (by simpa using fits)] at same ⊢
      rw [Value.octets_of_not_fits here fits, List.nil_append]
      exact ih others same

/-- Values are written one after the other, each exactly if it is in the range of its type; one that
is not leaves the buffer as it was. A reader that asks for the types of those that were written,
under any names, gets exactly their values, whatever bytes follow, and at the end nothing is left
over. Machine words are always in the range of their width. -/
theorem script_reads_back (values : List Value) (sized : ∀ v ∈ values, v.Sized)
    (fields : List (Format × String))
    (same : fields.map (·.1) = (values.filter (·.Fits)).map Value.format) :
    (∀ earlier v later, values = earlier ++ v :: later →
      let before := (writeScript earlier []).2
      let after := (writeScript (earlier ++ [v]) []).2
      ∃ fault, (writeScript values []).1[earlier.length]? = some (fault, after.length) ∧
        (fault = none ↔ v.Fits) ∧
        (v.Fits → ∃ bs, v.write = .ok bs ∧ after = before ++ bs) ∧ (¬ v.Fits → after = before)) ∧
    (∀ rest, (readScript fields ((writeScript values []).2 ++ rest)).1.map (·.1) =
      (values.filter (·.Fits)).map .ok ∧
      (readScript fields ((writeScript values []).2 ++ rest)).2 = rest) ∧
    finish (readScript fields (writeScript values []).2).2 = .ok () ∧
    (∀ n : UInt8, (Value.unsigned 1 n.toNat).Fits) ∧
    (∀ n : UInt16, (Value.unsigned 2 n.toNat).Fits) ∧
    (∀ n : UInt32, (Value.unsigned 4 n.toNat).Fits) ∧
    (∀ n : UInt64, (Value.unsigned 8 n.toNat).Fits) ∧
    ∀ i : Int64, (Value.signed 8 i.toInt).Fits := by
  have read := readScript_octets sized same
  refine ⟨?_, ?_, ?_, UInt8.toNat_lt, UInt16.toNat_lt, UInt32.toNat_lt, UInt64.toNat_lt, ?_⟩
  · rintro earlier v later rfl before after
    have here := sized v (List.mem_append_right earlier List.mem_cons_self)
    have grown : after = before ++ v.octets := by
      simp only [after, before, writeScript_buffer, List.flatMap_append,
        List.flatMap_singleton, List.append_assoc]
    refine ⟨v.fault?, writeScript_report earlier v later [], Value.fault?_eq_none_iff here, ?_, ?_⟩
    · exact fun fits => ⟨v.octets, Value.write_of_fits here fits, grown⟩
    · intro large
      rw [grown, Value.octets_of_not_fits here large, List.append_nil]
  · intro rest
    rw [writeScript_buffer, List.nil_append]
    exact read rest
  · have whole := (read []).2
    rw [List.append_nil] at whole
    rw [writeScript_buffer, List.nil_append, whole]
    rfl
  · exact fun i => ⟨i.le_toInt, i.toInt_lt⟩

/-- Six values of which the second is out of range. The others come back, both negative ones with
their sign. -/
theorem script_reads_back_mixed :
    let values : List Value := [.signed 3 (-2), .unsigned 2 65536, .text "∆", .signed 1 (-128),
      .unsigned 6 0x010203040506, .bytes []]
    let fields : List (Format × String) :=
      [(.signed 3, "a"), (.text, "b"), (.signed 1, "c"), (.unsigned 6, "d"),
      (.bytes, "e")]
    (∀ v ∈ values, v.Sized) ∧ fields.map (·.1) = (values.filter (·.Fits)).map Value.format ∧
      (writeScript values []).2 =
        [0xff, 0xff, 0xfe, 0, 3, 0xe2, 0x88, 0x86, 0x80, 1, 2, 3, 4, 5, 6, 0, 0] ∧
      (readScript fields (writeScript values []).2).1.map (·.1) =
        [.ok (.signed 3 (-2)), .ok (.text "∆"),
        .ok (.signed 1 (-128)), .ok (.unsigned 6 0x010203040506), .ok (.bytes [])] ∧
      finish (readScript fields (writeScript values []).2).2 = .ok () := by
  intro values fields
  have sized : ∀ v ∈ values, v.Sized := by simp [values, Value.Sized]
  have same : fields.map (·.1) = (values.filter (·.Fits)).map Value.format := by decide
  obtain ⟨-, read, done, -⟩ := script_reads_back values sized fields same
  have outcomes := (read []).1
  rw [List.append_nil] at outcomes
  exact ⟨sized, same, by decide, outcomes.trans (by decide), done⟩

end Field
end SharedVariables
