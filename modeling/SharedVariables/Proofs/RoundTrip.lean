import SharedVariables.Proofs.Encoding

/-! Reading gives back what was written, field by field, and leaves the bytes that follow. -/
namespace SharedVariables

namespace Field

theorem readRaw_append (field : String) (bs rest : Octets) :
    readRaw field bs.length (bs ++ rest) = (.ok bs, rest) := by
  simp [readRaw]

theorem readUnsigned_append (field : String) {width n : Nat} (small : n < Octets.range width)
    (rest : Octets) :
    readUnsigned field width (Octets.ofNat width n ++ rest) = (.ok n, rest) := by
  have raw := readRaw_append field (Octets.ofNat width n) rest
  rw [Octets.length_ofNat] at raw
  simp [readUnsigned, raw, Reading.refine, Except.bind, Octets.toNat_ofNat small]

theorem readBytes_append (field : String) {value : Octets}
    (fits : value.length ≤ Limits.stringField) (rest : Octets) :
    readBytes field (Octets.ofNat 2 value.length ++ value ++ rest) = (.ok value, rest) := by
  have small : value.length < Octets.range 2 := Nat.lt_succ_of_le fits
  rw [List.append_assoc, readBytes, readUnsigned_append field small]
  exact readRaw_append field value rest

theorem readText_append (field : String) {s : String} (fits : s.utf8ByteSize ≤ Limits.stringField)
    (rest : Octets) :
    readText field (Octets.ofNat 2 (Octets.ofText s).length ++ Octets.ofText s ++ rest) =
      (.ok s, rest) := by
  rw [readText, readBytes_append field (by simpa using fits)]
  simp [Reading.refine, Except.bind, Octets.toText?_ofText]

end Field

theorem Mask.ofBits?_bits (m : Mask) : ofBits? m.bits = some m := by
  rcases m with ⟨a, b, c, d⟩
  revert a b c d
  decide

theorem Events.ofBits_bits (e : Events) : ofBits e.bits = e := by
  rcases e with ⟨a, b, c, d, e, f⟩
  revert a b c d e f
  decide

namespace Signal.Form

open SharedVariables.Field

theorem readByte_cons (field : String) (b : UInt8) (rest : Octets) :
    readByte field (b :: rest) = (.ok b, rest) := by
  have raw := readRaw_append field [b] rest
  simp only [List.length_singleton, List.singleton_append] at raw
  simp [readByte, readUnsigned, raw, Reading.refine, Except.bind, Octets.toNat]

theorem readWord_append (field : String) (w : UInt32) (rest : Octets) :
    readWord field (Octets.ofNat 4 w.toNat ++ rest) = (.ok w, rest) := by
  have small : w.toNat < Octets.range 4 := w.toNat_lt
  simp [readWord, readUnsigned_append field small, Reading.refine, Except.bind]

theorem readIdentity_append (field : String) (i : Identity) (rest : Octets) :
    readIdentity field (i.toOctets ++ rest) = (.ok i, rest) := by
  simp [readIdentity, Identity.toOctets, readWord_append, Reading.andThen,
    Reading.refine, Except.bind]

theorem ofOctets_toOctets (i : Identity) : Identity.ofOctets i.toOctets = i := by
  have word (w : UInt32) : Octets.toNat (Octets.ofNat 4 w.toNat) = w.toNat :=
    Octets.toNat_ofNat w.toNat_lt
  simp [Identity.ofOctets, Identity.toOctets, List.drop_append, List.take_of_length_le,
    List.drop_eq_nil_of_le, word]

theorem listOfOctets_flatMap (ids : List Identity) :
    Identity.listOfOctets ids.length (ids.flatMap Identity.toOctets) = ids := by
  induction ids with
  | nil => rfl
  | cons id rest ih =>
    have size := id.length_toOctets
    simp only [List.length_cons, List.flatMap_cons, Identity.listOfOctets]
    rw [List.take_left' size, List.drop_left' size, ofOctets_toOctets, ih]

/-- Names apart, for a name with a mark in it falls into two. -/
theorem read_of_write {f : Form} (single : f ≠ .names) {v : f.Carrier} {bs : Octets}
    (written : f.write v = .ok bs) (field : String) (rest : Octets) :
    f.read field (bs ++ rest) = (.ok v, rest) := by
  cases f with
  | names => exact absurd rfl single
  | text =>
    obtain ⟨fits, rfl⟩ := writeBytes_ok.mp written
    exact readText_append field (by simpa using fits) rest
  | bytes =>
    obtain ⟨fits, rfl⟩ := writeBytes_ok.mp written
    exact readBytes_append field fits rest
  | identities =>
    obtain ⟨fits, rfl⟩ := writeBytes_ok.mp written
    have whole : identitiesOf field (List.flatMap Identity.toOctets v) = .ok v := by
      simp only [identitiesOf, Identity.length_flatMap_toOctets, Nat.mul_mod_right, if_true]
      rw [Nat.mul_div_cancel_left _ (by decide), listOfOctets_flatMap]
    simp only [read, readBytes_append field fits, Reading.refine, Except.bind, whole]
  | byte =>
    obtain rfl := Except.ok.inj written
    exact readByte_cons field v rest
  | word =>
    obtain rfl := Except.ok.inj written
    exact readWord_append field v rest
  | identity =>
    obtain rfl := Except.ok.inj written
    exact readIdentity_append field v rest
  | key =>
    obtain rfl := Except.ok.inj written
    have small : v.bits.toNat < Octets.range 8 := v.bits.toNat_lt
    simp [read, readUnsigned_append field small, Reading.refine, Except.bind]
  | events =>
    obtain rfl := Except.ok.inj written
    simp [read, readWord_append, Reading.refine, Except.bind, Events.ofBits_bits]
  | flag =>
    obtain rfl := Except.ok.inj written
    cases v <;> simp [read, readByte_cons, Reading.refine, Except.bind]
  | mask =>
    obtain rfl := Except.ok.inj written
    simp [read, readByte_cons, Reading.refine, Except.bind, Mask.ofBits?_bits, orMalformed]
  | state =>
    obtain rfl := Except.ok.inj written
    simp [read, readByte_cons, Reading.refine, Except.bind, State.ofBits?_mask_bits, orMalformed]
  | coupling =>
    obtain rfl := Except.ok.inj written
    simp [read, readByte_cons, Reading.refine, Except.bind, Coupling.ofByte?_toByte, orMalformed]

end Signal.Form

namespace Signal

theorem readFields_of_writeFields {slots : List Slot}
    (single : ∀ slot ∈ slots, slot.form ≠ .names) {values : Fields slots} {bs : Octets}
    (written : writeFields slots values = .ok bs) (rest : Octets) :
    readFields slots (bs ++ rest) = (.ok values, rest) := by
  induction slots generalizing bs with
  | nil =>
    obtain rfl := Except.ok.inj written
    rfl
  | cons slot others ih =>
    obtain ⟨value, values⟩ := values
    simp only [writeFields] at written
    split at written
    · simp at written
    · rename_i first here
      split at written
      · simp at written
      · rename_i tail later
        obtain rfl := Except.ok.inj written
        have head := Form.read_of_write (single slot List.mem_cons_self) here
          slot.name (tail ++ rest)
        have others := ih (fun s mem => single s (List.mem_cons_of_mem _ mem)) later
        rw [List.append_assoc, readFields, head]
        simp [Field.Reading.andThen, Field.Reading.refine, others, Except.bind]

theorem Kind.single_of_ne (k : Kind) (other : k ≠ .offeredVarsAre) :
    ∀ slot ∈ k.layout, slot.form ≠ .names := by
  revert other
  cases k <;> decide

theorem decode_of_readFields (k : Kind) {body : Octets} {values : Fields k.layout}
    (read : readFields k.layout body = (.ok values, [])) :
    decode (Octets.ofNat 2 k.tag.toNat ++ body) = .ok (ofFields k values) := by
  have small : k.tag.toNat < Octets.range 2 := k.tag.toNat_lt
  simp only [decode, Field.readUnsigned_append "kind" small, UInt16.ofNat_toNat,
    Kind.ofTag?_tag, read]
  simp [Field.finish]

theorem encode_eq_ok {s : Signal} {payload : Octets} : s.encode = .ok payload ↔
    ∃ body, writeFields s.kind.layout s.fields = .ok body ∧
      payload = Octets.ofNat 2 s.kind.tag.toNat ++ body := by
  unfold encode
  cases writeFields s.kind.layout s.fields with
  | error e => simp
  | ok body => simp [eq_comm]

/-- Names apart, decoding undoes encoding. -/
theorem decode_of_encode {s : Signal} (other : s.kind ≠ .offeredVarsAre) {payload : Octets}
    (encoded : s.encode = .ok payload) : decode payload = .ok s := by
  obtain ⟨body, written, rfl⟩ := encode_eq_ok.mp encoded
  have fields := readFields_of_writeFields (s.kind.single_of_ne other) written []
  rw [List.append_nil] at fields
  rw [decode_of_readFields s.kind fields, ofFields_fields]

theorem exists_decode_of_fits {s : Signal} (other : s.kind ≠ .offeredVarsAre) (fits : s.Fits) :
    ∃ payload, decode payload = .ok s := by
  obtain ⟨payload, encoded⟩ := s.encode_ok_iff.mpr fits
  exact ⟨payload, decode_of_encode other encoded⟩

end Signal
end SharedVariables
