import SharedVariables.Signal.Codec

/-! Which signals can be put on the wire. Writing fails only where a field of variable length takes
too many bytes, and a signal that was read off the wire has no such field. -/
namespace SharedVariables

namespace Octets

@[simp] theorem length_ofText (s : String) : (ofText s).length = s.utf8ByteSize := by
  simp only [ofText, String.toUTF8, Array.length_toList]
  exact String.size_toByteArray

theorem ofText_of_toText? {bs : Octets} {s : String} (spelt : toText? bs = some s) :
    ofText s = bs := by
  unfold toText? String.fromUTF8? at spelt
  split at spelt
  · obtain rfl := Option.some.inj spelt
    rfl
  · simp at spelt

theorem foldl_lt (bs : Octets) (n : Nat) :
    bs.foldl (fun n b => n * 256 + b.toNat) n < (n + 1) * range bs.length := by
  induction bs generalizing n with
  | nil => simp [range]
  | cons b rest ih =>
    have small : n * 256 + b.toNat + 1 ≤ (n + 1) * 256 := by
      have := b.toNat_lt
      omega
    calc
      _ < (n * 256 + b.toNat + 1) * range rest.length := ih _
      _ ≤ (n + 1) * 256 * range rest.length := Nat.mul_le_mul_right _ small
      _ = _ := by rw [List.length_cons, range, Nat.mul_assoc]

theorem toNat_lt (bs : Octets) : toNat bs < range bs.length := by
  simpa [toNat] using foldl_lt bs 0

theorem foldl_ofNat (width n start : Nat) :
    (ofNat width n).foldl (fun n b => n * 256 + b.toNat) start =
      start * range width + n % range width := by
  induction width generalizing start with
  | zero => simp [ofNat, range, Nat.mod_one]
  | succ width ih =>
    simp only [ofNat, List.foldl_cons, ih, range, UInt8.toNat_ofNat']
    rw [Nat.mul_comm 256, Nat.mod_mul, Nat.add_mul, Nat.mul_assoc start, Nat.mul_comm 256]
    have digit : n / range width % 2 ^ 8 * range width = range width * (n / range width % 256) :=
      Nat.mul_comm _ _
    omega

theorem toNat_ofNat {width n : Nat} (small : n < range width) : toNat (ofNat width n) = n := by
  simp [toNat, foldl_ofNat, Nat.mod_eq_of_lt small]

theorem le_foldl (bs : Octets) (n : Nat) :
    n * range bs.length ≤ bs.foldl (fun n b => n * 256 + b.toNat) n := by
  induction bs generalizing n with
  | nil => simp [range]
  | cons b rest ih =>
    calc
      _ = n * 256 * range rest.length := by rw [List.length_cons, range, Nat.mul_assoc]
      _ ≤ (n * 256 + b.toNat) * range rest.length := Nat.mul_le_mul_right _ (Nat.le_add_right _ _)
      _ ≤ _ := ih _

theorem ofNat_foldl (bs : Octets) (n : Nat) :
    ofNat bs.length (bs.foldl (fun n b => n * 256 + b.toNat) n) = bs := by
  induction bs generalizing n with
  | nil => rfl
  | cons b rest ih =>
    -- The leading byte is what is left above the range of the others.
    have head : rest.foldl (fun n b => n * 256 + b.toNat) (n * 256 + b.toNat) / range rest.length =
        n * 256 + b.toNat :=
      Nat.div_eq_of_lt_le (le_foldl rest _) (foldl_lt rest _)
    have byte : UInt8.ofNat (n * 256 + b.toNat) = b := by
      apply UInt8.toNat.inj
      have small := b.toNat_lt
      rw [UInt8.toNat_ofNat']
      omega
    rw [List.length_cons, List.foldl_cons, ofNat, ih, head, byte]

theorem ofNat_toNat {bs : Octets} {width : Nat} (size : bs.length = width) :
    ofNat width (toNat bs) = bs := by
  subst size
  exact ofNat_foldl bs 0

theorem toText?_ofText (s : String) : toText? (ofText s) = some s := by
  simp only [toText?, ofText, String.fromUTF8?]
  exact dif_pos s.isValidUTF8

end Octets

namespace Text

theorem splitChars_ne_nil (mark : Char) (cs : List Char) : splitChars mark cs ≠ [] := by
  fun_cases splitChars mark cs <;> simp

theorem joinChars_splitChars (mark : Char) (cs : List Char) :
    joinChars mark (splitChars mark cs) = cs := by
  fun_induction splitChars mark cs with
  | case1 => rfl
  | case2 cs ih =>
    cases pieces : splitChars mark cs with
    | nil => exact absurd pieces (splitChars_ne_nil mark cs)
    | cons word rest =>
      rw [pieces] at ih
      simp [joinChars, ih]
  | case3 c cs apart none ih => exact absurd none (splitChars_ne_nil mark cs)
  | case4 c cs apart word rest pieces ih =>
    rw [pieces] at ih
    cases rest with
    | nil => simpa [joinChars] using ih
    | cons next others => simpa [joinChars] using ih

/-- The bytes of some texts together. -/
def totalSize (words : List String) : Nat := words.foldr (fun word n => word.utf8ByteSize + n) 0

/-- A joined text takes the bytes of its words and those of the marks between them. -/
theorem utf8ByteSize_join (mark : Char) (words : List String) :
    (join mark words).utf8ByteSize = totalSize words + (words.length - 1) * mark.utf8Size := by
  induction words with
  | nil => simp [join, joinChars, totalSize]
  | cons word rest ih =>
    cases rest with
    | nil => simp [join, joinChars, totalSize]
    | cons next others =>
      simp only [join, List.map_cons, joinChars, String.ofList_append, String.ofList_cons,
        String.ofList_toList,
        String.utf8ByteSize_append, String.utf8ByteSize_singleton] at ih ⊢
      rw [ih]
      simp only [totalSize, List.foldr_cons, List.length_cons, Nat.add_sub_cancel, Nat.succ_mul]
      omega

theorem join_split (mark : Char) (s : String) : join mark (split mark s) = s := by
  simp [join, split, Function.comp_def, joinChars_splitChars]

end Text

namespace Field

theorem writeBytes_ok {value bs : Octets} :
    writeBytes value = .ok bs ↔
      value.length ≤ Limits.stringField ∧ bs = Octets.ofNat 2 value.length ++ value := by
  unfold writeBytes
  split
  · rename_i fits
    simp [fits, eq_comm]
  · rename_i long
    simp [long]

theorem Reading.refine_ok {α β : Type} {r : Reading α} {f : α → Except Fault β} {b : β}
    {rest : Octets} (read : Reading.refine r f = (.ok b, rest)) :
    ∃ a, r = (.ok a, rest) ∧ f a = .ok b := by
  obtain ⟨outcome, left⟩ := r
  obtain ⟨checked, rfl⟩ := Prod.mk.inj read
  cases outcome with
  | error e => simp [Except.bind] at checked
  | ok a => exact ⟨a, rfl, checked⟩

theorem Reading.andThen_ok {α β : Type} {r : Reading α} {f : α → Octets → Reading β} {b : β}
    {rest : Octets} (read : Reading.andThen r f = (.ok b, rest)) :
    ∃ a left, r = (.ok a, left) ∧ f a left = (.ok b, rest) := by
  obtain ⟨outcome, left⟩ := r
  cases outcome with
  | error e => simp [Reading.andThen] at read
  | ok a => exact ⟨a, left, rfl, read⟩

theorem readRaw_ok {field : String} {n : Nat} {bs raw rest : Octets}
    (read : readRaw field n bs = (.ok raw, rest)) :
    raw.length = n ∧ bs = raw ++ rest := by
  unfold readRaw at read
  simp only at read
  split at read
  · simp at read
  · rename_i enough
    obtain ⟨taken, rfl⟩ := Prod.mk.inj read
    obtain rfl := Except.ok.inj taken
    simp only [List.length_take] at enough ⊢
    exact ⟨by omega, (List.take_append_drop n bs).symm⟩

theorem readUnsigned_ok {field : String} {width n : Nat} {bs rest : Octets}
    (read : readUnsigned field width bs = (.ok n, rest)) :
    n < Octets.range width ∧ bs = Octets.ofNat width n ++ rest := by
  obtain ⟨raw, taken, same⟩ := Reading.refine_ok read
  obtain rfl := Except.ok.inj same
  obtain ⟨size, rfl⟩ := readRaw_ok taken
  have bound := Octets.toNat_lt raw
  rw [size] at bound
  exact ⟨bound, by rw [Octets.ofNat_toNat size]⟩

theorem readBytes_ok {field : String} {bs raw rest : Octets}
    (read : readBytes field bs = (.ok raw, rest)) :
    raw.length ≤ Limits.stringField := by
  unfold readBytes at read
  split at read
  · simp at read
  · rename_i n left counted
    rw [(readRaw_ok read).1]
    exact Nat.le_of_lt_succ (readUnsigned_ok counted).1

theorem readText_ok {field : String} {bs rest : Octets} {s : String}
    (read : readText field bs = (.ok s, rest)) :
    s.utf8ByteSize ≤ Limits.stringField := by
  obtain ⟨raw, taken, spelt⟩ := Reading.refine_ok read
  split at spelt
  · rename_i text
    obtain rfl := Except.ok.inj spelt
    have short := readBytes_ok taken
    rwa [← Octets.ofText_of_toText? text, Octets.length_ofText] at short
  · simp at spelt

end Field

namespace Identity

@[simp] theorem length_toOctets (i : Identity) :
    i.toOctets.length = wireSize := by simp [toOctets, wireSize]

theorem length_flatMap_toOctets (ids : List Identity) :
    (ids.flatMap toOctets).length = wireSize * ids.length := by
  induction ids with
  | nil => rfl
  | cons id rest ih =>
    simp only [List.flatMap_cons, List.length_append, length_toOctets, ih,
      List.length_cons, Nat.mul_succ]
    exact Nat.add_comm _ _

theorem length_listOfOctets (n : Nat) (bs : Octets) : (listOfOctets n bs).length = n := by
  induction n generalizing bs with
  | zero => rfl
  | succ n ih => simp [listOfOctets, ih]

end Identity

namespace Signal

namespace Form

/-- The form takes the same number of bytes for every value. -/
def isFixed : Form → Bool
  | .text | .bytes | .identities | .names => false
  | _ => true

/-- The bytes that follow the length of a value, for the forms that are written with a length. -/
def span : (f : Form) → f.Carrier → Nat
  | .text, s => s.utf8ByteSize
  | .bytes, bs => bs.length
  | .identities, ids => Identity.wireSize * ids.length
  | .names, words => (Text.join nameMark words).utf8ByteSize
  | _, _ => 0

theorem span_of_isFixed {f : Form} (fixed : f.isFixed = true) (v : f.Carrier) : f.span v = 0 := by
  cases f with
  | text | bytes | identities | names => simp [isFixed] at fixed
  | _ => rfl

theorem write_ok_iff (f : Form) (v : f.Carrier) :
    (∃ bs, f.write v = .ok bs) ↔ f.span v ≤ Limits.stringField := by
  cases f with
  | text => simp [write, span, Field.writeText, Field.writeBytes_ok]
  | bytes => simp [write, span, Field.writeBytes_ok]
  | identities =>
    simp only [write, span, Field.writeBytes_ok, Identity.length_flatMap_toOctets]
    simp
  | names => simp [write, span, Field.writeText, Field.writeBytes_ok]
  | _ => simp [write, span]

theorem length_write {f : Form} {v : f.Carrier} {bs : Octets} (written : f.write v = .ok bs) :
    bs.length ≤ Identity.wireSize + f.span v := by
  cases f with
  | text | bytes | identities | names =>
    simp only [write, Field.writeText, Field.writeBytes_ok] at written
    rw [written.2]
    simp only [List.length_append, Octets.length_ofNat, Octets.length_ofText,
      Identity.length_flatMap_toOctets, span]
    exact Nat.add_le_add_right (by decide) _
  | _ =>
    obtain rfl := Except.ok.inj written
    simp [span, Identity.wireSize]

theorem span_of_read {f : Form} {field : String} {bs rest : Octets} {v : f.Carrier}
    (read : f.read field bs = (.ok v, rest)) : f.span v ≤ Limits.stringField := by
  cases f with
  | text => exact Field.readText_ok read
  | bytes => exact Field.readBytes_ok read
  | identities =>
    obtain ⟨raw, taken, whole⟩ := Field.Reading.refine_ok read
    have short := Field.readBytes_ok taken
    unfold identitiesOf at whole
    split at whole
    · obtain rfl := Except.ok.inj whole
      simp only [span, Identity.length_listOfOctets]
      exact Nat.le_trans (Nat.mul_div_le _ _) short
    · simp at whole
  | names =>
    obtain ⟨joined, taken, same⟩ := Field.Reading.refine_ok read
    have short := Field.readText_ok taken
    obtain rfl := Except.ok.inj same
    unfold namesOf
    split
    · simp [span, Text.join, Text.joinChars]
    · simpa only [span, Text.join_split] using short
  | _ => exact Nat.zero_le _

end Form

theorem utf8ByteSize_joinNames (words : List String) :
    (Text.join nameMark words).utf8ByteSize = Text.totalSize words + (words.length - 1) := by
  rw [Text.utf8ByteSize_join, show nameMark.utf8Size = 1 from rfl, Nat.mul_one]

/-- No field is too long. -/
def Fit : (slots : List Slot) → Fields slots → Prop
  | [], _ => True
  | slot :: rest, (value, values) => slot.form.span value ≤ Limits.stringField ∧ Fit rest values

def Fits (s : Signal) : Prop := Fit s.kind.layout s.fields

theorem fit_of_isFixed {slots : List Slot} (fixed : slots.all (·.form.isFixed) = true)
    (values : Fields slots) :
    Fit slots values := by
  induction slots with
  | nil => trivial
  | cons slot rest ih =>
    obtain ⟨value, values⟩ := values
    simp only [List.all_cons, Bool.and_eq_true] at fixed
    refine ⟨?_, ih fixed.2 values⟩
    rw [Form.span_of_isFixed fixed.1]
    exact Nat.zero_le _

theorem fits_of_isFixed {s : Signal} (fixed : s.kind.layout.all (·.form.isFixed) = true) : s.Fits :=
  fit_of_isFixed fixed s.fields

theorem writeFields_ok_iff (slots : List Slot) (values : Fields slots) :
    (∃ bs, writeFields slots values = .ok bs) ↔ Fit slots values := by
  induction slots with
  | nil => simp [writeFields, Fit]
  | cons slot rest ih =>
    obtain ⟨value, values⟩ := values
    simp only [writeFields, Fit, ← ih values, ← slot.form.write_ok_iff value]
    cases slot.form.write value with
    | error e => simp
    | ok first => cases writeFields rest values <;> simp

theorem length_writeFields {slots : List Slot} {values : Fields slots} {bs : Octets}
    (written : writeFields slots values = .ok bs) :
    bs.length ≤ slots.length * (Identity.wireSize + Limits.stringField) := by
  induction slots generalizing bs with
  | nil =>
    obtain rfl := Except.ok.inj written
    simp
  | cons slot rest ih =>
    obtain ⟨value, values⟩ := values
    simp only [writeFields] at written
    split at written
    · simp at written
    · rename_i first here
      split at written
      · simp at written
      · rename_i others later
        obtain rfl := Except.ok.inj written
        have short := (slot.form.write_ok_iff value).mp ⟨first, here⟩
        have head := Form.length_write here
        have tail := ih later
        simp only [List.length_append, List.length_cons, Nat.succ_mul]
        omega

theorem encode_ok_iff (s : Signal) : (∃ payload, s.encode = .ok payload) ↔ s.Fits := by
  rw [Fits, ← writeFields_ok_iff]
  unfold encode
  cases writeFields s.kind.layout s.fields <;> simp

theorem Kind.length_layout (k : Kind) : k.layout.length ≤ 4 := by cases k <;> decide

/-- Whatever can be encoded is small enough for a frame. -/
theorem length_le_of_encode {s : Signal} {payload : Octets} (encoded : s.encode = .ok payload) :
    payload.length ≤ Limits.frameSize := by
  unfold encode at encoded
  split at encoded
  · simp at encoded
  · rename_i body written
    obtain rfl := Except.ok.inj encoded
    have fields := length_writeFields written
    have bound := Nat.mul_le_mul_right (Identity.wireSize + Limits.stringField) s.kind.length_layout
    simp only [List.length_append, Octets.length_ofNat, Identity.wireSize, Limits.stringField,
      Limits.frameSize] at fields bound ⊢
    omega

theorem fit_of_readFields {slots : List Slot} {bs rest : Octets} {values : Fields slots}
    (read : readFields slots bs = (.ok values, rest)) : Fit slots values := by
  induction slots generalizing bs with
  | nil => trivial
  | cons slot others ih =>
    obtain ⟨value, left, first, remaining⟩ := Field.Reading.andThen_ok read
    obtain ⟨later, tail, same⟩ := Field.Reading.refine_ok remaining
    obtain rfl := Except.ok.inj same
    exact ⟨Form.span_of_read first, ih tail⟩

theorem fits_ofFields (k : Kind) (values : Fields k.layout) (fit : Fit k.layout values) :
    (ofFields k values).Fits := by
  cases k <;> exact fit

/-- A signal that was read off the wire can be written again. -/
theorem fits_of_decode {bs : Octets} {s : Signal} (decoded : decode bs = .ok s) : s.Fits := by
  unfold decode at decoded
  split at decoded
  · simp at decoded
  · simp only at decoded
    split at decoded
    · simp at decoded
    · rename_i k _
      split at decoded
      · simp at decoded
      · rename_i values _ read
        split at decoded
        · simp at decoded
        · obtain rfl := Except.ok.inj decoded
          exact fits_ofFields k values (fit_of_readFields read)

end Signal
end SharedVariables
