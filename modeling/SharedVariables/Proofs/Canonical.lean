import SharedVariables.Proofs.Delimiting

/-! What is decoded is encoded in the same bytes again, but for two forms that are read with less
care than they are written: any byte but zero says yes, and of the word of events only the low six
bits count. -/
namespace SharedVariables

namespace Identity

theorem toOctets_ofOctets {bs : Octets} (size : bs.length = wireSize) :
    (ofOctets bs).toOctets = bs := by
  have word {raw : Octets} (four : raw.length = 4) :
      Octets.ofNat 4 (UInt32.ofNat (Octets.toNat raw)).toNat = raw := by
    have small : Octets.toNat raw < 2 ^ 32 := by
      have bound := Octets.toNat_lt raw
      rwa [four] at bound
    rw [UInt32.toNat_ofNat', Nat.mod_eq_of_lt small, Octets.ofNat_toNat four]
  simp only [wireSize] at size
  have proc : (bs.take 4).length = 4 := by simp [size]
  have parent : ((bs.drop 4).take 4).length = 4 := by simp [size]
  have grand : ((bs.drop 8).take 4).length = 4 := by simp [size]
  have last : (bs.drop 8).take 4 = bs.drop 8 := List.take_of_length_le (by simp [size])
  have tail : (bs.drop 4).take 4 ++ bs.drop 8 = bs.drop 4 := by
    rw [show bs.drop 8 = (bs.drop 4).drop 4 by simp]
    exact List.take_append_drop 4 _
  simp only [ofOctets, toOctets]
  rw [word proc, word parent, word grand, last, tail]
  exact List.take_append_drop 4 bs

theorem flatMap_listOfOctets {n : Nat} {bs : Octets} (size : bs.length = wireSize * n) :
    (listOfOctets n bs).flatMap toOctets = bs := by
  induction n generalizing bs with
  | zero => simpa [listOfOctets, eq_comm] using size
  | succ n ih =>
    rw [Nat.mul_succ] at size
    have first : (bs.take wireSize).length = wireSize := by simp [size]
    have rest : (bs.drop wireSize).length = wireSize * n := by simp [size]
    rw [listOfOctets, List.flatMap_cons, toOctets_ofOctets first, ih rest]
    exact List.take_append_drop _ _

end Identity

theorem Mask.bits_of_ofBits? {b : UInt8} {m : Mask} (known : ofBits? b = some m) : m.bits = b := by
  unfold ofBits? at known
  split at known
  · rename_i small
    obtain rfl := Option.some.inj known
    have each : ∀ n < 16, (ofBits (UInt8.ofNat n)).bits = UInt8.ofNat n := by decide
    simpa using each b.toNat (UInt8.lt_iff_toNat_lt.mp small)
  · simp at known

theorem State.bits_of_ofBits? {b : UInt8} {s : State} (known : ofBits? b = some s) :
    s.mask.bits = b := by
  simpa using List.find?_some known

theorem Coupling.toByte_of_ofByte? {b : UInt8} {c : Coupling} (known : ofByte? b = some c) :
    c.toByte = b := by
  simpa using List.find?_some known

theorem Events.toNat_bits_ofBits (w : UInt32) : (ofBits w).bits.toNat = w.toNat % 64 := by
  have each : ∀ n < 64, (ofBits (UInt32.ofNat n)).bits.toNat = n := by decide
  have bit {i : Nat} (low : i < 6) : (w.toNat % 64).testBit i = w.toNat.testBit i := by
    rw [show (64 : Nat) = 2 ^ 6 from rfl, Nat.testBit_mod_two_pow]
    simp [low]
  have low : ofBits w = ofBits (UInt32.ofNat (w.toNat % 64)) := by
    have whole : (UInt32.ofNat (w.toNat % 64)).toNat = w.toNat % 64 :=
      UInt32.toNat_ofNat_of_lt' (show w.toNat % 64 < 4294967296 by omega)
    simp only [ofBits, whole, bit, Nat.reduceLT]
  rw [low]
  exact each _ (Nat.mod_lt _ (by decide))

namespace Field

theorem writeBytes_of_readBytes {field : String} {bs value rest : Octets}
    (read : readBytes field bs = (.ok value, rest)) :
    ∃ raw, writeBytes value = .ok raw ∧ bs = raw ++ rest := by
  have fits := readBytes_ok read
  rw [readBytes_eq] at read
  obtain ⟨n, left, counted, taken⟩ := Reading.andThen_ok read
  obtain ⟨-, rfl⟩ := readUnsigned_ok counted
  obtain ⟨rfl, rfl⟩ := readRaw_ok taken
  exact ⟨_, writeBytes_ok.mpr ⟨fits, rfl⟩, by simp⟩

theorem writeText_of_readText {field s : String} {bs rest : Octets}
    (read : readText field bs = (.ok s, rest)) :
    ∃ raw, writeText s = .ok raw ∧ bs = raw ++ rest := by
  obtain ⟨value, taken, spelt⟩ := Reading.refine_ok read
  split at spelt
  · rename_i text
    obtain rfl := Except.ok.inj spelt
    rw [writeText, Octets.ofText_of_toText? text]
    exact writeBytes_of_readBytes taken
  · simp at spelt

end Field

namespace Signal

open SharedVariables.Field

namespace Form

theorem readByte_ok {field : String} {bs rest : Octets} {b : UInt8}
    (read : readByte field bs = (.ok b, rest)) :
    bs = b :: rest := by
  obtain ⟨n, counted, same⟩ := Reading.refine_ok read
  obtain rfl := Except.ok.inj same
  obtain ⟨-, rfl⟩ := readUnsigned_ok counted
  simp [Octets.ofNat, Octets.range]

theorem readWord_ok {field : String} {bs rest : Octets} {w : UInt32}
    (read : readWord field bs = (.ok w, rest)) :
    bs = Octets.ofNat 4 w.toNat ++ rest := by
  obtain ⟨n, counted, same⟩ := Reading.refine_ok read
  obtain rfl := Except.ok.inj same
  obtain ⟨small, rfl⟩ := readUnsigned_ok counted
  rw [UInt32.toNat_ofNat', Nat.mod_eq_of_lt (show n < 2 ^ 32 from small)]

theorem readIdentity_ok {field : String} {bs rest : Octets} {i : Identity}
    (read : readIdentity field bs = (.ok i, rest)) : bs = i.toOctets ++ rest := by
  obtain ⟨proc, left, first, read⟩ := Reading.andThen_ok read
  obtain ⟨parent, left', second, read⟩ := Reading.andThen_ok read
  obtain ⟨grand, third, same⟩ := Reading.refine_ok read
  obtain rfl := Except.ok.inj same
  rw [readWord_ok first, readWord_ok second, readWord_ok third]
  simp [Identity.toOctets]

theorem orMalformed_ok {α : Type} {value : Option α} {field message : String} {a : α}
    (known : orMalformed value field message = .ok a) : value = some a := by
  cases value with
  | none => simp [orMalformed] at known
  | some b => rw [Except.ok.inj known]

/-- The bytes in which a value is written that was read from some. -/
def clean : Form → Octets → Octets
  | .flag, raw => raw.map fun b => if b = 0 then 0 else 1
  | .events, raw => List.zipWith (· &&& ·) raw [0, 0, 0, 0x3f]
  | _, raw => raw

/-- The forms whose values are written in one way only. -/
def isExact : Form → Bool
  | .flag | .events => false
  | _ => true

theorem clean_of_isExact {f : Form} (exactly : f.isExact = true) (raw : Octets) :
    f.clean raw = raw := by
  cases f with
  | flag | events => simp [isExact] at exactly
  | _ => rfl

theorem clean_events (n : Nat) : events.clean (Octets.ofNat 4 n) = Octets.ofNat 4 (n % 64) := by
  have low : UInt8.ofNat n &&& 0x3f = UInt8.ofNat (n % 64) := by
    apply UInt8.toNat.inj
    rw [UInt8.toNat_and, UInt8.toNat_ofNat', UInt8.toNat_ofNat']
    rw [show (0x3f : UInt8).toNat = 2 ^ 6 - 1 from rfl, Nat.and_two_pow_sub_one_eq_mod]
    omega
  have high (m : Nat) (large : 64 ≤ m) : n % 64 / m = 0 := by
    apply Nat.div_eq_of_lt
    omega
  simp [clean, Octets.ofNat, Octets.range, low, high]

theorem write_of_read {f : Form} {field : String} {raw : Octets} {v : f.Carrier}
    (read : f.read field raw = (.ok v, [])) : f.write v = .ok (f.clean raw) := by
  cases f with
  | byte => rw [readByte_ok read]; rfl
  | word => rw [readWord_ok read, List.append_nil]; rfl
  | identity => rw [readIdentity_ok read, List.append_nil]; rfl
  | text =>
    obtain ⟨bytes, written, rfl⟩ := writeText_of_readText read
    rw [List.append_nil]
    exact written
  | bytes =>
    obtain ⟨bytes, written, rfl⟩ := writeBytes_of_readBytes read
    rw [List.append_nil]
    exact written
  | key =>
    obtain ⟨n, counted, same⟩ := Reading.refine_ok read
    obtain rfl := Except.ok.inj same
    obtain ⟨small, rfl⟩ := readUnsigned_ok counted
    rw [List.append_nil, write, UInt64.toNat_ofNat', Nat.mod_eq_of_lt (show n < 2 ^ 64 from small)]
    rfl
  | flag =>
    obtain ⟨b, found, same⟩ := Reading.refine_ok read
    obtain rfl := Except.ok.inj same
    rw [readByte_ok found]
    by_cases zero : b = 0 <;> simp [write, clean, zero]
  | events =>
    obtain ⟨w, found, same⟩ := Reading.refine_ok read
    obtain rfl := Except.ok.inj same
    rw [readWord_ok found, List.append_nil, clean_events, write, Events.toNat_bits_ofBits]
  | mask =>
    obtain ⟨b, found, known⟩ := Reading.refine_ok read
    rw [readByte_ok found, write, Mask.bits_of_ofBits? (orMalformed_ok known)]
    rfl
  | state =>
    obtain ⟨b, found, known⟩ := Reading.refine_ok read
    rw [readByte_ok found, write, State.bits_of_ofBits? (orMalformed_ok known)]
    rfl
  | coupling =>
    obtain ⟨b, found, known⟩ := Reading.refine_ok read
    rw [readByte_ok found, write, Coupling.toByte_of_ofByte? (orMalformed_ok known)]
    rfl
  | identities =>
    obtain ⟨value, found, whole⟩ := Reading.refine_ok read
    obtain ⟨bytes, written, rfl⟩ := writeBytes_of_readBytes found
    unfold identitiesOf at whole
    split at whole
    · rename_i even
      obtain rfl := Except.ok.inj whole
      have size : value.length = Identity.wireSize * (value.length / Identity.wireSize) :=
        (Nat.mul_div_cancel' (Nat.dvd_of_mod_eq_zero even)).symm
      rw [List.append_nil, write, Identity.flatMap_listOfOctets size]
      exact written
    · simp at whole
  | names =>
    obtain ⟨joined, found, same⟩ := Reading.refine_ok read
    obtain rfl := Except.ok.inj same
    obtain ⟨bytes, written, rfl⟩ := writeText_of_readText found
    have back : Text.join nameMark (namesOf joined) = joined := by
      unfold namesOf
      split
      · rename_i none
        rw [none]
        rfl
      · exact Text.join_split nameMark joined
    rw [List.append_nil, write, back]
    exact written

theorem length_clean {f : Form} {field : String} {raw : Octets} {v : f.Carrier}
    (read : f.read field raw = (.ok v, [])) : (f.clean raw).length = raw.length := by
  cases f with
  | events =>
    obtain ⟨w, found, -⟩ := Reading.refine_ok read
    rw [readWord_ok found, List.append_nil, clean_events]
    simp
  | flag => exact List.length_map _
  | _ => rfl

/-- The bytes of a form that takes the same number for every value. -/
def width : Form → Nat
  | .byte | .flag | .mask | .state | .coupling => 1
  | .word | .events => 4
  | .key => 8
  | .identity => 12
  | .text | .bytes | .identities | .names => 0

theorem length_of_write {f : Form} (fixed : f.isFixed = true) {v : f.Carrier} {bs : Octets}
    (written : f.write v = .ok bs) : bs.length = f.width := by
  cases f with
  | text | bytes | identities | names => simp [isFixed] at fixed
  | _ =>
    obtain rfl := Except.ok.inj written
    simp [width, Identity.wireSize]

end Form

theorem writeFields_cons {slot : Slot} {rest : List Slot} {value : slot.form.Carrier}
    {values : Fields rest} {first others : Octets} (here : slot.form.write value = .ok first)
    (later : writeFields rest values = .ok others) :
    writeFields (slot :: rest) (value, values) = .ok (first ++ others) := by
  simp [writeFields, here, later]

theorem writeFields_of_spells {slots : List Slot}
    (exactly : ∀ slot ∈ slots, slot.form.isExact = true) {values : Fields slots} {bs : Octets}
    (spelt : Spells slots values bs) : writeFields slots values = .ok bs := by
  induction slots generalizing bs with
  | nil => rw [writeFields, show bs = [] from spelt]
  | cons slot rest ih =>
    obtain ⟨value, values⟩ := values
    obtain ⟨raw, more, rfl, read, tail⟩ := spelt
    have here := Form.write_of_read read
    rw [Form.clean_of_isExact (exactly slot List.mem_cons_self)] at here
    exact writeFields_cons here (ih (fun s mem => exactly s (List.mem_cons_of_mem _ mem)) tail)

theorem length_writeFields_of_spells {slots : List Slot} {values : Fields slots} {bs : Octets}
    (spelt : Spells slots values bs) :
    ∃ body, writeFields slots values = .ok body ∧ body.length = bs.length := by
  induction slots generalizing bs with
  | nil => exact ⟨[], rfl, by rw [show bs = [] from spelt]⟩
  | cons slot rest ih =>
    obtain ⟨value, values⟩ := values
    obtain ⟨raw, more, rfl, read, tail⟩ := spelt
    obtain ⟨others, later, size⟩ := ih tail
    refine ⟨_, writeFields_cons (Form.write_of_read read) later, ?_⟩
    simp [Form.length_clean read, size]

def widths : List Slot → Nat
  | [] => 0
  | slot :: rest => slot.form.width + widths rest

theorem writeFields_of_spells_last {slots front : List Slot} {last : Slot}
    (split : slots = front ++ [last])
    (plain : ∀ slot ∈ front, slot.form.isExact = true ∧ slot.form.isFixed = true)
    {values : Fields slots} {bs : Octets} (spelt : Spells slots values bs) :
    writeFields slots values =
      .ok (bs.take (widths front) ++ last.form.clean (bs.drop (widths front))) := by
  subst split
  induction front generalizing bs with
  | nil =>
    obtain ⟨value, _⟩ := values
    obtain ⟨raw, more, rfl, read, rfl⟩ := spelt
    have none : writeFields [] () = .ok [] := rfl
    simpa [widths] using writeFields_cons (Form.write_of_read read) none
  | cons slot rest ih =>
    obtain ⟨value, values⟩ := values
    obtain ⟨raw, more, rfl, read, tail⟩ := spelt
    obtain ⟨exactly, fixed⟩ := plain slot List.mem_cons_self
    have here := Form.write_of_read read
    rw [Form.clean_of_isExact exactly] at here
    have later := ih (fun s mem => plain s (List.mem_cons_of_mem _ mem)) tail
    have behind : widths (slot :: rest) = raw.length + widths rest := by
      simp [widths, Form.length_of_write fixed here]
    rw [behind, List.take_length_add_append, List.drop_length_add_append, List.append_assoc]
    exact writeFields_cons here later

/-- Where in a signal the field stands whose value has more than one spelling, and its form. -/
def Kind.loose : Kind → Option (Nat × Form)
  | .yesNo => some (2, .flag)
  | .setState => some (10, .flag)
  | .allEventsCleared => some (2, .events)
  | .eventsAre | .eventsPending => some (10, .events)
  | .addEvent => some (22, .events)
  | _ => none

/-- The bytes in which a signal is encoded that was decoded from some. -/
def Kind.canonical (k : Kind) (b : Octets) : Octets :=
  match k.loose with
  | some (start, form) => b.take start ++ form.clean (b.drop start)
  | none => b

/-- A field with more than one spelling is the last, behind fields of fixed width with one
spelling. -/
theorem Kind.layout_cases (k : Kind) :
    (k.loose = none ∧ ∀ slot ∈ k.layout, slot.form.isExact = true) ∨
      ∃ front last, k.layout = front ++ [last] ∧ k.loose = some (2 + widths front, last.form) ∧
        ∀ slot ∈ front, slot.form.isExact = true ∧ slot.form.isFixed = true := by
  cases k with
  | yesNo => exact .inr ⟨[], _, rfl, rfl, by simp⟩
  | allEventsCleared => exact .inr ⟨[], _, rfl, rfl, by simp⟩
  | setState | eventsAre | eventsPending => exact .inr ⟨[_], _, rfl, rfl, by decide⟩
  | addEvent => exact .inr ⟨[_, _], _, rfl, rfl, by decide⟩
  | _ => exact .inl ⟨rfl, by decide⟩

theorem encode_canonical {b : Octets} {s : Signal} (decoded : decode b = .ok s) :
    s.encode = .ok (s.kind.canonical b) := by
  obtain ⟨body, rfl, spelt⟩ := decode_ok_iff_spells.mp decoded
  apply encode_eq_ok.mpr
  rcases s.kind.layout_cases with ⟨loose, exactly⟩ | ⟨front, last, split, loose, plain⟩
  · exact ⟨body, writeFields_of_spells exactly spelt, by simp [Kind.canonical, loose]⟩
  · refine ⟨_, writeFields_of_spells_last split plain spelt, ?_⟩
    have behind : 2 + widths front = (Octets.ofNat 2 s.kind.tag.toNat).length + widths front := by
      simp
    simp only [Kind.canonical, loose]
    rw [behind, List.take_length_add_append, List.drop_length_add_append, List.append_assoc]

theorem length_canonical {b : Octets} {s : Signal} (decoded : decode b = .ok s) :
    (s.kind.canonical b).length = b.length := by
  obtain ⟨body, whole, written⟩ := encode_eq_ok.mp (encode_canonical decoded)
  obtain ⟨bytes, rfl, spelt⟩ := decode_ok_iff_spells.mp decoded
  obtain ⟨again, same, size⟩ := length_writeFields_of_spells spelt
  obtain rfl := Except.ok.inj (whole.symm.trans same)
  simp [written, size]

/-- Whatever is decoded can be encoded, in as many bytes, which decode to the same signal. They are
the same bytes, but for a flag that was neither zero nor one and for bits of an event word that
stand for no event. -/
theorem encode_of_decode {b : Octets} {s : Signal} (decoded : decode b = .ok s) :
    s.encode = .ok (s.kind.canonical b) ∧ (s.kind.canonical b).length = b.length ∧
      decode (s.kind.canonical b) = .ok s ∧
      (s.kind ∉ [.setState, .yesNo, .addEvent, .eventsAre, .allEventsCleared, .eventsPending] →
        s.encode = .ok b) := by
  have encoded := encode_canonical decoded
  have unchanged (other : s.kind.loose = none) : s.kind.canonical b = b := by
    simp [Kind.canonical, other]
  refine ⟨encoded, length_canonical decoded, ?_, ?_⟩
  · by_cases names : s.kind = .offeredVarsAre
    · rw [unchanged (by rw [names]; rfl)]
      exact decoded
    · exact decode_of_encode names encoded
  · intro other
    rw [encoded, unchanged]
    revert other
    cases s.kind <;> decide

/-- A yes that is written as seven, and all bits of a word of events. -/
theorem encode_of_decode_loose :
    (decode [0x80, 0x01, 7] = .ok (yesNo true) ∧ (yesNo true).encode = .ok [0x80, 0x01, 1] ∧
        decode [0x80, 0x01, 1] = .ok (yesNo true)) ∧
      ∃ events, decode [0x80, 0x0b, 0xff, 0xff, 0xff, 0xff] = .ok (allEventsCleared events) ∧
        (allEventsCleared events).encode = .ok [0x80, 0x0b, 0, 0, 0, 0x3f] := by
  have yes : decode [0x80, 0x01, 7] = .ok (yesNo true) := by rfl
  have all : decode [0x80, 0x0b, 0xff, 0xff, 0xff, 0xff] =
      .ok (allEventsCleared ⟨true, true, true, true, true, true⟩) := by rfl
  obtain ⟨written, -, back, -⟩ := encode_of_decode yes
  exact ⟨⟨yes, written, back⟩, _, all, (encode_of_decode all).1⟩

end Signal
end SharedVariables
