import SharedVariables.Proofs.Recovery

/-! Where a signal ends. Each field is of a fixed width or says how long it is, so that a reader
leaves alone what follows and misses what is cut off, wherever the cut falls. This is proved of the
readers that all others are made of and kept by the ways of making them. -/
namespace SharedVariables

/-- Says that bytes are missing, at least one and no more than there are. -/
def Fault.Lacks (missing : Octets) : Fault → Prop
  | .truncated _ needed => 0 < needed ∧ needed ≤ missing.length
  | _ => False

namespace Field

/-- A reader that finds the end of a value by itself. -/
structure Delimits {α : Type} (read : Octets → Reading α) : Prop where
  /-- What was read is read again before any other bytes. -/
  whole : ∀ {bs rest a}, read bs = (.ok a, rest) →
    ∃ raw, bs = raw ++ rest ∧ ∀ more, read (raw ++ more) = (.ok a, more)
  /-- A part of what is read is not enough. -/
  short : ∀ {part missing a}, read (part ++ missing) = (.ok a, []) → missing ≠ [] →
    ∃ fault left, read part = (.error fault, left) ∧ fault.Lacks missing

variable {α β : Type}

theorem Delimits.append {read : Octets → Reading α} (delimits : Delimits read) {raw : Octets}
    {a : α} (found : read raw = (.ok a, [])) (more : Octets) :
    read (raw ++ more) = (.ok a, more) := by
  obtain ⟨raw', same, again⟩ := delimits.whole found
  rw [List.append_nil] at same
  rw [same]
  exact again more

theorem delimits_readRaw (field : String) (n : Nat) : Delimits (readRaw field n) where
  whole := by
    intro bs rest raw taken
    obtain ⟨rfl, rfl⟩ := readRaw_ok taken
    exact ⟨raw, rfl, readRaw_append field raw⟩
  short := by
    intro part missing raw taken lacking
    obtain ⟨rfl, split⟩ := readRaw_ok taken
    have size : part.length + missing.length = raw.length := by
      have lengths := congrArg List.length split
      simpa using lengths
    have positive := List.length_pos_iff.mpr lacking
    refine ⟨.truncated field (raw.length - part.length), part, ?_, ?_⟩
    · have all : part.take raw.length = part := List.take_of_length_le (by omega)
      simp only [readRaw, all]
      rw [if_pos (by omega)]
    · simp only [Fault.Lacks]
      omega

theorem Delimits.refine {read : Octets → Reading α} (delimits : Delimits read)
    (f : α → Except Fault β) :
    Delimits fun bs => Reading.refine (read bs) f where
  whole := by
    intro bs rest b refined
    obtain ⟨a, found, checked⟩ := Reading.refine_ok refined
    obtain ⟨raw, rfl, again⟩ := delimits.whole found
    refine ⟨raw, rfl, fun more => ?_⟩
    simp [again, Reading.refine, Except.bind, checked]
  short := by
    intro part missing b refined lacking
    obtain ⟨a, found, -⟩ := Reading.refine_ok refined
    obtain ⟨fault, left, failed, lacks⟩ := delimits.short found lacking
    exact ⟨fault, left, by simp [failed, Reading.refine, Except.bind], lacks⟩

theorem Delimits.andThen {read : Octets → Reading α} {next : α → Octets → Reading β}
    (first : Delimits read) (second : ∀ a, Delimits (next a)) :
    Delimits fun bs => Reading.andThen (read bs) next where
  whole := by
    intro bs rest b both
    obtain ⟨a, left, found, continued⟩ := Reading.andThen_ok both
    obtain ⟨raw, rfl, again⟩ := first.whole found
    obtain ⟨raw', rfl, onward⟩ := (second a).whole continued
    refine ⟨raw ++ raw', by simp, fun more => ?_⟩
    simp [List.append_assoc, again, Reading.andThen, onward]
  short := by
    intro part missing b both lacking
    obtain ⟨a, left, found, continued⟩ := Reading.andThen_ok both
    obtain ⟨raw, split, again⟩ := first.whole found
    -- The cut falls into what the first reader takes, or behind it.
    rcases List.append_eq_append_iff.mp split with ⟨rest, rfl, rfl⟩ | ⟨rest, rfl, rfl⟩
    · by_cases none : rest = []
      · subst rest
        rw [List.append_nil] at again
        have start : read part = (.ok a, []) := by simpa using again []
        have cut : ∃ fault last, next a [] = (.error fault, last) ∧ fault.Lacks left :=
          (second a).short continued lacking
        obtain ⟨fault, last, failed, lacks⟩ := cut
        exact ⟨fault, last, by simp [start, Reading.andThen, failed], lacks⟩
      · obtain ⟨fault, left, failed, lacks⟩ := first.short (by simpa using again []) none
        refine ⟨fault, left, by simp [failed, Reading.andThen], ?_⟩
        cases fault with
        | truncated field needed =>
          simp only [Fault.Lacks, List.length_append] at lacks ⊢
          omega
        | _ => exact lacks
    · obtain ⟨fault, left, failed, lacks⟩ := (second a).short continued lacking
      exact ⟨fault, left, by simp [again, Reading.andThen, failed], lacks⟩

theorem delimits_readUnsigned (field : String) (width : Nat) :
    Delimits (readUnsigned field width) :=
  (delimits_readRaw field width).refine _

theorem readBytes_eq (field : String) (bs : Octets) :
    readBytes field bs = Reading.andThen (readUnsigned field 2 bs) (readRaw field) := by
  unfold readBytes
  rcases readUnsigned field 2 bs with ⟨_ | _, _⟩ <;> rfl

theorem delimits_readBytes (field : String) : Delimits (readBytes field) := by
  have both := (delimits_readUnsigned field 2).andThen (delimits_readRaw field)
  simpa only [← readBytes_eq] using both

theorem delimits_readText (field : String) :
    Delimits (readText field) := (delimits_readBytes field).refine _

end Field

namespace Signal

open SharedVariables.Field

namespace Form

theorem delimits_readByte (field : String) :
    Delimits (readByte field) := (delimits_readUnsigned field 1).refine _

theorem delimits_readWord (field : String) :
    Delimits (readWord field) := (delimits_readUnsigned field 4).refine _

theorem delimits_readIdentity (field : String) : Delimits (readIdentity field) :=
  (delimits_readWord field).andThen fun _ => (delimits_readWord field).andThen fun _ =>
    (delimits_readWord field).refine _

theorem delimits_read (f : Form) (field : String) : Delimits (f.read field) := by
  cases f with
  | byte => exact delimits_readByte field
  | word => exact delimits_readWord field
  | text => exact delimits_readText field
  | bytes => exact delimits_readBytes field
  | identity => exact delimits_readIdentity field
  | key => exact (delimits_readUnsigned field 8).refine _
  | events => exact (delimits_readWord field).refine _
  | identities => exact (delimits_readBytes field).refine _
  | names => exact (delimits_readText field).refine _
  | flag | mask | state | coupling => exact (delimits_readByte field).refine _

end Form

theorem delimits_readFields (slots : List Slot) : Delimits (readFields slots) := by
  induction slots with
  | nil =>
    constructor
    · intro bs rest values read
      obtain ⟨-, rfl⟩ := Prod.mk.inj read
      exact ⟨[], rfl, fun _ => rfl⟩
    · intro part missing values read lacking
      have none : part ++ missing = [] := (Prod.mk.inj read).2
      exact absurd (List.append_eq_nil_iff.mp none).2 lacking
  | cons slot rest ih => exact (slot.form.delimits_read slot.name).andThen fun _ => ih.refine _

def kindOf (n : Nat) : Except Fault Kind :=
  match Kind.ofTag? (UInt16.ofNat n) with
  | some k => .ok k
  | none => .error (.unknownKind (UInt16.ofNat n))

/-- A signal, whatever follows it. -/
def readFirst (bs : Octets) : Reading Signal :=
  Reading.andThen (Reading.refine (readUnsigned "kind" 2 bs) kindOf) fun k bs =>
    Reading.refine (readFields k.layout bs) fun values => .ok (ofFields k values)

theorem delimits_readFirst : Delimits readFirst :=
  ((delimits_readUnsigned "kind" 2).refine _).andThen fun k =>
    (delimits_readFields k.layout).refine _

/-- Decoding is reading, and nothing may follow. -/
theorem decode_eq (bs : Octets) :
    decode bs = (readFirst bs).1.bind fun s => (finish (readFirst bs).2).map fun _ => s := by
  unfold decode readFirst
  rcases readUnsigned "kind" 2 bs with ⟨_ | n, rest⟩
  · rfl
  · simp only [Reading.refine, Except.bind, kindOf]
    cases Kind.ofTag? (UInt16.ofNat n) with
    | none => rfl
    | some k =>
      simp only [Reading.andThen]
      rcases readFields k.layout rest with ⟨_ | values, left⟩
      · rfl
      · simp only
        cases finish left <;> rfl

theorem decode_ok_iff {bs : Octets} {s : Signal} :
    decode bs = .ok s ↔ readFirst bs = (.ok s, []) := by
  rw [decode_eq]
  rcases readFirst bs with ⟨_ | t, rest⟩
  · simp [Except.bind]
  · cases rest <;> simp [Except.bind, finish, Except.map]

theorem decode_of_error {bs left : Octets} {fault : Fault}
    (failed : readFirst bs = (.error fault, left)) :
    decode bs = .error fault := by
  rw [decode_eq, failed]
  rfl

theorem decode_of_left {bs left : Octets} {s : Signal} (found : readFirst bs = (.ok s, left))
    (surplus : left ≠ []) :
    decode bs = .error
      (.malformed "field" (Text.decimal left.length ++ " trailing bytes after last field")) := by
  rw [decode_eq, found]
  simp [Except.bind, finish, surplus, Except.map]

/-- The bytes are those of the fields one after the other, each read as its value and with nothing
left. -/
def Spells : (slots : List Slot) → Fields slots → Octets → Prop
  | [], _, bs => bs = []
  | slot :: rest, (value, values), bs =>
    ∃ raw more, bs = raw ++ more ∧ slot.form.read slot.name raw = (.ok value, []) ∧
      Spells rest values more

theorem readFields_ok_iff {slots : List Slot} {values : Fields slots} {bs : Octets} :
    readFields slots bs = (.ok values, []) ↔ Spells slots values bs := by
  induction slots generalizing bs with
  | nil => simp [readFields, Spells]
  | cons slot rest ih =>
    obtain ⟨value, values⟩ := values
    have delimits := slot.form.delimits_read slot.name
    constructor
    · intro read
      obtain ⟨value', left, first, remaining⟩ := Reading.andThen_ok read
      obtain ⟨values', tail, same⟩ := Reading.refine_ok remaining
      obtain ⟨rfl, rfl⟩ := Prod.mk.inj (Except.ok.inj same)
      obtain ⟨raw, rfl, again⟩ := delimits.whole first
      exact ⟨raw, left, rfl, by simpa using again [], ih.mp tail⟩
    · rintro ⟨raw, more, rfl, first, tail⟩
      simp [readFields, delimits.append first, Reading.andThen, Reading.refine,
        ih.mpr tail, Except.bind]

theorem Kind.tag_of_ofTag? {tag : UInt16} {k : Kind} (known : ofTag? tag = some k) :
    k.tag = tag := by
  simpa using List.find?_some known

theorem kindOf_ok {n : Nat} {k : Kind} (known : kindOf n = .ok k) : k.tag = UInt16.ofNat n := by
  unfold kindOf at known
  split at known
  · rename_i found
    obtain rfl := Except.ok.inj known
    exact Kind.tag_of_ofTag? found
  · simp at known

theorem spells_ofFields (k : Kind) {values : Fields k.layout} {bs : Octets}
    (spelt : Spells k.layout values bs) :
    Spells (ofFields k values).kind.layout (ofFields k values).fields bs := by
  cases k <;> exact spelt

/-- What is decoded is a tag and the fields that go with it, to the last byte. -/
theorem decode_ok_iff_spells {b : Octets} {s : Signal} : decode b = .ok s ↔
    ∃ body, b = Octets.ofNat 2 s.kind.tag.toNat ++ body ∧ Spells s.kind.layout s.fields body := by
  constructor
  · intro decoded
    obtain ⟨k, body, tagged, remaining⟩ := Reading.andThen_ok (decode_ok_iff.mp decoded)
    obtain ⟨n, counted, known⟩ := Reading.refine_ok tagged
    obtain ⟨small, rfl⟩ := readUnsigned_ok counted
    obtain ⟨values, read, same⟩ := Reading.refine_ok remaining
    obtain rfl := Except.ok.inj same
    refine ⟨body, ?_, spells_ofFields k (readFields_ok_iff.mp read)⟩
    rw [kind_ofFields, kindOf_ok known, UInt16.toNat_ofNat',
      Nat.mod_eq_of_lt (show n < 2 ^ 16 from small)]
  · rintro ⟨body, rfl, spelt⟩
    rw [decode_of_readFields s.kind (readFields_ok_iff.mpr spelt), ofFields_fields]

/-- A cut anywhere in an encoding leaves bytes missing, and anything behind it is too much. So no
encoding begins another, and what is decoded consists of a tag and fields. -/
theorem encoding_delimited :
    (∀ (s : Signal) (b : Octets), s.encode = .ok b →
      (∀ part missing, b = part ++ missing → missing ≠ [] →
        ∃ field needed, 0 < needed ∧ needed ≤ missing.length ∧
          decode part = .error (.truncated field needed)) ∧
      (∀ more, more ≠ [] → decode (b ++ more) =
        .error (.malformed "field"
          (Text.decimal more.length ++ " trailing bytes after last field"))) ∧
      ∀ (t : Signal) (more : Octets), t.encode = .ok (b ++ more) → more = []) ∧
    ∀ (b : Octets) (s : Signal), decode b = .ok s ↔
      ∃ body, b = Octets.ofNat 2 s.kind.tag.toNat ++ body ∧ Spells s.kind.layout s.fields body := by
  refine ⟨fun s b encoded => ?_, fun b s => decode_ok_iff_spells⟩
  have found := decode_ok_iff.mp (decode_of_encode_echo encoded)
  have surplus {more : Octets} (nonempty : more ≠ []) : decode (b ++ more) =
      .error (.malformed "field"
        (Text.decimal more.length ++ " trailing bytes after last field")) :=
    decode_of_left (delimits_readFirst.append found more) nonempty
  refine ⟨?_, fun more => surplus, ?_⟩
  · rintro part missing rfl lacking
    obtain ⟨fault, left, failed, lacks⟩ := delimits_readFirst.short found lacking
    cases fault with
    | truncated field needed => exact ⟨field, needed, lacks.1, lacks.2, decode_of_error failed⟩
    | _ => exact lacks.elim
  · intro t more longer
    refine Classical.byContradiction fun nonempty => ?_
    have accepted := decode_of_encode_echo longer
    simp [surplus nonempty] at accepted

/-- A list of one name, cut in the middle of its only character, and with one byte too many. -/
theorem encoding_delimited_character :
    let b : Octets := [0x80, 0x0e, 0, 2, 0xc3, 0xa9]
    (offeredVarsAre ["é"]).encode = .ok b ∧
      (∃ field needed, 0 < needed ∧ needed ≤ 1 ∧
        decode [0x80, 0x0e, 0, 2, 0xc3] = .error (.truncated field needed)) ∧
      decode (b ++ [0]) =
        .error (.malformed "field" (Text.decimal 1 ++ " trailing bytes after last field")) := by
  intro b
  have encoded : (offeredVarsAre ["é"]).encode = .ok b := by rfl
  obtain ⟨short, surplus, -⟩ := encoding_delimited.1 _ b encoded
  exact ⟨encoded, short [0x80, 0x0e, 0, 2, 0xc3] [0xa9] rfl (by simp), surplus [0] (by simp)⟩

end Signal
end SharedVariables
