import SharedVariables.Name
import SharedVariables.Proofs.RoundTrip

/-! Which signals come back as they were. All do but some lists of names: the text that joins one
empty name is that of no names, and a mark inside a name counts as one between names. -/
namespace SharedVariables

namespace Text

variable {mark : Char}

theorem splitChars_of_not_mem {word : List Char} (clear : mark ∉ word) :
    splitChars mark word = [word] := by
  induction word with
  | nil => rfl
  | cons c rest ih =>
    rw [List.mem_cons, not_or] at clear
    simp [splitChars, Ne.symm clear.1, ih clear.2]

theorem splitChars_append {word : List Char} (clear : mark ∉ word) (rest : List Char) :
    splitChars mark (word ++ mark :: rest) = word :: splitChars mark rest := by
  induction word with
  | nil => simp [splitChars]
  | cons c word ih =>
    rw [List.mem_cons, not_or] at clear
    simp [splitChars, Ne.symm clear.1, ih clear.2]

theorem splitChars_joinChars {words : List (List Char)} (nonempty : words ≠ [])
    (clear : ∀ word ∈ words, mark ∉ word) :
    splitChars mark (joinChars mark words) = words := by
  fun_induction joinChars mark words with
  | case1 => exact absurd rfl nonempty
  | case2 word => exact splitChars_of_not_mem (clear word List.mem_cons_self)
  | case3 word rest more ih =>
    have tail := ih more fun w later => clear w (List.mem_cons_of_mem _ later)
    rw [splitChars_append (clear word List.mem_cons_self), tail]

theorem not_mem_of_mem_splitChars {word cs : List Char} (piece : word ∈ splitChars mark cs) :
    mark ∉ word := by
  fun_induction splitChars mark cs generalizing word with
  | case1 => simp_all
  | case2 cs ih =>
    rcases List.mem_cons.mp piece with rfl | later
    · simp
    · exact ih later
  | case3 c cs apart none ih => exact absurd none (splitChars_ne_nil mark cs)
  | case4 c cs apart first rest pieces ih =>
    rw [pieces] at ih
    rcases List.mem_cons.mp piece with rfl | later
    · have inside := ih List.mem_cons_self
      simp [Ne.symm apart, inside]
    · exact ih (List.mem_cons_of_mem _ later)

theorem joinChars_eq_nil {words : List (List Char)} :
    joinChars mark words = [] ↔ words = [] ∨ words = [[]] := by
  fun_cases joinChars mark words with
  | case1 => simp
  | case2 word => simp
  | case3 word rest more => simpa using fun _ => more

theorem split_join {words : List String} (nonempty : words ≠ [])
    (clear : ∀ word ∈ words, mark ∉ word.toList) :
    split mark (join mark words) = words := by
  have pieces : splitChars mark (joinChars mark (words.map String.toList)) =
      words.map String.toList := by
    apply splitChars_joinChars
    · simpa using nonempty
    · simpa using clear
  simp [split, join, pieces, Function.comp_def]

theorem not_mem_of_mem_split {word s : String} (piece : word ∈ split mark s) :
    mark ∉ word.toList := by
  obtain ⟨cs, mem, rfl⟩ := List.mem_map.mp piece
  simpa using not_mem_of_mem_splitChars mem

theorem join_eq_empty {words : List String} : join mark words = "" ↔ words = [] ∨ words = [""] := by
  have none : join mark words = "" ↔ joinChars mark (words.map String.toList) = [] := by
    rw [← String.toList_inj]
    simp [join]
  rw [none, joinChars_eq_nil]
  simp [List.map_eq_singleton_iff]

end Text

namespace Signal

theorem Form.namesOf_join_iff {words : List String} :
    Form.namesOf (Text.join nameMark words) = words ↔
      words ≠ [""] ∧ ∀ word ∈ words, nameMark ∉ word.toList := by
  unfold Form.namesOf
  constructor
  · intro same
    split at same
    · simp [← same]
    · rename_i joined
      refine ⟨fun blank => joined (Text.join_eq_empty.mpr (.inr blank)), fun word mem => ?_⟩
      rw [← same] at mem
      exact Text.not_mem_of_mem_split mem
  · rintro ⟨notBlank, clear⟩
    split
    · rename_i empty
      exact ((Text.join_eq_empty.mp empty).resolve_right notBlank).symm
    · rename_i joined
      exact Text.split_join (fun none => joined (Text.join_eq_empty.mpr (.inl none))) clear

/-- The bytes of each field of variable length: those of a text or a payload, twelve for each
identity of a list, and those of the names of a list with one between neighbours. -/
def extents : Signal → List Nat
  | .matchOrMake name _ _ => [name.utf8ByteSize]
  | .assignValue _ payload => [payload.length]
  | .varnameIs _ name => [name.utf8ByteSize]
  | .valueIs _ _ errorLoc payload => [errorLoc.utf8ByteSize, payload.length]
  | .assignWas _ _ errorLoc => [errorLoc.utf8ByteSize]
  | .offeringProcsAre procs => [12 * procs.length]
  | .offeredVarsAre names => [Text.totalSize names + (names.length - 1)]
  | .databasePrinted text => [text.utf8ByteSize]
  | .error _ location => [location.utf8ByteSize]
  | .offerMade _ name _ => [name.utf8ByteSize]
  | _ => []

theorem fits_iff_extents (s : Signal) : s.Fits ↔ ∀ n ∈ s.extents, n ≤ 65535 := by
  cases s with
  | offeredVarsAre names =>
    simp [Fits, Fit, kind, fields, Kind.layout, Form.span, extents, Limits.stringField,
      utf8ByteSize_joinNames]
  | _ =>
    simp [Fits, Fit, kind, fields, Kind.layout, Form.span, extents,
      Limits.stringField, Identity.wireSize]

/-- What comes back of a signal. -/
def echo : Signal → Signal
  | .offeredVarsAre names => .offeredVarsAre (Form.namesOf (Text.join nameMark names))
  | s => s

theorem echo_of_ne {s : Signal} (other : s.kind ≠ .offeredVarsAre) : s.echo = s := by
  cases s with
  | offeredVarsAre => exact absurd rfl other
  | _ => rfl

theorem readFields_names {names : List String} {body : Octets}
    (written : writeFields Kind.offeredVarsAre.layout (names, ()) = .ok body) :
    readFields Kind.offeredVarsAre.layout body =
      (.ok (Form.namesOf (Text.join nameMark names), ()), []) := by
  simp only [Kind.layout, writeFields, Form.write, Field.writeText] at written
  split at written
  · simp at written
  · rename_i first here
    obtain rfl := Except.ok.inj written
    obtain ⟨fits, rfl⟩ := Field.writeBytes_ok.mp here
    rw [Octets.length_ofText] at fits
    have text := Field.readText_append "names" fits []
    simp only [Kind.layout, readFields, Form.read, text, Field.Reading.refine,
      Field.Reading.andThen, Except.bind]

theorem decode_of_encode_echo {s : Signal} {payload : Octets} (encoded : s.encode = .ok payload) :
    decode payload = .ok s.echo := by
  by_cases names : s.kind = .offeredVarsAre
  · cases s with
    | offeredVarsAre names =>
      obtain ⟨body, written, rfl⟩ := encode_eq_ok.mp encoded
      exact decode_of_readFields .offeredVarsAre (readFields_names written)
    | _ => simp [kind] at names
  · rw [echo_of_ne names]
    exact decode_of_encode names encoded

/-- One empty name, or a name with the mark in it that stands between names. -/
def Ambiguous : Signal → Prop
  | .offeredVarsAre names => names = [""] ∨ ∃ name ∈ names, '\x00' ∈ name.toList
  | _ => False

theorem echo_eq_self_iff (s : Signal) : s.echo = s ↔ ¬ s.Ambiguous := by
  cases s with
  | offeredVarsAre names =>
    simp only [echo, offeredVarsAre.injEq, Form.namesOf_join_iff, Ambiguous, not_or,
      not_exists, not_and]
    rfl
  | _ => simp [echo, Ambiguous]

end Signal

namespace Name

theorem text_ne_empty (name : Name) : name.text ≠ "" := by
  intro empty
  obtain ⟨present, -⟩ := defect?_eq_none_iff.mp name.sound
  simp [empty] at present

theorem not_mem_text (name : Name) : '\x00' ∉ name.text.toList := by
  intro inside
  obtain ⟨-, -, clear⟩ := defect?_eq_none_iff.mp name.sound
  simpa using clear _ inside

theorem not_ambiguous (names : List Name) :
    ¬ (Signal.offeredVarsAre (names.map (·.text))).Ambiguous := by
  rintro (blank | ⟨text, mem, inside⟩)
  · have mem : "" ∈ names.map (·.text) := by simp [blank]
    obtain ⟨name, -, empty⟩ := List.mem_map.mp mem
    exact name.text_ne_empty empty
  · obtain ⟨name, -, rfl⟩ := List.mem_map.mp mem
    exact name.not_mem_text inside

end Name

namespace Signal

/-- Encoding fails only where a field is too long, and decoding undoes it for exactly the signals
that are not ambiguous. The lists of names that processors have offered never are. -/
theorem decode_encode_iff :
    (∀ s : Signal, ((∃ b, s.encode = .ok b) ↔ ∀ n ∈ s.extents, n ≤ 65535) ∧
      ∀ b, s.encode = .ok b → (decode b = .ok s ↔ ¬ s.Ambiguous)) ∧
    ∀ (names : List Name) (b : Octets), (offeredVarsAre (names.map (·.text))).encode = .ok b →
      decode b = .ok (offeredVarsAre (names.map (·.text))) := by
  have back {s : Signal} {b : Octets} (encoded : s.encode = .ok b) : decode b = .ok s ↔
      ¬ s.Ambiguous := by
    rw [decode_of_encode_echo encoded, Except.ok.injEq, echo_eq_self_iff]
  refine ⟨fun s => ⟨s.encode_ok_iff.trans s.fits_iff_extents, fun b => back⟩,
    fun names b encoded => ?_⟩
  exact (back encoded).mpr (Name.not_ambiguous names)

/-- Two empty names come back and one does not; names of variables do. -/
theorem decode_encode_iff_lists :
    (∃ b, (offeredVarsAre ["", ""]).encode = .ok b ∧ decode b = .ok (offeredVarsAre ["", ""])) ∧
      (∃ b, (offeredVarsAre [""]).encode = .ok b ∧ decode b ≠ .ok (offeredVarsAre [""])) ∧
      ∃ b, (offeredVarsAre ["CTL", "DAT"]).encode = .ok b ∧
        decode b = .ok (offeredVarsAre ["CTL", "DAT"]) := by
  refine ⟨?_, ?_, ?_⟩
  · have law := decode_encode_iff.1 (offeredVarsAre ["", ""])
    obtain ⟨b, encoded⟩ := law.1.mpr (by decide)
    exact ⟨b, encoded, (law.2 b encoded).mpr (by simp [Ambiguous])⟩
  · have law := decode_encode_iff.1 (offeredVarsAre [""])
    obtain ⟨b, encoded⟩ := law.1.mpr (by decide)
    exact ⟨b, encoded, fun same => (law.2 b encoded).mp same (.inl rfl)⟩
  · obtain ⟨b, encoded⟩ := (decode_encode_iff.1 (offeredVarsAre ["CTL", "DAT"])).1.mpr (by decide)
    exact ⟨b, encoded, decode_encode_iff.2 [⟨"CTL", by decide⟩, ⟨"DAT", by decide⟩] b encoded⟩

end Signal
end SharedVariables
