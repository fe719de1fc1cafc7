import SharedVariables.Proofs.Sending

/-! Cutting a text to size. Of the leading parts that fit, the cut keeps the longest. It ends where
a search that goes back from the limit byte by byte first meets the end of a character, and that is
at most three bytes away. -/
namespace SharedVariables

namespace Octets

theorem ofText_append (part rest : String) :
    ofText (part ++ rest) = ofText part ++ ofText rest := by
  simp [ofText, String.toUTF8, String.toByteArray_append, ByteArray.data_append]

end Octets

namespace Text

/-- A leading part of a text that takes at most `room` bytes. -/
structure Leading (room : Nat) (s part : String) : Prop where
  begins : ∃ rest, s = part ++ rest
  fits : part.utf8ByteSize ≤ room

theorem cutChars_prefix (room : Nat) (cs : List Char) : cutChars room cs <+: cs := by
  fun_induction cutChars room cs with
  | case1 => exact List.nil_prefix
  | case2 room c rest here ih => exact List.prefix_cons_inj c |>.mpr ih
  | case3 => exact List.nil_prefix

/-- Characters that fit are not cut off. -/
theorem prefix_cutChars {room : Nat} {cs part : List Char} (begins : part <+: cs)
    (fits : (String.ofList part).utf8ByteSize ≤ room) : part <+: cutChars room cs := by
  fun_induction cutChars room cs generalizing part with
  | case1 => exact begins
  | case2 room c rest here ih =>
    rcases List.prefix_cons_iff.mp begins with rfl | ⟨tail, rfl, inner⟩
    · exact List.nil_prefix
    · simp only [String.ofList_cons, String.utf8ByteSize_append,
        String.utf8ByteSize_singleton] at fits
      exact List.prefix_cons_inj c |>.mpr (ih inner (by omega))
  | case3 room c rest wide =>
    rcases List.prefix_cons_iff.mp begins with rfl | ⟨tail, rfl, -⟩
    · exact List.nil_prefix
    · simp only [String.ofList_cons, String.utf8ByteSize_append,
        String.utf8ByteSize_singleton] at fits
      omega

/-- What is left free is less than a character takes. -/
theorem room_lt_cutChars {room : Nat} {cs : List Char}
    (long : room < (String.ofList cs).utf8ByteSize) :
    room < (String.ofList (cutChars room cs)).utf8ByteSize + 4 := by
  fun_induction cutChars room cs with
  | case1 => simp at long
  | case2 room c rest here ih =>
    simp only [String.ofList_cons, String.utf8ByteSize_append,
      String.utf8ByteSize_singleton] at long ⊢
    have free := ih (by omega)
    omega
  | case3 room c rest wide =>
    have small := c.utf8Size_le_four
    simp only [String.ofList_nil, String.utf8ByteSize_empty]
    omega

theorem cut_of_fits {room : Nat} {s : String} (fits : s.utf8ByteSize ≤ room) :
    cut room s = s := if_pos fits

theorem cut_of_long {room : Nat} {s : String} (long : room < s.utf8ByteSize) :
    cut room s = String.ofList (cutChars room s.toList) := if_neg (Nat.not_le.mpr long)

theorem leading_cut (room : Nat) (s : String) : Leading room s (cut room s) := by
  refine ⟨?_, utf8ByteSize_cut_le room s⟩
  rcases Nat.lt_or_ge room s.utf8ByteSize with long | fits
  · obtain ⟨rest, split⟩ := cutChars_prefix room s.toList
    refine ⟨String.ofList rest, ?_⟩
    rw [cut_of_long long, ← String.ofList_append, split, String.ofList_toList]
  · refine ⟨"", ?_⟩
    rw [cut_of_fits fits, String.append_empty]

theorem Leading.within_cut {room : Nat} {s part : String} (leading : Leading room s part) :
    ∃ more, cut room s = part ++ more := by
  obtain ⟨⟨rest, split⟩, fits⟩ := leading
  rcases Nat.lt_or_ge room s.utf8ByteSize with long | short
  · have begins : part.toList <+: s.toList := ⟨rest.toList, by rw [split, String.toList_append]⟩
    have small : (String.ofList part.toList).utf8ByteSize ≤ room := by rwa [String.ofList_toList]
    obtain ⟨more, kept⟩ := prefix_cutChars begins small
    refine ⟨String.ofList more, ?_⟩
    rw [cut_of_long long, ← kept, String.ofList_append, String.ofList_toList]
  · exact ⟨rest, by rw [cut_of_fits short, split]⟩

/-- The last place at or before `n` where a character ends, looked for backwards. -/
def lastBoundary (s : String) : Nat → Nat
  | 0 => 0
  | n + 1 => if String.Pos.Raw.isValid s ⟨n + 1⟩ then n + 1 else lastBoundary s n

theorem isValid_iff {s : String} {n : Nat} :
    String.Pos.Raw.isValid s ⟨n⟩ = true ↔
      ∃ part rest, s = part ++ rest ∧ part.utf8ByteSize = n := by
  rw [String.Pos.Raw.isValid_eq_true_iff, String.Pos.Raw.isValid_iff_exists_append]
  simp only [String.Pos.Raw.ext_iff, eq_comm]
  rfl

theorem leading_lastBoundary (s : String) (room : Nat) :
    ∃ part, Leading room s part ∧ part.utf8ByteSize = lastBoundary s room := by
  induction room with
  | zero => exact ⟨"", ⟨⟨s, String.empty_append.symm⟩, Nat.le_refl 0⟩, rfl⟩
  | succ n ih =>
    by_cases ends : String.Pos.Raw.isValid s ⟨n + 1⟩ = true
    · obtain ⟨part, rest, split, size⟩ := isValid_iff.mp ends
      exact ⟨part, ⟨⟨rest, split⟩, Nat.le_of_eq size⟩, by rw [lastBoundary, if_pos ends, size]⟩
    · obtain ⟨part, ⟨begins, fits⟩, size⟩ := ih
      exact ⟨part, ⟨begins, Nat.le_succ_of_le fits⟩, by rw [lastBoundary, if_neg ends, size]⟩

theorem Leading.le_lastBoundary {room : Nat} {s part : String} (leading : Leading room s part) :
    part.utf8ByteSize ≤ lastBoundary s room := by
  obtain ⟨⟨rest, split⟩, fits⟩ := leading
  induction room with
  | zero => exact fits
  | succ n ih =>
    by_cases ends : String.Pos.Raw.isValid s ⟨n + 1⟩ = true
    · rw [lastBoundary, if_pos ends]
      exact fits
    · rw [lastBoundary, if_neg ends]
      have other : part.utf8ByteSize ≠ n + 1 := fun size =>
        ends (isValid_iff.mpr ⟨part, rest, split, size⟩)
      exact ih (by omega)

theorem utf8ByteSize_cut (room : Nat) (s : String) :
    (cut room s).utf8ByteSize = lastBoundary s room := by
  obtain ⟨part, leading, size⟩ := leading_lastBoundary s room
  obtain ⟨more, kept⟩ := leading.within_cut
  apply Nat.le_antisymm (leading_cut room s).le_lastBoundary
  rw [← size, kept, String.utf8ByteSize_append]
  exact Nat.le_add_right _ _

theorem ofText_cut (room : Nat) (s : String) :
    Octets.ofText (cut room s) = (Octets.ofText s).take (lastBoundary s room) := by
  obtain ⟨rest, split⟩ := (leading_cut room s).begins
  have bytes : Octets.ofText s = Octets.ofText (cut room s) ++ Octets.ofText rest := by
    rw [← Octets.ofText_append, ← split]
  rw [bytes, List.take_left' (by rw [Octets.length_ofText, utf8ByteSize_cut])]

theorem encode_cut (s : String) :
    ∃ payload, (Signal.databasePrinted (cut Limits.stringField s)).encode = .ok payload :=
  (Signal.encode_ok_iff _).mpr ⟨utf8ByteSize_cut_le Limits.stringField s, trivial⟩

/-- A text that does not fit is cut behind the last character that does, found by going back from
the limit. No leading part of whole characters that fits is longer, a text that fits stays whole, at
most three bytes of the room are left unused, and with the room of one field the cut text can always
be sent, whatever the broker holds. -/
theorem cut_keeps_longest (room : Nat) (s : String) :
    Leading room s (cut room s) ∧
    (∀ part, Leading room s part → ∃ more, cut room s = part ++ more) ∧
    Octets.ofText (cut room s) = (Octets.ofText s).take (lastBoundary s room) ∧
    (cut room s = s ↔ s.utf8ByteSize ≤ room) ∧
    (room < s.utf8ByteSize → room ≤ (cut room s).utf8ByteSize + 3) ∧
    (∃ payload, (Signal.databasePrinted (cut Limits.stringField s)).encode = .ok payload) ∧
    ∀ (b : Broker) (format : DumpFormat), ∃ payload,
      (Signal.databasePrinted (b.dump format)).encode = .ok payload := by
  refine ⟨leading_cut room s, fun part leading =>
    leading.within_cut, ofText_cut room s, ?_, ?_, encode_cut s, ?_⟩
  · constructor
    · intro whole
      have fits := utf8ByteSize_cut_le room s
      rwa [whole] at fits
    · exact cut_of_fits
  · intro long
    have more : room < (String.ofList s.toList).utf8ByteSize := by rwa [String.ofList_toList]
    have free := room_lt_cutChars more
    rw [cut_of_long long]
    omega
  · intro b format
    exact encode_cut _

example : cut 3 "ab∆" = "ab" ∧ cut 10 "ab∆" = "ab∆" ∧ cut 2 "∆" = "" := by decide

end Text
end SharedVariables
