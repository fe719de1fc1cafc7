import SharedVariables.Fault
import SharedVariables.Limits
import SharedVariables.Text

/-! Names of shared variables: one to sixty-four code points, none of them NUL or blank. -/
namespace SharedVariables

namespace Name

def defect? (s : String) : Option String :=
  let cs := s.toList
  if cs.isEmpty then some "name is empty"
  else if Limits.nameLength < cs.length then
    some ("name has " ++ Text.decimal cs.length ++ " characters, maximum is " ++
      Text.decimal Limits.nameLength)
  else if cs.any (fun c => c == '\x00' || Text.isBlank c) then
    some "name contains NUL or whitespace"
  else none

theorem defect?_eq_none_iff {s : String} :
    defect? s = none ↔ s.toList ≠ [] ∧ s.toList.length ≤ Limits.nameLength ∧
      ∀ c ∈ s.toList, (c == '\x00' || Text.isBlank c) = false := by
  unfold defect?
  simp only
  split
  · rename_i empty
    simp [List.isEmpty_iff.mp empty]
  · rename_i present
    split
    · rename_i long
      simp [Nat.not_le.mpr long]
    · rename_i short
      simp only [List.isEmpty_iff] at present
      simp [present, Nat.not_lt.mp short]

end Name

structure Name where
  text : String
  sound : Name.defect? text = none
deriving DecidableEq

namespace Name

def ofText (s : String) : Except Fault Name :=
  match h : defect? s with
  | none => .ok ⟨s, h⟩
  | some reason => .error (.invalidName s reason)

end Name
end SharedVariables
