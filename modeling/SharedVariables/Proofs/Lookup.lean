/-! Looking up by key in a list whose elements carry their key. Directories, rosters and tables are
kept that way. -/
namespace SharedVariables.Lookup

variable {α κ : Type} [DecidableEq κ] (key : α → κ)

/-- Striking one key leaves what is found under the others. -/
theorem find_strike (xs : List α) (k l : κ) :
    (xs.filter fun x => key x != k).find? (fun x => key x == l) =
      if l = k then none else xs.find? fun x => key x == l := by
  rw [List.find?_filter]
  by_cases same : l = k
  · subst l
    simp
  · rw [if_neg same]
    congr 1
    funext x
    by_cases found : key x = l
    · simp [found, same]
    · simp [found]

/-- A change that keeps the keys shows under the one key that it is made for. -/
theorem find_change (xs : List α) (k : κ) (f : α → α) (keeps : ∀ x, key x = k → key (f x) = k)
    (l : κ) :
    (xs.map fun x => if key x == k then f x else x).find? (fun x => key x == l) =
      if l = k then (xs.find? fun x => key x == k).map f else xs.find? fun x => key x == l := by
  induction xs with
  | nil => simp
  | cons x xs ih =>
    rw [List.map_cons, List.find?_cons, ih, List.find?_cons, List.find?_cons]
    by_cases here : key x = k
    · have kept := keeps x here
      by_cases same : l = k
      · simp [same, here, kept]
      · have apart : (k == l) = false := by simpa using fun h => same h.symm
        simp [same, here, kept, apart]
    · have missed : (key x == k) = false := by simpa using here
      by_cases wanted : key x = l
      · have other : l ≠ k := fun h => here (wanted.trans h)
        simp [other, wanted]
      · have passed : (key x == l) = false := by simpa using wanted
        simp [missed, passed]

end SharedVariables.Lookup
