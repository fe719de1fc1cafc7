import SharedVariables.Table.Matching
import SharedVariables.Table.Release

/-! Running numbers move on with every offer, also with offers that are withdrawn at once. -/
namespace SharedVariables.Table

def offerOnce (t : Table) (name : Name) (wanted offerer : Identity) (conn : ConnId) :
    Option Key × Table :=
  match t.createOffer name wanted offerer conn with
  | (none, t) => (none, t)
  | (some key, t) =>
    match t.retract key offerer with
    | .ok (_, t) => (some key, t)
    | .error _ => (some key, t)

def churn (t : Table) (name : Name) (wanted offerer : Identity) (conn : ConnId) :
    Nat → Option Key × Table
  | 0 => (none, t)
  | 1 => t.offerOnce name wanted offerer conn
  | n + 1 => churn (t.offerOnce name wanted offerer conn).2 name wanted offerer conn n

end SharedVariables.Table
