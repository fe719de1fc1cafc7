import SharedVariables.Broker
import SharedVariables.Table.Release

/-! Connections that go away. A command connection takes along the event channel of its processor
and the connections of all processors that depend on it, and so on from there; the sides held over
these connections are released. -/
namespace SharedVariables.Broker

def releaseSides (b : Broker) (conn : ConnId) (leaver : Identity) : Broker × List Post :=
  let (releases, table) := b.table.disconnect conn
  ({ b with table }, releases.flatMap fun r => b.announce r.key r.remaining leaver)

/-- The connections that go along with a processor, in the order in which they leave. -/
def followers (b : Broker) (leaver : Identity) : List ConnId :=
  ((b.roster.dependentsOf leaver).map (·.1)).reverse ++ (b.roster.channelOf? leaver).toList

/-- Strikes the pending connections one after the other, each with all that goes along with it. -/
def depart (b : Broker) (pending : List ConnId) : Broker × List Post :=
  match pending with
  | [] => (b, [])
  | conn :: rest =>
    match _h : b.roster.remove conn with
    | (none, _) => b.depart rest
    | (some entry, roster) =>
      match entry.identity, entry.role with
      | some leaver, .command =>
        let (freed, told) := { b with roster }.releaseSides conn leaver
        let (left, later) := depart { freed with roster } (freed.followers leaver ++ rest)
        (left, .hangUp conn :: told ++ later)
      | _, _ =>
        let (left, later) := depart { b with roster } rest
        (left, .hangUp conn :: later)
termination_by (b.roster.entries.length, pending.length)
decreasing_by
  · exact Prod.Lex.right _ (Nat.lt_succ_self _)
  · exact Prod.Lex.left _ _ (Roster.length_remove_lt _h)
  · exact Prod.Lex.left _ _ (Roster.length_remove_lt _h)

def disconnect (b : Broker) (conn : ConnId) : Broker × List Post := b.depart [conn]

end SharedVariables.Broker
