import SharedVariables.Proofs.Survivors

/-! Everything that can be done to a table, in any order and any number. Whatever is done leaves a
table in order. -/
namespace SharedVariables

namespace Record

/-- What can be done to a record that has been found. -/
inductive Amendment where
  | report (used : Bool) (side : Side)
  | restrain (side : Side) (mask : Mask)
  | alert (side : Side) (events : Events)
  | assign (payload : Octets)
deriving DecidableEq

def amend (r : Record) : Amendment → Record
  | .report used side => r.report used side
  | .restrain side mask => r.setControl side mask
  | .alert side events => r.addEvents side events
  | .assign payload => { r with value := some payload }

@[simp] theorem key_amend (r : Record) (a : Amendment) : (r.amend a).key = r.key := by
  cases a <;> simp [amend]

theorem sameSides_amend (r : Record) (a : Amendment) : r.SameSides (r.amend a) := by
  cases a with
  | report used side => exact r.sameSides_report used side
  | restrain side mask => exact r.sameSides_setControl side mask
  | alert side events => exact r.sameSides_addEvents side events
  | assign payload => exact r.sameSides_withValue (some payload)

end Record

namespace Table

inductive Operation where
  | matchOrMake (name : Name) (wanted requester : Identity) (conn : ConnId)
  | createOffer (name : Name) (wanted offerer : Identity) (conn : ConnId)
  | retract (key : Key) (caller : Identity)
  | disconnect (conn : ConnId)
  | reap
  | addEvents (key : Key) (id : Identity) (events : Events)
  | clearEvents (id : Identity)
  /-- A record is amended by whoever has found it under its key. -/
  | amend (key : Key) (amendment : Record.Amendment)
deriving DecidableEq

/-- The table after an operation. One that fails leaves it as it is. -/
def perform (t : Table) : Operation → Table
  | .matchOrMake name wanted requester conn => (t.matchOrMake name wanted requester conn).2
  | .createOffer name wanted offerer conn => (t.createOffer name wanted offerer conn).2
  | .retract key caller => ((t.retract key caller).toOption.map (·.2)).getD t
  | .disconnect conn => (t.disconnect conn).2
  | .reap => t.reap.2
  | .addEvents key id events => (t.addEvents key id events).toOption.getD t
  | .clearEvents id => (t.clearEvents id).2
  | .amend key amendment => t.update key (·.amend amendment)

def performAll (t : Table) (ops : List Operation) : Table := ops.foldl perform t

variable {t : Table}

theorem Sound.perform (sound : t.Sound) (op : Operation) : (t.perform op).Sound := by
  cases op with
  | matchOrMake name wanted requester conn => exact sound.matchOrMake rfl
  | createOffer name wanted offerer conn =>
    rcases made : t.createOffer name wanted offerer conn with ⟨_ | key, s⟩
    · simp only [Table.perform, made, createOffer_none made]
      exact sound
    · simp only [Table.perform, made]
      exact sound.createOffer made
  | retract key caller =>
    cases done : t.retract key caller with
    | error e =>
      simp only [Table.perform, done]
      exact sound
    | ok result =>
      simp only [Table.perform, done]
      exact sound.retract done
  | disconnect conn =>
    simp only [Table.perform, disconnect_eq_without sound]
    exact sound.without [conn]
  | reap => exact sound.filter _
  | addEvents key id events =>
    cases done : t.addEvents key id events with
    | error e =>
      simp only [Table.perform, done]
      exact sound
    | ok s =>
      simp only [Table.perform, done]
      exact sound.addEvents done
  | clearEvents id => exact sound.clearEvents id
  | amend key amendment =>
    apply sound.update_sameSides
    intro r _
    exact ⟨r.key_amend amendment, r.sameSides_amend amendment⟩

theorem Sound.performAll (sound : t.Sound) (ops : List Operation) : (t.performAll ops).Sound := by
  induction ops generalizing t with
  | nil => exact sound
  | cons op later ih => exact ih (sound.perform op)

end Table
end SharedVariables
