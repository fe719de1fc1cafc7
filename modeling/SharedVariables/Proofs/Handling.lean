import SharedVariables.Broker.Run
import SharedVariables.Proofs.Roster
import SharedVariables.Proofs.Table

/-! What a request can do to the broker and to the connections of others. Each handler is opened
once, here. -/
namespace SharedVariables

theorem Name.ofText_text (name : Name) : Name.ofText name.text = .ok name := by
  unfold Name.ofText
  split
  · rfl
  · rename_i defect
    simp [name.sound] at defect

namespace Broker

theorem caller_ok {b : Broker} {conn : ConnId} {id : Identity} (acts : b.caller conn = .ok id) :
    b.roster.identityOf? conn = some id := by
  unfold caller at acts
  split at acts
  · rename_i known
    rw [known, Except.ok.inj acts]
  · simp at acts

theorem held_ok {b : Broker} {conn : ConnId} {key : Key} {r : Record} {side : Side}
    (holds : b.held conn key = .ok (r, side)) :
    ∃ id, b.caller conn = .ok id ∧ b.table.activePartnerOf key id = .ok (r, side) := by
  unfold held at holds
  split at holds
  · simp at holds
  · rename_i id acts
    exact ⟨id, acts, holds⟩

/-- All that can come of a request. Either it is settled without any change, or it is one that
changes something and was found in order. -/
inductive Handled (b : Broker) (conn : ConnId) : Signal → Handling → Prop where
  | settled (request : Signal) (outcome : Except Fault Signal) :
      Handled b conn request (b.settle outcome)
  | registered {id : Identity} {pid : UInt32} {roster : Roster}
      (accepted : b.roster.register conn id pid = .ok roster) :
      Handled b conn (.registerProcessor id pid) ({ b with roster }.answer (.yesNo true))
  | listening {id : Identity} {roster : Roster}
      (accepted : b.roster.registerChannel conn id = .ok roster) :
      Handled b conn (.registerEventChannel id) ({ b with roster }.answer (.yesNo true))
  | shared {text : String} {name : Name} {wanted requester : Identity}
      {outcome : MatchOutcome} {table : Table}
      (sound : Name.ofText text = .ok name) (acts : b.caller conn = .ok requester)
      (done : b.table.matchOrMake name wanted requester conn = (outcome, table))
        (room : outcome ≠ .full) :
      Handled b conn (.matchOrMake text wanted requester)
        { outcome := .ok (.matchOrMakeResult outcome.key outcome.coupling)
          broker := { b with table }
          posts := b.matchPosts name requester outcome }
  | retracted {key : Key} {id : Identity} {release : Release} {table : Table}
      (acts : b.caller conn = .ok id)
      (done : b.table.retract key id = .ok (release, table)) :
      Handled b conn (.retractOffer key)
        { outcome := .ok (.retractResult key release.oldCoupling)
          broker := { b with table }
          posts := b.announce key release.remaining id }
  | reported {key : Key} {used : Bool} {r : Record} {side : Side}
      (holds : b.held conn key = .ok (r, side)) :
      Handled b conn (.setState key used)
        { outcome := .ok (.stateIs key (r.report used side).state)
          broker := { b with table := b.table.update key fun _ => r.report used side }
          posts := b.notify (r.report used side) side.other }
  | restrained {key : Key} {mask : Mask} {r : Record} {side : Side}
      (holds : b.held conn key = .ok (r, side)) :
      Handled b conn (.setControl key mask)
        { outcome := .ok (.controlIs key (r.setControl side mask).control)
          broker := { b with table := b.table.update key fun _ => r.setControl side mask }
          posts := b.notify (r.setControl side mask) side.other }
  | assigned {key : Key} {payload : Octets} {r : Record} {side : Side}
      (holds : b.held conn key = .ok (r, side)) :
      Handled b conn (.assignValue key payload)
        ({ b with table := b.table.update key fun r => { r with value := some payload } }.answer
          (.assignWas key 0 ""))
  | alerted {key : Key} {id : Identity} {events : Events} {table : Table} {posts : List Post}
      (done : b.table.addEvents key id events = .ok table)
        (told : posts = [] ∨ ∃ r side, posts = b.notify r side) :
      Handled b conn (.addEvent key id events)
        { outcome := .ok (.yesNo true), broker := { b with table }, posts }
  | cleared (id : Identity) : Handled b conn (.clearAllEvents id) (b.clearAllEvents id)

theorem registerProcessor_handled (b : Broker) (conn : ConnId) (id : Identity) (pid : UInt32) :
    Handled b conn (.registerProcessor id pid) (b.registerProcessor conn id pid) := by
  unfold registerProcessor
  split
  · exact .settled _ _
  · rename_i accepted
    exact .registered accepted

theorem registerEventChannel_handled (b : Broker) (conn : ConnId) (id : Identity) :
    Handled b conn (.registerEventChannel id) (b.registerEventChannel conn id) := by
  unfold registerEventChannel
  split
  · exact .settled _ _
  · rename_i accepted
    exact .listening accepted

theorem matchOrMake_handled (b : Broker) (conn : ConnId) (text : String)
    (wanted requester : Identity) :
    Handled b conn (.matchOrMake text wanted requester)
      (b.matchOrMake conn text wanted requester) := by
  unfold matchOrMake
  split
  · exact .settled _ _
  · rename_i acts
    split
    · exact .settled _ _
    · rename_i own
      obtain rfl := Decidable.not_not.mp own
      split
      · exact .settled _ _
      · rename_i sound
        split
        · rename_i full
          rw [Table.matchOrMake_full full]
          exact .settled _ _
        · rename_i room done
          exact .shared sound acts done room

theorem retract_handled (b : Broker) (conn : ConnId) (key : Key) :
    Handled b conn (.retractOffer key) (b.retract conn key) := by
  unfold retract
  split
  · exact .settled _ _
  · rename_i acts
    split
    · exact .settled _ _
    · rename_i done
      exact .retracted acts done

theorem setState_handled (b : Broker) (conn : ConnId) (key : Key) (used : Bool) :
    Handled b conn (.setState key used) (b.setState conn key used) := by
  unfold setState changeHeld
  split
  · exact .settled _ _
  · rename_i holds
    exact .reported holds

theorem setControl_handled (b : Broker) (conn : ConnId) (key : Key) (mask : Mask) :
    Handled b conn (.setControl key mask) (b.setControl conn key mask) := by
  unfold setControl changeHeld
  split
  · exact .settled _ _
  · rename_i holds
    exact .restrained holds

theorem assignValue_handled (b : Broker) (conn : ConnId) (key : Key) (payload : Octets) :
    Handled b conn (.assignValue key payload) (b.assignValue conn key payload) := by
  unfold assignValue
  split
  · exact .settled _ _
  · rename_i holds
    exact .assigned holds

theorem addEvent_handled (b : Broker) (conn : ConnId) (key : Key) (id : Identity)
    (events : Events) :
    Handled b conn (.addEvent key id events) (b.addEvent key id events) := by
  unfold addEvent
  split
  · exact .settled _ _
  · rename_i done
    refine .alerted done ?_
    split
    · exact .inl rfl
    · split
      · exact .inr ⟨_, _, rfl⟩
      · exact .inl rfl

theorem handle_handled (b : Broker) (conn : ConnId) (request : Signal) :
    Handled b conn request (b.handle conn request) := by
  cases request with
  | registerProcessor id pid => exact b.registerProcessor_handled conn id pid
  | registerEventChannel id => exact b.registerEventChannel_handled conn id
  | matchOrMake text wanted requester => exact b.matchOrMake_handled conn text wanted requester
  | retractOffer key => exact b.retract_handled conn key
  | setState key used => exact b.setState_handled conn key used
  | setControl key mask => exact b.setControl_handled conn key mask
  | assignValue key payload => exact b.assignValue_handled conn key payload
  | addEvent key id events => exact b.addEvent_handled conn key id events
  | clearAllEvents id => exact .cleared id
  | _ => exact .settled _ _

@[simp] theorem dispatch_broker (b : Broker) (conn : ConnId) (request : Signal) :
    (b.dispatch conn request).2.1 = (b.handle conn request).broker := by
  unfold dispatch
  simp only
  split <;> rfl

@[simp] theorem dispatch_posts (b : Broker) (conn : ConnId) (request : Signal) :
    (b.dispatch conn request).2.2 = (b.handle conn request).posts := by
  unfold dispatch
  simp only
  split <;> rfl

/-- A request brings no connection in and strikes none. -/
theorem Handled.listed {b : Broker} {conn : ConnId} {request : Signal} {h : Handling}
    (handled : Handled b conn request h) (c : ConnId) :
    (h.broker.roster.get? c).isSome = (b.roster.get? c).isSome := by
  cases handled with
  | registered accepted =>
    obtain ⟨-, -, -, -, -, e, found, -, entries⟩ := Roster.register_ok accepted
    by_cases here : c = conn <;> simp [answer, settle, entries, here, found]
  | listening accepted =>
    obtain ⟨-, -, -, -, e, found, -, entries⟩ := Roster.registerChannel_ok accepted
    by_cases here : c = conn <;> simp [answer, settle, entries, here, found]
  | _ => rfl

/-- How a record that is there after a request comes from those before it. -/
inductive Revised (b : Broker) (conn : ConnId) : Signal → Record → Prop where
  | kept {request : Signal} {r : Record} (old : r ∈ b.table.records) : Revised b conn request r
  | offered {text : String} {name : Name} {wanted requester : Identity}
      (acts : b.caller conn = .ok requester) :
      Revised b conn (.matchOrMake text wanted requester)
        (b.table.newOffer name wanted requester conn)
  | coupled {text : String} {wanted requester : Identity} {r : Record}
      (acts : b.caller conn = .ok requester)
      (old : r ∈ b.table.records) :
        Revised b conn (.matchOrMake text wanted requester) (r.couple requester conn)
  | released {key : Key} {side : Side} {r : Record} (old : r ∈ b.table.records) :
      Revised b conn (.retractOffer key) (r.release side)
  | reported {key : Key} {used : Bool} {side : Side} {r : Record} (old : r ∈ b.table.records) :
      Revised b conn (.setState key used) (r.report used side)
  | restrained {key : Key} {mask : Mask} {side : Side} {r : Record} (old : r ∈ b.table.records)
      (active : (r.partner side).isActive = true) :
        Revised b conn (.setControl key mask) (r.setControl side mask)
  | assigned {key : Key} {payload : Octets} {r : Record} (old : r ∈ b.table.records) :
      Revised b conn (.assignValue key payload) { r with value := some payload }
  | alerted {key : Key} {id : Identity} {events : Events} {side : Side} {r : Record}
      (old : r ∈ b.table.records) :
      Revised b conn (.addEvent key id events) (r.addEvents side events)
  | cleared {id : Identity} {r : Record} (old : r ∈ b.table.records) :
      Revised b conn (.clearAllEvents id) (r.clear id)

theorem Handled.revised {b : Broker} {conn : ConnId} {request : Signal} {h : Handling}
    (handled : Handled b conn request h) {r : Record} (mem : r ∈ h.broker.table.records) :
    Revised b conn request r := by
  cases handled with
  | settled | registered | listening => exact .kept mem
  | shared _ acts done _ =>
    rcases Table.mem_matchOrMake done mem with old | rfl | ⟨s, old, rfl⟩
    · exact .kept old
    · exact .offered acts
    · exact .coupled acts old
  | retracted _ done =>
    rcases Table.mem_retract done mem with ⟨old, -⟩ | ⟨s, old, _, side, -, -, rfl⟩
    · exact .kept old
    · exact .released old
  | reported holds =>
    obtain ⟨id, -, held⟩ := held_ok holds
    obtain ⟨found, -⟩ := Table.activePartnerOf_ok held
    rcases Table.mem_update.mp mem with ⟨old, -⟩ | ⟨-, -, -, rfl⟩
    · exact .kept old
    · exact .reported (Table.mem_of_get? found)
  | restrained holds =>
    obtain ⟨id, -, held⟩ := held_ok holds
    obtain ⟨found, -, active⟩ := Table.activePartnerOf_ok held
    rcases Table.mem_update.mp mem with ⟨old, -⟩ | ⟨-, -, -, rfl⟩
    · exact .kept old
    · exact .restrained (Table.mem_of_get? found) active
  | assigned =>
    rcases Table.mem_update.mp mem with ⟨old, -⟩ | ⟨s, old, -, rfl⟩
    · exact .kept old
    · exact .assigned old
  | alerted done =>
    rcases Table.mem_addEvents done mem with ⟨old, -⟩ | ⟨s, old, _, side, -, -, rfl⟩
    · exact .kept old
    · exact .alerted old
  | cleared id =>
    obtain ⟨s, old, rfl⟩ := Table.mem_clearEvents mem
    exact .cleared old

end Broker
end SharedVariables
