import SharedVariables.Broker.Dump
import SharedVariables.Table.Matching
import SharedVariables.Table.Query
import SharedVariables.Table.Release

/-! How the broker handles each request. A request that fails changes nothing and sends nothing. -/
namespace SharedVariables.Broker

def registerProcessor (b : Broker) (conn : ConnId) (id : Identity) (pid : UInt32) : Handling :=
  match b.roster.register conn id pid with
  | .error e => b.refuse e
  | .ok roster => { b with roster }.answer (.yesNo true)

def registerEventChannel (b : Broker) (conn : ConnId) (id : Identity) : Handling :=
  match b.roster.registerChannel conn id with
  | .error e => b.refuse e
  | .ok roster => { b with roster }.answer (.yesNo true)

/-- Who is told of the outcome of a request to share. -/
def matchPosts (b : Broker) (name : Name) (requester : Identity) : MatchOutcome → List Post
  | .matched key offerer => b.push offerer (.offerMatched key requester)
  | .created key target =>
    if target.isGeneral then [] else b.push target (.offerMade key name.text requester)
  | .full => []

/-- Shares a variable. A processor can only offer as itself. -/
def matchOrMake (b : Broker) (conn : ConnId) (name : String) (wanted requester : Identity) :
    Handling :=
  match b.caller conn with
  | .error e => b.refuse e
  | .ok id =>
    if requester ≠ id then b.refuse (.notPartner .null requester)
    else
      match Name.ofText name with
      | .error e => b.refuse e
      | .ok name =>
        match b.table.matchOrMake name wanted requester conn with
        | (.full, table) => { b with table }.refuse (.tableFull (table.capacity.getD table.size))
        | (outcome, table) =>
          { outcome := .ok (.matchOrMakeResult outcome.key outcome.coupling)
            broker := { b with table }
            posts := b.matchPosts name requester outcome }

def retract (b : Broker) (conn : ConnId) (key : Key) : Handling :=
  match b.caller conn with
  | .error e => b.refuse e
  | .ok id =>
    match b.table.retract key id with
    | .error e => b.refuse e
    | .ok (release, table) =>
      { outcome := .ok (.retractResult key release.oldCoupling)
        broker := { b with table }
        posts := b.announce key release.remaining id }

/-- Changes a record whose side the caller holds, answers from the changed record, and tells the
other side. -/
def changeHeld (b : Broker) (conn : ConnId) (key : Key) (change : Record → Side → Record)
    (reply : Record → Signal) : Handling :=
  match b.held conn key with
  | .error e => b.refuse e
  | .ok (r, side) =>
    let changed := change r side
    { outcome := .ok (reply changed)
      broker := { b with table := b.table.update key fun _ => changed }
      posts := b.notify changed side.other }

def setState (b : Broker) (conn : ConnId) (key : Key) (used : Bool) : Handling :=
  b.changeHeld conn key (fun r side => r.report used side) fun r => .stateIs key r.state

/-- Replaces the caller's restrictions; the reply is the control in force. -/
def setControl (b : Broker) (conn : ConnId) (key : Key) (mask : Mask) : Handling :=
  b.changeHeld conn key (fun r side => r.setControl side mask) fun r => .controlIs key r.control

def assignValue (b : Broker) (conn : ConnId) (key : Key) (payload : Octets) : Handling :=
  match b.held conn key with
  | .error e => b.refuse e
  | .ok _ =>
    { b with table := b.table.update key fun r => { r with value := some payload } }.answer
    (.assignWas key 0 "")

def getValue (b : Broker) (conn : ConnId) (key : Key) : Except Fault Signal :=
  match b.held conn key with
  | .error e => .error e
  | .ok (r, _) =>
    match r.value with
    | some payload => .ok (.valueIs key 0 "" payload)
    | none => .error (.noValue key)

def addEvent (b : Broker) (key : Key) (id : Identity) (events : Events) : Handling :=
  match b.table.addEvents key id events with
  | .error e => b.refuse e
  | .ok table =>
    { outcome := .ok (.yesNo true)
      broker := { b with table }
      posts :=
        match table.get? key with
        | none => []
        | some r =>
          match r.activeSideOf? id with
          | some side => b.notify r side
          | none => [] }

def clearAllEvents (b : Broker) (id : Identity) : Handling :=
  let (events, table) := b.table.clearEvents id
  { b with table }.answer (.allEventsCleared events)

def printDatabase (b : Broker) (format : UInt8) : Except Fault Signal :=
  match DumpFormat.ofByte? format with
  | some f => .ok (.databasePrinted (b.dump f))
  | none =>
    .error (.malformed Signal.Kind.printDatabase.name
      ("unknown format " ++ Text.decimal format.toNat))

def handle (b : Broker) (conn : ConnId) (request : Signal) : Handling :=
  match request with
  | .registerProcessor id pid => b.registerProcessor conn id pid
  | .registerEventChannel id => b.registerEventChannel conn id
  | .isRegistered id => b.answer (.yesNo (b.roster.isRegistered id))
  | .matchOrMake name wanted requester => b.matchOrMake conn name wanted requester
  | .retractOffer key => b.retract conn key
  | .findPairingKey key => b.answer (.pairingKeyIs key ((b.table.pairingKey? key).getD .null))
  | .mayUse key _ => b.settle ((b.held conn key).map fun (r, side) => .yesNo (r.mayUse side))
  | .maySet key _ => b.settle ((b.held conn key).map fun (r, side) => .yesNo (r.maySet side))
  | .setState key used => b.setState conn key used
  | .getState key => b.settle ((b.record key).map fun r => .stateIs key r.state)
  | .setControl key mask => b.setControl conn key mask
  | .getControl key => b.settle ((b.record key).map fun r => .controlIs key r.control)
  | .getCoupling key => b.settle ((b.record key).map fun r => .couplingIs key r.coupling)
  | .getVarname key => b.settle ((b.record key).map fun r => .varnameIs key r.name.text)
  | .getValue key => b.settle (b.getValue conn key)
  | .assignValue key payload => b.assignValue conn key payload
  | .getEvents id =>
    let (key, events) := (b.table.events? id).getD (.null, ∅)
    b.answer (.eventsAre key events)
  | .clearAllEvents id => b.clearAllEvents id
  | .addEvent key id events => b.addEvent key id events
  | .findOfferingId key =>
    b.settle ((b.record key).map fun r => .offeringIdIs key r.offering.id)
  | .getOfferingProcs target => b.answer (.offeringProcsAre (b.table.offeringProcessors target))
  | .getOfferedVars target offerer =>
    b.answer (.offeredVarsAre ((b.table.offeredVariables target offerer).map (·.text)))
  | .printDatabase format => b.settle (b.printDatabase format)
  | other => b.refuse (.malformed other.kind.name "not a request")

end SharedVariables.Broker
