import SharedVariables.Broker.Dump
import SharedVariables.Signal

/-! The questions of a client: a request together with the reading of its reply. -/
namespace SharedVariables

structure Inquiry (α : Type) where
  request : Signal
  read : Signal → Except Fault α

namespace Inquiry

def unexpected {α : Type} (expected : Signal.Kind) (actual : Signal) : Except Fault α :=
  .error (.unexpectedReply expected.name actual.kind.name)

/-- An error report of the other end is a fault, whatever was asked. -/
def orRemote (reply : Signal) : Except Fault Signal :=
  match reply with
  | .error code location => .error (.remote code location)
  | reply => .ok reply

def yesNo (request : Signal) : Inquiry Bool where
  request := request
  read
    | .yesNo yes => .ok yes
    | other => unexpected .yesNo other

def plain (request : Signal) : Inquiry Signal := ⟨request, .ok⟩

def register (id : Identity) (pid : UInt32) : Inquiry Unit where
  request := .registerProcessor id pid
  read
    | .yesNo true => .ok ()
    | .yesNo false => .error (.alreadyRegistered id)
    | other => unexpected .yesNo other

def listen (id : Identity) : Inquiry Unit where
  request := .registerEventChannel id
  read
    | .yesNo true => .ok ()
    | .yesNo false => .error (.notRegistered id)
    | other => unexpected .yesNo other

def isRegistered (id : Identity) : Inquiry Bool := yesNo (.isRegistered id)

/-- The null key means that the offer could not be recorded. -/
def matchOrMake (name : String) (wanted requester : Identity) : Inquiry (Key × Coupling) where
  request := .matchOrMake name wanted requester
  read
    | .matchOrMakeResult key coupling => .ok (key, coupling)
    | other => unexpected .matchOrMakeResult other

def retract (key : Key) : Inquiry Coupling where
  request := .retractOffer key
  read
    | .retractResult _ oldCoupling => .ok oldCoupling
    | other => unexpected .retractResult other

def mayUse (key : Key) (attempt : UInt32) : Inquiry Bool := yesNo (.mayUse key attempt)

def maySet (key : Key) (attempt : UInt32) : Inquiry Bool := yesNo (.maySet key attempt)

def readState : Signal → Except Fault State
  | .stateIs _ state => .ok state
  | other => unexpected .stateIs other

def setState (key : Key) (used : Bool) : Inquiry State := ⟨.setState key used, readState⟩

def getState (key : Key) : Inquiry State := ⟨.getState key, readState⟩

def readControl : Signal → Except Fault Mask
  | .controlIs _ control => .ok control
  | other => unexpected .controlIs other

/-- The control in force afterwards. -/
def setControl (key : Key) (control : Mask) : Inquiry Mask := ⟨.setControl key control, readControl⟩

def getControl (key : Key) : Inquiry Mask := ⟨.getControl key, readControl⟩

def getCoupling (key : Key) : Inquiry Coupling where
  request := .getCoupling key
  read
    | .couplingIs _ coupling => .ok coupling
    | other => unexpected .couplingIs other

def getVarname (key : Key) : Inquiry String where
  request := .getVarname key
  read
    | .varnameIs _ name => .ok name
    | other => unexpected .varnameIs other

def getValue (key : Key) : Inquiry Octets where
  request := .getValue key
  read
    | .valueIs _ code location payload =>
      if code = 0 then .ok payload else .error (.remote code location)
    | other => unexpected .valueIs other

def assignValue (key : Key) (payload : Octets) : Inquiry Unit where
  request := .assignValue key payload
  read
    | .assignWas _ code location => if code = 0 then .ok () else .error (.remote code location)
    | other => unexpected .assignWas other

def getEvents (id : Identity) : Inquiry (Option (Key × Events)) where
  request := .getEvents id
  read
    | .eventsAre key events => .ok (if key.isNull then none else some (key, events))
    | other => unexpected .eventsAre other

def clearAllEvents (id : Identity) : Inquiry Events where
  request := .clearAllEvents id
  read
    | .allEventsCleared events => .ok events
    | other => unexpected .allEventsCleared other

def addEvent (key : Key) (id : Identity) (events : Events) :
    Inquiry Bool := yesNo (.addEvent key id events)

def findOfferingId (key : Key) : Inquiry (Option Identity) where
  request := .findOfferingId key
  read
    | .offeringIdIs _ id => .ok (if id.isNobody then none else some id)
    | other => unexpected .offeringIdIs other

def offeringProcessors (target : Identity) : Inquiry (List Identity) where
  request := .getOfferingProcs target
  read
    | .offeringProcsAre procs => .ok procs
    | other => unexpected .offeringProcsAre other

def offeredVariables (target offerer : Identity) : Inquiry (List String) where
  request := .getOfferedVars target offerer
  read
    | .offeredVarsAre names => .ok names
    | other => unexpected .offeredVarsAre other

def findPairingKey (key : Key) : Inquiry (Option Key) where
  request := .findPairingKey key
  read
    | .pairingKeyIs _ pairing => .ok (if pairing.isNull then none else some pairing)
    | other => unexpected .pairingKeyIs other

def printDatabase (format : DumpFormat) : Inquiry String where
  request := .printDatabase format.toByte
  read
    | .databasePrinted text => .ok text
    | other => unexpected .databasePrinted other

end Inquiry
end SharedVariables
