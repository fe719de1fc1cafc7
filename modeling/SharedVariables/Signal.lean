import SharedVariables.Control
import SharedVariables.Coupling
import SharedVariables.Events
import SharedVariables.Fault
import SharedVariables.Octets

/-! What broker and clients say to each other: requests, replies, and notifications that are pushed
unasked. -/
namespace SharedVariables

inductive Signal where
  | registerProcessor (identity : Identity) (pid : UInt32)
  | registerEventChannel (identity : Identity)
  | isRegistered (identity : Identity)
  | matchOrMake (name : String) (wanted requester : Identity)
  | retractOffer (key : Key)
  | findPairingKey (key : Key)
  | mayUse (key : Key) (attempt : UInt32)
  | maySet (key : Key) (attempt : UInt32)
  | setState (key : Key) (used : Bool)
  | getState (key : Key)
  | setControl (key : Key) (control : Mask)
  | getControl (key : Key)
  | getCoupling (key : Key)
  | getVarname (key : Key)
  | getValue (key : Key)
  | assignValue (key : Key) (payload : Octets)
  | getEvents (identity : Identity)
  | clearAllEvents (identity : Identity)
  | addEvent (key : Key) (identity : Identity) (events : Events)
  | findOfferingId (key : Key)
  | getOfferingProcs (target : Identity)
  | getOfferedVars (target offerer : Identity)
  | printDatabase (format : UInt8)
  | yesNo (yes : Bool)
  | matchOrMakeResult (key : Key) (coupling : Coupling)
  | retractResult (key : Key) (oldCoupling : Coupling)
  | stateIs (key : Key) (state : State)
  | controlIs (key : Key) (control : Mask)
  | couplingIs (key : Key) (coupling : Coupling)
  | varnameIs (key : Key) (name : String)
  | valueIs (key : Key) (code : UInt32) (errorLoc : String) (payload : Octets)
  | assignWas (key : Key) (code : UInt32) (errorLoc : String)
  | eventsAre (key : Key) (events : Events)
  | allEventsCleared (events : Events)
  | offeringIdIs (key : Key) (identity : Identity)
  | offeringProcsAre (procs : List Identity)
  | offeredVarsAre (names : List String)
  | pairingKeyIs (key pairing : Key)
  | databasePrinted (text : String)
  | error (code : UInt32) (location : String)
  | offerMade (key : Key) (name : String) (offerer : Identity)
  | offerMatched (key : Key) (acceptor : Identity)
  | offerRetracted (key : Key) (leaver : Identity)
  | eventsPending (key : Key) (events : Events)
deriving DecidableEq, Inhabited

namespace Signal

inductive Kind where
  | registerProcessor | registerEventChannel | isRegistered
  | matchOrMake | retractOffer | findPairingKey
  | mayUse | maySet | setState | getState | setControl | getControl | getCoupling | getVarname
  | getValue | assignValue
  | getEvents | clearAllEvents | addEvent
  | findOfferingId | getOfferingProcs | getOfferedVars | printDatabase
  | yesNo | matchOrMakeResult | retractResult | stateIs | controlIs | couplingIs | varnameIs
  | valueIs | assignWas | eventsAre | allEventsCleared
  | offeringIdIs | offeringProcsAre | offeredVarsAre | pairingKeyIs | databasePrinted | error
  | offerMade | offerMatched | offerRetracted | eventsPending
deriving DecidableEq, Inhabited

namespace Kind

def all : List Kind :=
  [.registerProcessor, .registerEventChannel, .isRegistered, .matchOrMake,
    .retractOffer, .findPairingKey,
   .mayUse, .maySet, .setState, .getState, .setControl, .getControl, .getCoupling, .getVarname,
   .getValue, .assignValue, .getEvents, .clearAllEvents, .addEvent,
     .findOfferingId, .getOfferingProcs,
   .getOfferedVars, .printDatabase, .yesNo, .matchOrMakeResult, .retractResult,
     .stateIs, .controlIs,
   .couplingIs, .varnameIs, .valueIs, .assignWas, .eventsAre, .allEventsCleared, .offeringIdIs,
   .offeringProcsAre, .offeredVarsAre, .pairingKeyIs, .databasePrinted, .error,
     .offerMade, .offerMatched,
   .offerRetracted, .eventsPending]

def tag : Kind → UInt16
  | .registerProcessor => 0x0101
  | .registerEventChannel => 0x0102
  | .isRegistered => 0x0103
  | .matchOrMake => 0x0201
  | .retractOffer => 0x0202
  | .findPairingKey => 0x0203
  | .mayUse => 0x0301
  | .maySet => 0x0302
  | .setState => 0x0303
  | .getState => 0x0304
  | .setControl => 0x0305
  | .getControl => 0x0306
  | .getCoupling => 0x0307
  | .getVarname => 0x0308
  | .getValue => 0x0401
  | .assignValue => 0x0402
  | .getEvents => 0x0501
  | .clearAllEvents => 0x0502
  | .addEvent => 0x0503
  | .findOfferingId => 0x0601
  | .getOfferingProcs => 0x0602
  | .getOfferedVars => 0x0603
  | .printDatabase => 0x0604
  | .yesNo => 0x8001
  | .matchOrMakeResult => 0x8002
  | .retractResult => 0x8003
  | .stateIs => 0x8004
  | .controlIs => 0x8005
  | .couplingIs => 0x8006
  | .varnameIs => 0x8007
  | .valueIs => 0x8008
  | .assignWas => 0x8009
  | .eventsAre => 0x800a
  | .allEventsCleared => 0x800b
  | .offeringIdIs => 0x800c
  | .offeringProcsAre => 0x800d
  | .offeredVarsAre => 0x800e
  | .pairingKeyIs => 0x800f
  | .databasePrinted => 0x8010
  | .error => 0x80ff
  | .offerMade => 0xc001
  | .offerMatched => 0xc002
  | .offerRetracted => 0xc003
  | .eventsPending => 0xc004

def ofTag? (tag : UInt16) : Option Kind := all.find? fun k => k.tag == tag

def name : Kind → String
  | .registerProcessor => "RegisterProcessor"
  | .registerEventChannel => "RegisterEventChannel"
  | .isRegistered => "IsRegistered"
  | .matchOrMake => "MatchOrMake"
  | .retractOffer => "RetractOffer"
  | .findPairingKey => "FindPairingKey"
  | .mayUse => "MayUse"
  | .maySet => "MaySet"
  | .setState => "SetState"
  | .getState => "GetState"
  | .setControl => "SetControl"
  | .getControl => "GetControl"
  | .getCoupling => "GetCoupling"
  | .getVarname => "GetVarname"
  | .getValue => "GetValue"
  | .assignValue => "AssignValue"
  | .getEvents => "GetEvents"
  | .clearAllEvents => "ClearAllEvents"
  | .addEvent => "AddEvent"
  | .findOfferingId => "FindOfferingId"
  | .getOfferingProcs => "GetOfferingProcs"
  | .getOfferedVars => "GetOfferedVars"
  | .printDatabase => "PrintDatabase"
  | .yesNo => "YesNo"
  | .matchOrMakeResult => "MatchOrMakeResult"
  | .retractResult => "RetractResult"
  | .stateIs => "StateIs"
  | .controlIs => "ControlIs"
  | .couplingIs => "CouplingIs"
  | .varnameIs => "VarnameIs"
  | .valueIs => "ValueIs"
  | .assignWas => "AssignWas"
  | .eventsAre => "EventsAre"
  | .allEventsCleared => "AllEventsCleared"
  | .offeringIdIs => "OfferingIdIs"
  | .offeringProcsAre => "OfferingProcsAre"
  | .offeredVarsAre => "OfferedVarsAre"
  | .pairingKeyIs => "PairingKeyIs"
  | .databasePrinted => "DatabasePrinted"
  | .error => "Error"
  | .offerMade => "OfferMade"
  | .offerMatched => "OfferMatched"
  | .offerRetracted => "OfferRetracted"
  | .eventsPending => "EventsPending"

def ofName? (name : String) : Option Kind := all.find? fun k => k.name == name

/-- Requests, replies and pushes have tags of their own ranges. -/
def isRequest (k : Kind) : Bool := k.tag < 0x8000
def isReply (k : Kind) : Bool := 0x8000 ≤ k.tag && k.tag < 0xc000
def isPush (k : Kind) : Bool := 0xc000 ≤ k.tag

theorem ofTag?_tag (k : Kind) : ofTag? k.tag = some k := by cases k <;> decide

end Kind

def kind : Signal → Kind
  | .registerProcessor .. => .registerProcessor
  | .registerEventChannel .. => .registerEventChannel
  | .isRegistered .. => .isRegistered
  | .matchOrMake .. => .matchOrMake
  | .retractOffer .. => .retractOffer
  | .findPairingKey .. => .findPairingKey
  | .mayUse .. => .mayUse
  | .maySet .. => .maySet
  | .setState .. => .setState
  | .getState .. => .getState
  | .setControl .. => .setControl
  | .getControl .. => .getControl
  | .getCoupling .. => .getCoupling
  | .getVarname .. => .getVarname
  | .getValue .. => .getValue
  | .assignValue .. => .assignValue
  | .getEvents .. => .getEvents
  | .clearAllEvents .. => .clearAllEvents
  | .addEvent .. => .addEvent
  | .findOfferingId .. => .findOfferingId
  | .getOfferingProcs .. => .getOfferingProcs
  | .getOfferedVars .. => .getOfferedVars
  | .printDatabase .. => .printDatabase
  | .yesNo .. => .yesNo
  | .matchOrMakeResult .. => .matchOrMakeResult
  | .retractResult .. => .retractResult
  | .stateIs .. => .stateIs
  | .controlIs .. => .controlIs
  | .couplingIs .. => .couplingIs
  | .varnameIs .. => .varnameIs
  | .valueIs .. => .valueIs
  | .assignWas .. => .assignWas
  | .eventsAre .. => .eventsAre
  | .allEventsCleared .. => .allEventsCleared
  | .offeringIdIs .. => .offeringIdIs
  | .offeringProcsAre .. => .offeringProcsAre
  | .offeredVarsAre .. => .offeredVarsAre
  | .pairingKeyIs .. => .pairingKeyIs
  | .databasePrinted .. => .databasePrinted
  | .error .. => .error
  | .offerMade .. => .offerMade
  | .offerMatched .. => .offerMatched
  | .offerRetracted .. => .offerRetracted
  | .eventsPending .. => .eventsPending

def ofFault (fault : Fault) (location : String) : Signal := .error fault.code location

end Signal
end SharedVariables
