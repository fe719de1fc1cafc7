import SharedVariables.Signal

/-! The fields of each kind of signal, by name and form, in the order in which they are sent. -/
namespace SharedVariables.Signal

inductive Form where
  | byte
  | word
  | flag
  | text
  | bytes
  | key
  | identity
  | mask
  | events
  | state
  | coupling
  | identities
  | names
deriving DecidableEq

abbrev Form.Carrier : Form → Type
  | .byte => UInt8
  | .word => UInt32
  | .flag => Bool
  | .text => String
  | .bytes => Octets
  | .key => Key
  | .identity => Identity
  | .mask => Mask
  | .events => Events
  | .state => State
  | .coupling => Coupling
  | .identities => List Identity
  | .names => List String

structure Slot where
  name : String
  form : Form
deriving DecidableEq

abbrev Fields : List Slot → Type
  | [] => Unit
  | slot :: rest => slot.form.Carrier × Fields rest

def Kind.layout : Kind → List Slot
  | .registerProcessor => [⟨"identity", .identity⟩, ⟨"pid", .word⟩]
  | .registerEventChannel => [⟨"identity", .identity⟩]
  | .isRegistered => [⟨"identity", .identity⟩]
  | .matchOrMake => [⟨"name", .text⟩, ⟨"to", .identity⟩, ⟨"from", .identity⟩]
  | .retractOffer => [⟨"key", .key⟩]
  | .findPairingKey => [⟨"key", .key⟩]
  | .mayUse => [⟨"key", .key⟩, ⟨"attempt", .word⟩]
  | .maySet => [⟨"key", .key⟩, ⟨"attempt", .word⟩]
  | .setState => [⟨"key", .key⟩, ⟨"used", .flag⟩]
  | .getState => [⟨"key", .key⟩]
  | .setControl => [⟨"key", .key⟩, ⟨"control", .mask⟩]
  | .getControl => [⟨"key", .key⟩]
  | .getCoupling => [⟨"key", .key⟩]
  | .getVarname => [⟨"key", .key⟩]
  | .getValue => [⟨"key", .key⟩]
  | .assignValue => [⟨"key", .key⟩, ⟨"payload", .bytes⟩]
  | .getEvents => [⟨"identity", .identity⟩]
  | .clearAllEvents => [⟨"identity", .identity⟩]
  | .addEvent => [⟨"key", .key⟩, ⟨"identity", .identity⟩, ⟨"events", .events⟩]
  | .findOfferingId => [⟨"key", .key⟩]
  | .getOfferingProcs => [⟨"target", .identity⟩]
  | .getOfferedVars => [⟨"target", .identity⟩, ⟨"from", .identity⟩]
  | .printDatabase => [⟨"format", .byte⟩]
  | .yesNo => [⟨"yes", .flag⟩]
  | .matchOrMakeResult => [⟨"key", .key⟩, ⟨"coupling", .coupling⟩]
  | .retractResult => [⟨"key", .key⟩, ⟨"old_coupling", .coupling⟩]
  | .stateIs => [⟨"key", .key⟩, ⟨"state", .state⟩]
  | .controlIs => [⟨"key", .key⟩, ⟨"control", .mask⟩]
  | .couplingIs => [⟨"key", .key⟩, ⟨"coupling", .coupling⟩]
  | .varnameIs => [⟨"key", .key⟩, ⟨"name", .text⟩]
  | .valueIs => [⟨"key", .key⟩, ⟨"error", .word⟩, ⟨"error_loc", .text⟩, ⟨"payload", .bytes⟩]
  | .assignWas => [⟨"key", .key⟩, ⟨"error", .word⟩, ⟨"error_loc", .text⟩]
  | .eventsAre => [⟨"key", .key⟩, ⟨"events", .events⟩]
  | .allEventsCleared => [⟨"events", .events⟩]
  | .offeringIdIs => [⟨"key", .key⟩, ⟨"identity", .identity⟩]
  | .offeringProcsAre => [⟨"procs", .identities⟩]
  | .offeredVarsAre => [⟨"names", .names⟩]
  | .pairingKeyIs => [⟨"key", .key⟩, ⟨"pairing", .key⟩]
  | .databasePrinted => [⟨"text", .text⟩]
  | .error => [⟨"code", .word⟩, ⟨"location", .text⟩]
  | .offerMade => [⟨"key", .key⟩, ⟨"name", .text⟩, ⟨"from", .identity⟩]
  | .offerMatched => [⟨"key", .key⟩, ⟨"by", .identity⟩]
  | .offerRetracted => [⟨"key", .key⟩, ⟨"by", .identity⟩]
  | .eventsPending => [⟨"key", .key⟩, ⟨"events", .events⟩]

def fields : (s : Signal) → Fields s.kind.layout
  | .registerProcessor identity pid => (identity, pid, ())
  | .registerEventChannel identity => (identity, ())
  | .isRegistered identity => (identity, ())
  | .matchOrMake name wanted requester => (name, wanted, requester, ())
  | .retractOffer key => (key, ())
  | .findPairingKey key => (key, ())
  | .mayUse key attempt => (key, attempt, ())
  | .maySet key attempt => (key, attempt, ())
  | .setState key used => (key, used, ())
  | .getState key => (key, ())
  | .setControl key control => (key, control, ())
  | .getControl key => (key, ())
  | .getCoupling key => (key, ())
  | .getVarname key => (key, ())
  | .getValue key => (key, ())
  | .assignValue key payload => (key, payload, ())
  | .getEvents identity => (identity, ())
  | .clearAllEvents identity => (identity, ())
  | .addEvent key identity events => (key, identity, events, ())
  | .findOfferingId key => (key, ())
  | .getOfferingProcs target => (target, ())
  | .getOfferedVars target offerer => (target, offerer, ())
  | .printDatabase format => (format, ())
  | .yesNo yes => (yes, ())
  | .matchOrMakeResult key coupling => (key, coupling, ())
  | .retractResult key oldCoupling => (key, oldCoupling, ())
  | .stateIs key state => (key, state, ())
  | .controlIs key control => (key, control, ())
  | .couplingIs key coupling => (key, coupling, ())
  | .varnameIs key name => (key, name, ())
  | .valueIs key code errorLoc payload => (key, code, errorLoc, payload, ())
  | .assignWas key code errorLoc => (key, code, errorLoc, ())
  | .eventsAre key events => (key, events, ())
  | .allEventsCleared events => (events, ())
  | .offeringIdIs key identity => (key, identity, ())
  | .offeringProcsAre procs => (procs, ())
  | .offeredVarsAre names => (names, ())
  | .pairingKeyIs key pairing => (key, pairing, ())
  | .databasePrinted text => (text, ())
  | .error code location => (code, location, ())
  | .offerMade key name offerer => (key, name, offerer, ())
  | .offerMatched key acceptor => (key, acceptor, ())
  | .offerRetracted key leaver => (key, leaver, ())
  | .eventsPending key events => (key, events, ())

def ofFields : (k : Kind) → Fields k.layout → Signal
  | .registerProcessor, (identity, pid, ()) => .registerProcessor identity pid
  | .registerEventChannel, (identity, ()) => .registerEventChannel identity
  | .isRegistered, (identity, ()) => .isRegistered identity
  | .matchOrMake, (name, wanted, requester, ()) => .matchOrMake name wanted requester
  | .retractOffer, (key, ()) => .retractOffer key
  | .findPairingKey, (key, ()) => .findPairingKey key
  | .mayUse, (key, attempt, ()) => .mayUse key attempt
  | .maySet, (key, attempt, ()) => .maySet key attempt
  | .setState, (key, used, ()) => .setState key used
  | .getState, (key, ()) => .getState key
  | .setControl, (key, control, ()) => .setControl key control
  | .getControl, (key, ()) => .getControl key
  | .getCoupling, (key, ()) => .getCoupling key
  | .getVarname, (key, ()) => .getVarname key
  | .getValue, (key, ()) => .getValue key
  | .assignValue, (key, payload, ()) => .assignValue key payload
  | .getEvents, (identity, ()) => .getEvents identity
  | .clearAllEvents, (identity, ()) => .clearAllEvents identity
  | .addEvent, (key, identity, events, ()) => .addEvent key identity events
  | .findOfferingId, (key, ()) => .findOfferingId key
  | .getOfferingProcs, (target, ()) => .getOfferingProcs target
  | .getOfferedVars, (target, offerer, ()) => .getOfferedVars target offerer
  | .printDatabase, (format, ()) => .printDatabase format
  | .yesNo, (yes, ()) => .yesNo yes
  | .matchOrMakeResult, (key, coupling, ()) => .matchOrMakeResult key coupling
  | .retractResult, (key, oldCoupling, ()) => .retractResult key oldCoupling
  | .stateIs, (key, state, ()) => .stateIs key state
  | .controlIs, (key, control, ()) => .controlIs key control
  | .couplingIs, (key, coupling, ()) => .couplingIs key coupling
  | .varnameIs, (key, name, ()) => .varnameIs key name
  | .valueIs, (key, code, errorLoc, payload, ()) => .valueIs key code errorLoc payload
  | .assignWas, (key, code, errorLoc, ()) => .assignWas key code errorLoc
  | .eventsAre, (key, events, ()) => .eventsAre key events
  | .allEventsCleared, (events, ()) => .allEventsCleared events
  | .offeringIdIs, (key, identity, ()) => .offeringIdIs key identity
  | .offeringProcsAre, (procs, ()) => .offeringProcsAre procs
  | .offeredVarsAre, (names, ()) => .offeredVarsAre names
  | .pairingKeyIs, (key, pairing, ()) => .pairingKeyIs key pairing
  | .databasePrinted, (text, ()) => .databasePrinted text
  | .error, (code, location, ()) => .error code location
  | .offerMade, (key, name, offerer, ()) => .offerMade key name offerer
  | .offerMatched, (key, acceptor, ()) => .offerMatched key acceptor
  | .offerRetracted, (key, leaver, ()) => .offerRetracted key leaver
  | .eventsPending, (key, events, ()) => .eventsPending key events

theorem ofFields_fields (s : Signal) : ofFields s.kind s.fields = s := by cases s <;> rfl

theorem kind_ofFields (k : Kind) (fs : Fields k.layout) :
    (ofFields k fs).kind = k := by cases k <;> rfl

end SharedVariables.Signal
