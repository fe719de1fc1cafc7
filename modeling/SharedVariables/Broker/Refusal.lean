import SharedVariables.Signal

/-! The answers to requests that failed. Each kind of request has an answer of its own reply kind
that stands for nothing. -/
namespace SharedVariables.Signal

/-- The key that a request is about, or the null key. -/
def subject : Signal → Key
  | .retractOffer key | .findPairingKey key | .mayUse key _ | .maySet key _ |
      .setState key _ | .getState key
  | .setControl key _ | .getControl key | .getCoupling key | .getVarname key |
      .getValue key | .assignValue key _
  | .addEvent key _ _ | .findOfferingId key => key
  | _ => .null

def refusal (k : Kind) (key : Key) (fault : Fault) : Signal :=
  match k with
  | .registerProcessor | .registerEventChannel | .isRegistered | .mayUse | .maySet | .addEvent =>
    .yesNo false
  | .matchOrMake => .matchOrMakeResult .null .uncoupled
  | .retractOffer => .retractResult key .uncoupled
  | .findPairingKey => .pairingKeyIs key .null
  | .setState | .getState => .stateIs key .notShared
  | .setControl | .getControl => .controlIs key ∅
  | .getCoupling => .couplingIs key .uncoupled
  | .getVarname => .varnameIs key ""
  | .getValue => .valueIs key fault.code k.name []
  | .assignValue => .assignWas key fault.code k.name
  | .getEvents => .eventsAre .null ∅
  | .clearAllEvents => .allEventsCleared ∅
  | .findOfferingId => .offeringIdIs key .nobody
  | .getOfferingProcs => .offeringProcsAre []
  | .getOfferedVars => .offeredVarsAre []
  | .printDatabase => .databasePrinted ""
  | _ => .ofFault fault k.name

end SharedVariables.Signal
