import SharedVariables.Duration
import SharedVariables.Identity
import SharedVariables.Key

/-! Everything that can go wrong, with its wording, the code that travels in replies, and whether
the caller may try again. -/
namespace SharedVariables

inductive Fault where
  | io (message : String)
  | connectionLost (peer : String)
  | timeout (after : Duration)
  | frameTooLarge (size max : Nat)
  | truncated (field : String) (needed : Nat)
  | unknownKind (tag : UInt16)
  | malformed (what message : String)
  | unexpectedReply (expected actual : String)
  | invalidName (name message : String)
  | unknownKey (key : Key)
  | notRegistered (identity : Identity)
  | alreadyRegistered (identity : Identity)
  | notPartner (key : Key) (identity : Identity)
  | tableFull (capacity : Nat)
  | noValue (key : Key)
  | accessTimeout (key : Key) (limit : Duration)
  | remote (code : UInt32) (location : String)
  | json (message : String)
  | config (message : String)
deriving DecidableEq, Inhabited

namespace Fault

def message : Fault → String
  | .io message => "IO error: " ++ message
  | .connectionLost peer => "Connection to " ++ peer ++ " lost"
  | .timeout after => "No reply within " ++ after.text
  | .frameTooLarge size max =>
    "Frame of " ++ Text.decimal size ++ " bytes exceeds maximum " ++ Text.decimal max
  | .truncated field needed =>
    "Signal truncated: " ++ Text.decimal needed ++ " more bytes needed for field '" ++ field ++ "'"
  | .unknownKind tag => "Unknown signal kind " ++ Text.hexadecimal 4 tag.toNat
  | .malformed what message => "Malformed " ++ what ++ " signal: " ++ message
  | .unexpectedReply expected actual =>
    "Unexpected reply: expected " ++ expected ++ ", got " ++ actual
  | .invalidName name message => "Invalid variable name '" ++ name ++ "': " ++ message
  | .unknownKey key => "Unknown shared variable key " ++ key.text
  | .notRegistered identity => "Processor " ++ identity.text ++ " is not registered"
  | .alreadyRegistered identity => "Processor " ++ identity.text ++ " is already registered"
  | .notPartner key identity =>
    "Processor " ++ identity.text ++ " is not a partner of key " ++ key.text
  | .tableFull capacity => "Shared variable table is full (" ++ Text.decimal capacity ++ " entries)"
  | .noValue key => "No value has been assigned to key " ++ key.text
  | .accessTimeout key limit =>
    "Access to key " ++ key.text ++ " not permitted within " ++ limit.text
  | .remote code location => "Remote error " ++ Text.decimal code.toNat ++ " at " ++ location
  | .json message => "JSON error: " ++ message
  | .config message => "Configuration error: " ++ message

def label : Fault → String
  | .io .. => "Io"
  | .connectionLost .. => "ConnectionLost"
  | .timeout .. => "Timeout"
  | .frameTooLarge .. => "FrameTooLarge"
  | .truncated .. => "Truncated"
  | .unknownKind .. => "UnknownKind"
  | .malformed .. => "Malformed"
  | .unexpectedReply .. => "UnexpectedReply"
  | .invalidName .. => "InvalidName"
  | .unknownKey .. => "UnknownKey"
  | .notRegistered .. => "NotRegistered"
  | .alreadyRegistered .. => "AlreadyRegistered"
  | .notPartner .. => "NotPartner"
  | .tableFull .. => "TableFull"
  | .noValue .. => "NoValue"
  | .accessTimeout .. => "AccessTimeout"
  | .remote .. => "Remote"
  | .json .. => "Json"
  | .config .. => "Config"

/-- Codes that replies carry. Zero means success and is the code of no fault of this side. -/
def internalCode : UInt32 := 1
def protocolCode : UInt32 := 2
def unknownKeyCode : UInt32 := 3
def identityCode : UInt32 := 4
def tableFullCode : UInt32 := 5
def nameCode : UInt32 := 6
def accessCode : UInt32 := 7
def noValueCode : UInt32 := 8

def code : Fault → UInt32
  | .frameTooLarge .. | .truncated .. | .unknownKind .. | .malformed .. | .unexpectedReply .. =>
    protocolCode
  | .unknownKey .. => unknownKeyCode
  | .notRegistered .. | .alreadyRegistered .. | .notPartner .. => identityCode
  | .tableFull .. => tableFullCode
  | .invalidName .. => nameCode
  | .accessTimeout .. => accessCode
  | .noValue .. => noValueCode
  | .remote code _ => code
  | .io .. | .connectionLost .. | .timeout .. | .json .. | .config .. => internalCode

/-- Transport failures and waits that ran out may be tried again. -/
def isRetryable : Fault → Bool
  | .io .. | .connectionLost .. | .timeout .. | .accessTimeout .. => true
  | _ => false

end Fault
end SharedVariables
