import SharedVariables.Field
import SharedVariables.Signal.Layout
import SharedVariables.Text

/-! Signals as bytes: the tag of the kind in two bytes, then the fields of its layout. -/
namespace SharedVariables

namespace Identity

def wireSize : Nat := 12

def toOctets (i : Identity) : Octets :=
  Octets.ofNat 4 i.proc.toNat ++ (Octets.ofNat 4 i.parent.toNat ++ Octets.ofNat 4 i.grand.toNat)

def ofOctets (bs : Octets) : Identity :=
  ⟨UInt32.ofNat (Octets.toNat (bs.take 4)), UInt32.ofNat (Octets.toNat ((bs.drop 4).take 4)),
    UInt32.ofNat (Octets.toNat ((bs.drop 8).take 4))⟩

def listOfOctets : Nat → Octets → List Identity
  | 0, _ => []
  | n + 1, bs => ofOctets (bs.take wireSize) :: listOfOctets n (bs.drop wireSize)

end Identity

namespace Field

def Reading.andThen {α β : Type} (r : Reading α) (f : α → Octets → Reading β) : Reading β :=
  match r with
  | (.error e, rest) => (.error e, rest)
  | (.ok a, rest) => f a rest

end Field

namespace Signal

open SharedVariables.Field

def nameMark : Char := '\x00'

namespace Form

def write : (f : Form) → f.Carrier → Except Fault Octets
  | .byte, b => .ok [b]
  | .word, w => .ok (Octets.ofNat 4 w.toNat)
  | .flag, b => .ok [if b then 1 else 0]
  | .text, s => writeText s
  | .bytes, bs => writeBytes bs
  | .key, k => .ok (Octets.ofNat 8 k.bits.toNat)
  | .identity, i => .ok i.toOctets
  | .mask, m => .ok [m.bits]
  | .events, e => .ok (Octets.ofNat 4 e.bits.toNat)
  | .state, s => .ok [s.mask.bits]
  | .coupling, c => .ok [c.toByte]
  | .identities, ids => writeBytes (ids.flatMap Identity.toOctets)
  | .names, words => writeText (Text.join nameMark words)

def readByte (field : String) (bs : Octets) : Reading UInt8 :=
  Reading.refine (readUnsigned field 1 bs) fun n => .ok (UInt8.ofNat n)

def readWord (field : String) (bs : Octets) : Reading UInt32 :=
  Reading.refine (readUnsigned field 4 bs) fun n => .ok (UInt32.ofNat n)

def readIdentity (field : String) (bs : Octets) : Reading Identity :=
  Reading.andThen (readWord field bs) fun proc bs =>
  Reading.andThen (readWord field bs) fun parent bs =>
  Reading.refine (readWord field bs) fun grand => .ok ⟨proc, parent, grand⟩

def identitiesOf (field : String) (raw : Octets) : Except Fault (List Identity) :=
  if raw.length % Identity.wireSize = 0 then
    .ok (Identity.listOfOctets (raw.length / Identity.wireSize) raw)
  else .error (.malformed field
    (Text.decimal raw.length ++ " bytes is not a whole number of identities"))

/-- The names in a joined text. The empty text holds none. -/
def namesOf (joined : String) :
    List String := if joined = "" then [] else Text.split nameMark joined

def orMalformed {α : Type} (value : Option α) (field message : String) : Except Fault α :=
  match value with
  | some a => .ok a
  | none => .error (.malformed field message)

def read : (f : Form) → String → Octets → Reading f.Carrier
  | .byte, field, bs => readByte field bs
  | .word, field, bs => readWord field bs
  | .flag, field, bs => Reading.refine (readByte field bs) fun b => .ok (b != 0)
  | .text, field, bs => readText field bs
  | .bytes, field, bs => readBytes field bs
  | .key, field, bs => Reading.refine (readUnsigned field 8 bs) fun n => .ok ⟨UInt64.ofNat n⟩
  | .identity, field, bs => readIdentity field bs
  | .mask, field, bs => Reading.refine (readByte field bs) fun b =>
    orMalformed (Mask.ofBits? b) field ("invalid control mask " ++ Text.binary 4 b.toNat)
  | .events, field, bs => Reading.refine (readWord field bs) fun w => .ok (Events.ofBits w)
  | .state, field, bs => Reading.refine (readByte field bs) fun b =>
    orMalformed (State.ofBits? b) field ("invalid state " ++ Text.binary 4 b.toNat)
  | .coupling, field, bs => Reading.refine (readByte field bs) fun b =>
    orMalformed (Coupling.ofByte? b) field ("invalid coupling " ++ Text.decimal b.toNat)
  | .identities, field, bs => Reading.refine (readBytes field bs) (identitiesOf field)
  | .names, field, bs => Reading.refine (readText field bs) fun joined => .ok (namesOf joined)

end Form

def writeFields : (slots : List Slot) → Fields slots → Except Fault Octets
  | [], _ => .ok []
  | slot :: rest, (value, values) =>
    match slot.form.write value with
    | .error e => .error e
    | .ok first =>
      match writeFields rest values with
      | .error e => .error e
      | .ok others => .ok (first ++ others)

def readFields : (slots : List Slot) → Octets → Reading (Fields slots)
  | [], bs => (.ok (), bs)
  | slot :: rest, bs =>
    Reading.andThen (slot.form.read slot.name bs) fun value bs =>
    Reading.refine (readFields rest bs) fun values => .ok (value, values)

def encode (s : Signal) : Except Fault Octets :=
  match writeFields s.kind.layout s.fields with
  | .error e => .error e
  | .ok body => .ok (Octets.ofNat 2 s.kind.tag.toNat ++ body)

/-- Reads one signal. The tag must be known and every byte must belong to a field. -/
def decode (bs : Octets) : Except Fault Signal :=
  match readUnsigned "kind" 2 bs with
  | (.error e, _) => .error e
  | (.ok n, rest) =>
    let tag := UInt16.ofNat n
    match Kind.ofTag? tag with
    | none => .error (.unknownKind tag)
    | some k =>
      match readFields k.layout rest with
      | (.error e, _) => .error e
      | (.ok fs, rest) =>
        match finish rest with
        | .error e => .error e
        | .ok () => .ok (ofFields k fs)

end Signal
end SharedVariables
