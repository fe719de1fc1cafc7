import SharedVariables.Fault
import SharedVariables.Limits
import SharedVariables.Octets

/-! Typed fields in a byte string. Whole numbers are big-endian and of a fixed width; byte strings
and texts follow their length in two bytes. Reading gives the value or a fault together with the
bytes that are left, for a reader goes on after a fault from where it stopped. -/
namespace SharedVariables.Field

abbrev Reading (α : Type) := Except Fault α × Octets

def Reading.refine {α β : Type} (r : Reading α) (f : α → Except Fault β) :
    Reading β := (r.1.bind f, r.2)

def writeUnsigned (width value : Nat) : Except Fault Octets :=
  if value < Octets.range width then .ok (Octets.ofNat width value)
  else .error (.malformed "field"
    ("value " ++ Text.decimal value ++ " does not fit in " ++ Text.decimal width ++ " bytes"))

def signedText (i : Int) : String :=
  if i < 0 then "-" ++ Text.decimal i.natAbs else Text.decimal i.natAbs

def writeSigned (width : Nat) (value : Int) : Except Fault Octets :=
  if -(Octets.range width : Int) ≤ 2 * value ∧ 2 * value < Octets.range width then
    .ok (Octets.ofInt width value)
  else .error (.malformed "field"
    ("value " ++ signedText value ++ " does not fit in " ++ Text.decimal width ++ " signed bytes"))

def writeBytes (value : Octets) : Except Fault Octets :=
  if value.length ≤ Limits.stringField then .ok (Octets.ofNat 2 value.length ++ value)
  else .error (.malformed "field"
    ("string of " ++ Text.decimal value.length ++ " bytes exceeds " ++
      Text.decimal Limits.stringField ++
      " byte limit"))

def writeText (value : String) : Except Fault Octets := writeBytes (Octets.ofText value)

/-- The next `n` bytes. When there are fewer, nothing is read and the fault says how many are
missing. -/
def readRaw (field : String) (n : Nat) (bs : Octets) : Reading Octets :=
  let taken := bs.take n
  if taken.length < n then (.error (.truncated field (n - taken.length)), bs) else
    (.ok taken, bs.drop n)

def readUnsigned (field : String) (width : Nat) (bs : Octets) : Reading Nat :=
  Reading.refine (readRaw field width bs) fun raw => .ok raw.toNat

def readSigned (field : String) (width : Nat) (bs : Octets) : Reading Int :=
  Reading.refine (readRaw field width bs) fun raw => .ok raw.toInt

/-- A byte string. Its length stays read when the bytes themselves are missing. -/
def readBytes (field : String) (bs : Octets) : Reading Octets :=
  match readUnsigned field 2 bs with
  | (.error e, rest) => (.error e, rest)
  | (.ok n, rest) => readRaw field n rest

def readText (field : String) (bs : Octets) : Reading String :=
  Reading.refine (readBytes field bs) fun raw =>
    match raw.toText? with
    | some s => .ok s
    | none => .error (.malformed "field" ("field '" ++ field ++ "' is not valid UTF-8"))

def finish (bs : Octets) : Except Fault Unit :=
  if bs.isEmpty then .ok ()
  else .error (.malformed "field" (Text.decimal bs.length ++ " trailing bytes after last field"))

inductive Format where
  | unsigned (width : Nat)
  | signed (width : Nat)
  | bytes
  | text
deriving DecidableEq

inductive Value where
  | unsigned (width value : Nat)
  | signed (width : Nat) (value : Int)
  | bytes (value : Octets)
  | text (value : String)
deriving DecidableEq

namespace Value

def format : Value → Format
  | .unsigned width _ => .unsigned width
  | .signed width _ => .signed width
  | .bytes _ => .bytes
  | .text _ => .text

def write : Value → Except Fault Octets
  | .unsigned width value => writeUnsigned width value
  | .signed width value => writeSigned width value
  | .bytes value => writeBytes value
  | .text value => writeText value

end Value

namespace Format

def read (f : Format) (field : String) (bs : Octets) : Reading Value :=
  match f with
  | .unsigned width => Reading.refine (readUnsigned field width bs) fun n => .ok (.unsigned width n)
  | .signed width => Reading.refine (readSigned field width bs) fun i => .ok (.signed width i)
  | .bytes => Reading.refine (readBytes field bs) fun raw => .ok (.bytes raw)
  | .text => Reading.refine (readText field bs) fun s => .ok (.text s)

end Format

/-- Appends values to a buffer one after the other. A value that does not fit leaves the buffer as
it is. The report holds the fault, if any, and the length of the buffer after each value. -/
def writeScript : List Value → Octets → List (Option Fault × Nat) × Octets
  | [], buffer => ([], buffer)
  | v :: rest, buffer =>
    let (fault, buffer) :=
      match v.write with
      | .ok bs => (none, buffer ++ bs)
      | .error e => (some e, buffer)
    let (steps, final) := writeScript rest buffer
    ((fault, buffer.length) :: steps, final)

/-- Reads named fields one after the other and goes on after a fault. The report holds each outcome
and the number of bytes left after it. -/
def readScript : List (Format × String) → Octets → List (Except Fault Value × Nat) × Octets
  | [], bs => ([], bs)
  | (f, field) :: rest, bs =>
    let (outcome, left) := f.read field bs
    let (steps, final) := readScript rest left
    ((outcome, left.length) :: steps, final)

end SharedVariables.Field
