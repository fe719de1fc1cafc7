import SharedVariables.Broker
import SharedVariables.Limits
import SharedVariables.Table.Snapshot
import SharedVariables.Text
import SharedVariables.Text.Json

/-! The variables and the connections of a broker as a text for people or as JSON. -/
namespace SharedVariables

inductive DumpFormat where
  | text
  | json
deriving DecidableEq

namespace DumpFormat

def toByte : DumpFormat → UInt8
  | .text => 0
  | .json => 1

def ofByte? (b : UInt8) : Option DumpFormat := [.text, .json].find? fun f => f.toByte == b

def label : DumpFormat → String
  | .text => "Text"
  | .json => "Json"

end DumpFormat

namespace Broker

open Text (column decimal)

def partnerText (p : Partner.Snapshot) : String := p.id.text ++ (if p.active then "*" else "")

def recordHeading : String :=
  "  " ++ column 12 "KEY" ++ " " ++ column 16 "NAME" ++ " " ++ column 9 "COUPLING" ++ " " ++
    column 17 "STATE" ++ " " ++
    column 5 "CTL" ++ " " ++ column 16 "OFFERING" ++ " " ++ column 16 "ACCEPTING" ++ " CREATED\n"

def recordRow (w : Wording) (r : Record.Snapshot) : String :=
  "  " ++ column 12 r.key.text ++ " " ++ column 16 r.name.text ++ " " ++
    column 9 r.coupling.label ++ " " ++
    column 17 r.state.label ++ " " ++ Text.numeral 2 4 r.control.toNat ++ "  " ++
    column 16 (partnerText r.offering) ++ " " ++ column 16 (partnerText r.accepting) ++
      " " ++ w.created ++ "\n"

def pidText : Option UInt32 → String
  | some pid => decimal pid.toNat
  | none => "-"

def entryRow (e : Entry) : String :=
  let identity := match e.identity with
    | some id => id.text
    | none => "-"
  "  " ++ column 8 e.conn.text ++ " " ++ column 22 e.peer ++ " " ++ column 16 identity ++ " " ++
    column 8 e.role.label ++ " pid " ++ pidText e.pid ++ "\n"

def dumpText (b : Broker) : String :=
  "SVP database: " ++ decimal b.table.size ++ " variables, " ++ decimal b.roster.entries.length ++
    " connections, up since " ++ b.wording.started ++ "\n" ++ recordHeading ++
    String.join (b.table.snapshot.map (recordRow b.wording)) ++ "connections:\n" ++
    String.join (b.roster.listing.map entryRow)

open Text.Json (Block quoted object list number flag optional)

def identityBlock (i : Identity) : Block :=
  object [("proc", number i.proc.toNat), ("parent", number i.parent.toNat),
    ("grand", number i.grand.toNat)]

def partnerBlock (p : Partner.Snapshot) : Block :=
  object [("id", identityBlock p.id), ("active", flag p.active),
    ("control", number p.control.toNat),
    ("events", number p.events.toNat)]

def recordBlock (w : Wording) (r : Record.Snapshot) : Block :=
  object [("key", number r.key.bits.toNat), ("name", quoted r.name.text),
    ("coupling", quoted r.coupling.label),
    ("state", quoted r.state.label), ("control", number r.control.toNat),
      ("offering", partnerBlock r.offering),
    ("accepting", partnerBlock r.accepting), ("value_len", optional r.valueLength number),
    ("created_at", quoted w.moment)]

def entryBlock (w : Wording) (e : Entry) : Block :=
  object [("conn", number e.conn.number), ("peer", quoted e.peer),
    ("identity", optional e.identity identityBlock),
    ("pid", optional e.pid fun pid => number pid.toNat), ("role", quoted e.role.label),
      ("connected_at", quoted w.moment)]

def dumpJson (b : Broker) : String :=
  object [("started_at", quoted b.wording.moment),
    ("variables", list (b.table.snapshot.map (recordBlock b.wording))),
    ("connections", list (b.roster.listing.map (entryBlock b.wording)))] 0

def dump (b : Broker) (format : DumpFormat) : String :=
  Text.cut Limits.stringField <|
    match format with
    | .text => b.dumpText
    | .json => b.dumpJson

end Broker
end SharedVariables
