import SharedVariables.Service

/-! Named raw connections to a running broker, and what can be seen on them after each step. An
observer connects first and stays; it has no name. -/
namespace SharedVariables

structure Wires where
  service : Service
  named : List (String × ConnId) := []

namespace Wires

inductive Step where
  | connect
  | request (signal : Signal)
  | frame (payload : Octets)
  | offers (stem : String) (count : Nat) (wanted offerer : Identity)
  /-- Writes bytes without framing and reads some replies. A frame that stays incomplete is given up
  by the broker unless it is to be completed later. -/
  | bytes (bs : Octets) (replies : Nat) (halfClose unfinished : Bool)
  | close

inductive Outcome where
  | connected (accepted : Bool)
  | reply (signal : Option Signal)
  | replies (signals : List Signal) (hungUp : Bool)
  | fault (f : Fault)
  | gone
  | done

structure Report where
  outcome : Outcome
  pushedFirst : List Signal := []
  pushes : List (String × List Signal) := []
  dropped : List String := []

def observer : ConnId := ⟨1⟩

def start (service : Service) : Wires := { service := service.accept.2 }

def conn? (w : Wires) (c : String) : Option ConnId := (w.named.find? fun e => e.1 == c).map (·.2)

def forget (w : Wires) (c : String) : Wires := { w with named := w.named.filter fun e => e.1 != c }

def signalsOf (bs : Octets) : List Signal :=
  (Frame.drain bs).1.filterMap fun payload => (Signal.decode payload).toOption

def collect (w : Wires) (conn : ConnId) : List Signal × Wires :=
  let ((bs, _), service) := w.service.collect conn
  (signalsOf bs, { w with service })

def hasPushes (entry : String × List Signal) : Bool := !entry.2.isEmpty

/-- Reads all open connections and strikes those that the broker has closed; what was sent to these
is lost. -/
def survey (w : Wires) : List (String × List Signal) × List String × Wires :=
  let (live, closed) := w.named.partition fun e => w.service.isOpen e.2
  let (found, service) := live.foldl
    (fun (found, service) (c, conn) =>
      let ((bs, _), service) := service.collect conn
      (found ++ [(c, signalsOf bs)], service))
    (([] : List (String × List Signal)), w.service)
  (found.filter hasPushes, (closed.map (·.1)).mergeSort fun a b =>
    a ≤ b, { service, named := live })

def withOwn (c : String) (own : List Signal) (pushes : List (String × List Signal)) :
    List (String × List Signal) :=
  let others := pushes.filter fun e => e.1 != c
  let later := (pushes.filter fun e => e.1 == c).flatMap (·.2)
  (others ++ [(c, own ++ later)]).filter hasPushes

def sorted (signals : List Signal) : List Signal :=
  let keyed := signals.map fun s => (s.encode.toOption.getD [], s)
  (keyed.mergeSort fun a b => Octets.le a.1 b.1).map (·.2)

def finish (w : Wires) (outcome : Outcome) : Report × Wires :=
  let (pushes, dropped, w) := w.survey
  ({ outcome, pushes, dropped }, w)

/-- As `finish`, for steps that end a connection: the order of what follows from that is not
fixed. -/
def finishSorted (w : Wires) (outcome : Outcome) : Report × Wires :=
  let (report, w) := w.finish outcome
  ({ report with pushes := report.pushes.map fun (c, signals) => (c, sorted signals) }, w)

def exchange (w : Wires) (c : String) (conn : ConnId) (bs : Octets) : Report × Wires :=
  let (arrived, w) := { w with service := w.service.receive conn bs }.collect conn
  let pushedFirst := arrived.takeWhile fun s => s.kind.isPush
  let others := arrived.drop pushedFirst.length
  let (pushes, dropped, w) := w.survey
  ({ outcome := .reply others.head?, pushedFirst, pushes :=
    withOwn c (others.drop 1) pushes, dropped }, w)

def connect (w : Wires) (c : String) : Report × Wires :=
  match w.service.accept with
  | (none, service) => { w with service }.finish (.connected false)
  | (some conn, service) =>
    let service := match w.conn? c with
      | some earlier => service.hangUp earlier
      | none => service
    let w := { w with service }.forget c
    { w with named := w.named ++ [(c, conn)] }.finish (.connected true)

def sendFrame (w : Wires) (c : String) (conn : ConnId) : Except Fault Octets → Report × Wires
  | .error e => w.finish (.fault e)
  | .ok bs => w.exchange c conn bs

def offers (w : Wires) (conn : ConnId) (stem : String) (count : Nat) (wanted offerer : Identity) :
    Report × Wires :=
  let requests := (List.range count).map fun i =>
    Signal.matchOrMake (stem ++ Text.decimal i) wanted offerer
  let (last, w) := requests.foldl
    (fun (_, w) signal =>
      match signal.encode.bind Frame.write with
      | .error _ => (none, w)
      | .ok bs =>
        let (arrived, w) := Wires.collect { w with service := w.service.receive conn bs } conn
        ((arrived.filter fun s => !s.kind.isPush).head?, w))
    ((none : Option Signal), w)
  w.finish (.reply last)

def writeBytes (w : Wires) (c : String) (conn : ConnId) (bs : Octets) (replies : Nat)
    (halfClose unfinished : Bool) : Report × Wires :=
  let service := w.service.receive conn bs
  let service :=
    if halfClose then service.hangUp conn else if unfinished then service else service.expire conn
  let (arrived, w) := { w with service }.collect conn
  let (pushed, answers) := arrived.partition fun s => s.kind.isPush
  if w.service.isOpen conn then
    let (report, w) := w.finish (.replies (answers.take replies) false)
    let pushes := withOwn c (pushed ++ answers.drop replies) report.pushes
    ({ report with pushes := pushes.map fun (c, signals) => (c, sorted signals) }, w)
  else (w.forget c).finishSorted (.replies (answers.take replies) true)

def close (w : Wires) (c : String) : Report × Wires :=
  match w.conn? c with
  | none => w.finish .done
  | some conn => ({ w with service := w.service.hangUp conn }.forget c).finishSorted .done

def onOpen (w : Wires) (c : String) (f : ConnId → Report × Wires) : Report × Wires :=
  match w.conn? c with
  | none => w.finish .gone
  | some conn => f conn

def step (w : Wires) (c : String) : Step → Report × Wires
  | .connect => w.connect c
  | .close => w.close c
  | .request signal => w.onOpen c fun conn => w.sendFrame c conn (signal.encode.bind Frame.write)
  | .frame payload => w.onOpen c fun conn => w.sendFrame c conn (Frame.write payload)
  | .offers stem count wanted offerer => w.onOpen c fun conn =>
    w.offers conn stem count wanted offerer
  | .bytes bs replies halfClose unfinished =>
    w.onOpen c fun conn => w.writeBytes c conn bs replies halfClose unfinished

def Report.key? (r : Report) : Option Key :=
  match r.outcome with
  | .reply (some (.matchOrMakeResult key _)) => some key
  | _ => none

end Wires

namespace Service

def finalDump (s : Service) (format : DumpFormat) : Option String :=
  let request := Signal.printDatabase format.toByte
  match request.encode.bind Frame.write with
  | .error _ => none
  | .ok bs =>
    match Wires.signalsOf ((s.receive Wires.observer bs).collect Wires.observer).1.1 with
    | [.databasePrinted text] => some text
    | _ => none

end Service
end SharedVariables
