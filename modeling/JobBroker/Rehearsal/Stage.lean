import JobBroker.Manager.Service
import JobBroker.Rehearsal.Script

/-!
# Rehearsals

A manager run step by step among rehearsed collaborators. Every message is handled to its end, and
credits are worked on until they rest, before anything else happens. `Stage.perform` runs one step
and reports what could be seen of it.
-/

namespace JobBroker.Rehearsal

open Manager

/-- A future that a step was given: still watched, reported as settled, or let go of. -/
inductive Watched where
  | live (ticket : Ticket)
  | reported (ticket : Ticket)
  | forgotten

def Watched.ticket? : Watched → Option Ticket
  | .live ticket => some ticket
  | .reported ticket => some ticket
  | .forgotten => none

structure Stage where
  service : Service
  held : List HeldCall := []
  nextCall : Nat := 0
  rosters : Rosters := {}
  gates : Gates := {}
  futures : List Watched := []
  auto : Bool := false
  made : List (Nat × Call) := []

namespace Stage

/-! ### Handling messages -/

def hold (stage : Stage) (made : OperationId × Call) : Stage :=
  { stage with
    held := stage.held ++ [⟨stage.nextCall, { operation := made.1, call := made.2 }⟩]
    made := stage.made ++ [(stage.nextCall, made.2)]
    nextCall := stage.nextCall + 1 }

def settleCredits (stage : Stage) : Stage :=
  let settled := stage.service.settleCredits Gates.ask stage.gates
  { stage with service := settled.1, gates := settled.2 }

/-- Handles the oldest message. Its calls are held in the order of their partitions. -/
def handleNext (stage : Stage) : Stage :=
  let handled := stage.service.handleNext
  let calls := handled.2.mergeSort fun a b => a.2.partition.val ≤ b.2.partition.val
  (calls.foldl hold { stage with service := handled.1 }).settleCredits

def tell (stage : Stage) (message : Message) : Stage :=
  { stage with service := stage.service.post message }.handleNext

def tellAll (stage : Stage) (messages : List Message) : Stage := messages.foldl tell stage

def request (stage : Stage) (message : Ticket → Message) : Stage × Answer :=
  let requested := stage.service.request message
  let stage := { stage with
    service := requested.1
    futures := stage.futures ++ [Watched.live requested.2] }
  (stage.handleNext, .future (stage.futures.length - 1))

def close (stage : Stage) : Stage :=
  { stage with service := stage.service.close }.handleNext

def snapshot (stage : Stage) : Stage × Result :=
  let requested := stage.service.request .snapshot
  let stage := { stage with service := requested.1 }.handleNext
  let (service, result) := stage.service.take requested.2
  ({ stage with service }, result.getD (.error .timeout))

/-! ### Ending calls -/

def finish (stage : Stage) (held : HeldCall) (ending : Ending) : Stage :=
  let (messages, rosters) := held.finish stage.rosters ending
  { stage with
    rosters
    held := stage.held.filter fun other => other.number ≠ held.number }.tellAll messages

/-- Lets the held calls end well, the lowest number first, at most `limit` of them. -/
def finishHeld : Nat → Stage → Stage
  | 0, stage => stage
  | limit + 1, stage =>
    match stage.held with
    | [] => stage
    | held :: _ => finishHeld limit (stage.finish held (.succeed none))

/-- More calls than can follow from those held and from the subscriptions that wait: an addition
leads to a removal and that to a teardown, and a subscription that waits, before its addition, to
one build. -/
def callBound (stage : Stage) : Nat :=
  4 * (stage.held.length + stage.service.state.pending.values.flatten.length)

def finishByThemselves (stage : Stage) : Stage :=
  if stage.auto then finishHeld stage.callBound stage else stage

/-! ### Futures -/

def look (stage : Stage) (future : Nat) (unsettled : Answer) : Stage × Answer :=
  match (stage.futures[future]?).bind Watched.ticket? with
  | none => (stage, .noFuture)
  | some ticket =>
    let (service, found) := stage.service.take ticket
    ({ stage with service }, match found with
      | none => unsettled
      | some result => .result result)

/-- Looks at every watched future: what they are now, and the results of those that have settled.
The first future has number `number`. -/
def collect : Nat → Service → List Watched → Service × List Watched × List (Nat × Result)
  | _, service, [] => (service, [], [])
  | number, service, .live ticket :: rest =>
    match service.take ticket with
    | (service, none) =>
      let (service, watched, results) := collect (number + 1) service rest
      (service, .live ticket :: watched, results)
    | (service, some result) =>
      let (service, watched, results) := collect (number + 1) service rest
      (service, .reported ticket :: watched, (number, result) :: results)
  | number, service, watched :: rest =>
    let (service, others, results) := collect (number + 1) service rest
    (service, watched :: others, results)

/-! ### Steps -/

def act (stage : Stage) : Step → Stage × Answer
  | .addPartition partition service => (stage.tell (.addPartition partition service), .nothing)
  | .removePartition partition => (stage.tell (.removePartition partition), .nothing)
  | .subscribe subscription closeInBuild =>
    let (after, answer) := stage.request (.subscribe subscription)
    let builds := (after.made.drop stage.made.length).any fun made =>
      match made.2 with
      | .build _ => true
      | _ => false
    (if closeInBuild && builds then after.close else after, answer)
  | .unsubscribe key => stage.request (.unsubscribe key)
  | .connectionOpened _ => (stage, .nothing)
  | .connectionClosed connection => (stage.tell (.connectionClosed connection), .nothing)
  | .credits request =>
    let (service, accepted) := stage.service.writeCredits request
    ({ stage with service }.settleCredits, .accepted accepted)
  | .gate processor accepts =>
    ({ stage with gates := stage.gates.set processor accepts }.settleCredits, .nothing)
  | .complete number ending =>
    match stage.held.find? fun held => held.number = number with
    | none => (stage, .noCall)
    | some held => (stage.finish held ending, .nothing)
  | .auto on => ({ stage with auto := on }, .nothing)
  | .poll future => stage.look future .pending
  | .wait future => stage.look future (.result (.error .timeout))
  | .forget future => ({ stage with futures := stage.futures.set future .forgotten }, .nothing)
  | .count partition jobType =>
    let (stage, result) := stage.snapshot
    (stage, match result with
      | .ok (.snapshot snapshot) => .count (snapshot.processorsFor partition jobType)
      | result => .result result)
  | .snapshot =>
    let (stage, result) := stage.snapshot
    (stage, .result result)
  | .held =>
    (stage, .held (stage.held.map HeldCall.number) stage.rosters.entries)
  | .info => (stage, .info stage.service.name stage.service.closed)
  | .close => (stage.close, .nothing)

def perform (stage : Stage) (step : Step) : Stage × Report :=
  let fresh := { stage with made := [], gates := { stage.gates with passed := [] } }
  let (stage, answer) := fresh.act step
  let stage := stage.finishByThemselves
  let (service, futures, settled) := collect 0 stage.service stage.futures
  ({ stage with service, futures },
    { answer
      calls := stage.made
      credits := stage.gates.passed
      settled
      state := if service.running then some service.state.snapshot else none })

def open? (config : Config) (auto : Bool) : Except SubscriptionError Stage :=
  (Service.start config).map fun service => { service, auto }

end Stage

end JobBroker.Rehearsal
