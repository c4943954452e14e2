import JobBroker.Manager.Handle

/-!
# Runs of a manager

A manager is driven by whatever comes to it, in any order: messages of clients, the ends of calls
that collaborators still hold, credit requests that are written, and work on credits among
processors that answer as they like. A world is a manager together with everything that has
happened to it since it was started; what clients and collaborators have seen of the manager is
read off that history.
-/

namespace JobBroker.Manager

/-- Tells whether a message comes from a client and leaves the manager running. -/
def Message.fromClient : Message → Bool
  | .resume _ _ => false
  | .shutdown => false
  | _ => true

def Message.reply? : Message → Option Ticket
  | .subscribe _ reply => some reply
  | .unsubscribe _ reply => some reply
  | .snapshot reply => some reply
  | _ => none

def Message.cleared? : Message → Option PartitionId
  | .addPartition partition _ => some partition.id
  | .removePartition partition => some partition
  | _ => none

/-! ### Credits on their way to processors -/

/-- One attempt to hand a credit request out: the processor that was asked, if there was one to
ask, and whether the request is done with. -/
structure Attempt where
  request : CreditRequest
  asked : Option Processor
  done : Bool
  deriving DecidableEq

/-- Asks a processor, and keeps in mind which one it was. -/
def noteAsked {σ : Type} (ask : σ → Processor → CreditRequest → Bool × σ)
    (held : σ × Option Processor) (processor : Processor) (request : CreditRequest) :
    Bool × σ × Option Processor :=
  let answered := ask held.1 processor request
  (answered.1, answered.2, some processor)

/-- Dispatches a credit request and writes the attempt down behind the earlier ones. -/
def State.attempt {σ : Type} (s : State) (ask : σ → Processor → CreditRequest → Bool × σ)
    (held : σ × List Attempt) (request : CreditRequest) : Bool × σ × List Attempt :=
  let answered := s.dispatch (noteAsked ask) (held.1, none) request
  (answered.1, answered.2.1, held.2 ++ [⟨request, answered.2.2, answered.1⟩])

/-! ### What happens -/

inductive Event where
  | told (message : Message)
  | ended (operation : OperationId) (call : Call) (result : Except String call.Success)
  | wrote (request : CreditRequest) (accepted : Bool)
  | dispatched (attempts : List Attempt)

/-- One thing that happened: the state that it met, and the turn that it led to. -/
structure Moment where
  before : State
  event : Event
  turn : Turn

/-- A step in the life of a unit or of a subscription, as collaborators see it: a unit is asked
for, it is there or could not be built, a processor is handed a subscription, a unit is given
back, and it has stopped. -/
inductive Sign where
  | asked (unit : ActivationUnit)
  | built (unit : ActivationUnit)
  | failed (unit : ActivationUnit)
  | handed (key : Option SubscriberKey) (processor : Processor)
  | discarded (processor : Processor)
  | stopped (processor : Processor)
  deriving DecidableEq

def Event.signs : Event → List Sign
  | .ended _ (.build unit) (.ok _) => [.built unit]
  | .ended _ (.build unit) (.error _) => [.failed unit]
  | .ended _ (.teardown processor) _ => [.stopped processor]
  | _ => []

def Call.signs : Call → List Sign
  | .build unit => [.asked unit]
  | .add processor subscription => [.handed subscription.key processor]
  | .teardown processor => [.discarded processor]
  | _ => []

def Event.ended? : Event → Option OperationId
  | .ended operation _ _ => some operation
  | _ => none

def Event.reply? : Event → Option Ticket
  | .told message => message.reply?
  | _ => none

def Event.cleared? : Event → Option PartitionId
  | .told message => message.cleared?
  | _ => none

def Event.attempts : Event → List Attempt
  | .dispatched attempts => attempts
  | _ => []

namespace Moment

def signs (moment : Moment) : List Sign :=
  moment.event.signs ++ (callsOf moment.turn.effects).flatMap fun call => call.2.signs

/-- The processor that a build has delivered. -/
def built? (moment : Moment) : Option Processor :=
  match moment.event with
  | .ended _ (.build unit) (.ok runner) => some ⟨⟨moment.before.nextProcessor⟩, unit, runner⟩
  | _ => none

/-- The subscription that was given a key, which is so when its partition is registered. -/
def assigned? (moment : Moment) : Option (SubscriberKey × JobSubscription) :=
  match moment.event with
  | .told (.subscribe subscription _) =>
    if moment.before.buckets.contains subscription.partition then
      some (⟨moment.before.nextKey⟩, subscription)
    else none
  | _ => none

def accepted? (moment : Moment) : Option (SubscriberKey × Processor) :=
  match moment.event with
  | .ended _ (.add processor subscription) (.ok ()) =>
    subscription.key.map fun key => (key, processor)
  | _ => none

end Moment

/-- A manager and its history, the oldest moment first. -/
structure World where
  state : State
  history : List Moment := []

namespace World

def initial (creditCapacity : Nat) : World := { state := State.initial creditCapacity }

def happen (w : World) (event : Event) (turn : Turn) : World :=
  { state := turn.state, history := w.history ++ [⟨w.state, event, turn⟩] }

def tell (w : World) (message : Message) : World :=
  w.happen (.told message) (w.state.handle message)

/-- A call ends, and the manager goes on from there. -/
def finish (w : World) (operation : OperationId) (call : Call)
    (result : Except String call.Success) : World :=
  w.happen (.ended operation call result) (w.state.handle (.resume operation (call.outcome result)))

def write (w : World) (request : CreditRequest) : World :=
  w.happen (.wrote request (w.state.writeCredits request).2) (w.state.writeCredits request).1.rest

def retry {σ : Type} (w : World) (ask : σ → Processor → CreditRequest → Bool × σ)
    (answerer : σ) : World :=
  let retried := Credit.retry (w.state.attempt ask) w.state.credits.parked (answerer, [])
  w.happen (.dispatched retried.answerer.2)
    { w.state with credits := { w.state.credits with parked := retried.parked } }.rest

def cycle {σ : Type} (w : World) (ask : σ → Processor → CreditRequest → Bool × σ)
    (answerer : σ) : World :=
  let cycled := Credit.cycle (w.state.attempt ask) w.state.credits (answerer, [])
  w.happen (.dispatched cycled.2.2) { w.state with credits := cycled.1 }.rest

/-! ### What is read off a history -/

def calls (w : World) : List (OperationId × Call) :=
  w.history.flatMap fun moment => callsOf moment.turn.effects

def endings (w : World) : List OperationId :=
  w.history.filterMap fun moment => moment.event.ended?

/-- The calls that collaborators have not ended. -/
def outstanding (w : World) : List (OperationId × Call) :=
  w.calls.filter fun call => call.1 ∉ w.endings

/-- The futures that were given out with messages that have been handled. -/
def requests (w : World) : List Ticket :=
  w.history.filterMap fun moment => moment.event.reply?

def settlements (w : World) : List Ticket :=
  w.history.flatMap fun moment => (settledOf moment.turn.effects).map Prod.fst

def signs (w : World) : List Sign := w.history.flatMap Moment.signs

/-- The processors that builds have delivered, under the ids that they were given. -/
def built (w : World) : List Processor := w.history.filterMap Moment.built?

def assigned (w : World) : List (SubscriberKey × JobSubscription) :=
  w.history.filterMap Moment.assigned?

/-- The keys whose addition has ended well, with the processors that they were added to. -/
def accepted (w : World) : List (SubscriberKey × Processor) :=
  w.history.filterMap Moment.accepted?

end World

/-! ### Runs -/

/-- What can happen next. Of the calls, those that are outstanding may end, in any order and with
any result; processors may answer credit requests in any way. -/
inductive Step (w : World) : World → Prop where
  | tell (message : Message) (client : message.fromClient = true) : Step w (w.tell message)
  | finish (operation : OperationId) (call : Call) (held : (operation, call) ∈ w.outstanding)
      (result : Except String call.Success) : Step w (w.finish operation call result)
  | write (request : CreditRequest) : Step w (w.write request)
  | retry {σ : Type} (ask : σ → Processor → CreditRequest → Bool × σ) (answerer : σ) :
      Step w (w.retry ask answerer)
  | cycle {σ : Type} (ask : σ → Processor → CreditRequest → Bool × σ) (answerer : σ) :
      Step w (w.cycle ask answerer)

/-- The worlds that a running manager can get into. -/
inductive Reachable (creditCapacity : Nat) : World → Prop where
  | start : Reachable creditCapacity (World.initial creditCapacity)
  | next {w w' : World} : Reachable creditCapacity w → Step w w' → Reachable creditCapacity w'

end JobBroker.Manager
