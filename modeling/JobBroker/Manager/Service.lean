import JobBroker.Config
import JobBroker.Manager.Handle

/-!
# A running manager

Clients and collaborators do not touch the state of a manager. They put messages into its inbox,
where they wait for their turn, and hold futures on which the results appear. Closing a manager is
itself a message: what stands before it is still handled, what stands behind it never is. When
the manager stops, every future that was not settled tells that it is closed, and so does every
later one.
-/

namespace JobBroker.Manager

/-- A future: nothing yet, a result that was not taken, or nothing more to come. -/
inductive Future where
  | waiting
  | ready (result : Result)
  | closed

namespace Future

def settle (result : Result) : Future → Future
  | waiting => ready result
  | future => future

def close : Future → Future
  | waiting => closed
  | future => future

/-- What looking at a future finds, if there is anything. -/
def observe : Future → Option Result
  | waiting => none
  | ready result => some result
  | closed => some (.error .managerClosed)

/-- What looking at a future leaves there: a result can be taken once. -/
def taken : Future → Future
  | ready _ => closed
  | future => future

end Future

/-- A manager with its inbox and the futures it has given out. -/
structure Service where
  name : String
  state : State
  /-- The messages that were not handled yet, the oldest first. -/
  inbox : List Message := []
  futures : List Future := []
  running : Bool := true
  closed : Bool := false

namespace Service

def start (config : Config) : Except SubscriptionError Service :=
  match config.fault? with
  | some fault => .error fault.error
  | none => .ok { name := config.name, state := .initial config.creditCapacity }

/-- Puts a message into the inbox. A manager that has stopped takes no more. -/
def post (service : Service) (message : Message) : Service :=
  if service.running then { service with inbox := service.inbox ++ [message] } else service

/-- Puts a message into the inbox whose result will appear on a future, and gives the ticket of
that future. -/
def request (service : Service) (message : Ticket → Message) : Service × Ticket :=
  let ticket : Ticket := ⟨service.futures.length⟩
  let future : Future := if service.running then .waiting else .closed
  ({ service with futures := service.futures ++ [future] }.post (message ticket), ticket)

def settleFutures (futures : List Future) (effects : List Effect) : List Future :=
  (settledOf effects).foldl
    (fun futures settled => futures.modify settled.1.val (Future.settle settled.2)) futures

def stop (service : Service) : Service :=
  { service with running := false, inbox := [], futures := service.futures.map Future.close }

/-- Handles the oldest message in the inbox: the manager afterwards, and the calls it made. -/
def handleNext (service : Service) : Service × List (OperationId × Call) :=
  match service.inbox with
  | [] => (service, [])
  | .shutdown :: _ => (service.stop, [])
  | message :: later =>
    let turn := service.state.handle message
    ({ service with
        state := turn.state
        inbox := later
        futures := settleFutures service.futures turn.effects },
      callsOf turn.effects)

def settleCredits {σ : Type} (service : Service)
    (ask : σ → Processor → CreditRequest → Bool × σ) (answerer : σ) : Service × σ :=
  if service.running then
    let settled := service.state.settleCredits ask answerer
    ({ service with state := settled.1 }, settled.2)
  else
    (service, answerer)

/-- Offers a credit request to the channel, and tells whether it was taken. -/
def writeCredits (service : Service) (request : CreditRequest) : Service × Bool :=
  if service.running then
    let written := service.state.writeCredits request
    ({ service with state := written.1 }, written.2)
  else
    (service, false)

def close (service : Service) : Service :=
  if service.closed then service else { service.post .shutdown with closed := true }

/-- Looks at a future: what it tells, and the service with what it told taken. A ticket that was
never given out has no future to look at. -/
def take (service : Service) (ticket : Ticket) : Service × Option Result :=
  ({ service with futures := service.futures.modify ticket.val Future.taken },
    (service.futures[ticket.val]?).bind Future.observe)

end Service

end JobBroker.Manager
