import JobBroker.Error
import JobBroker.Snapshot
import JobBroker.Subscription

/-!
# What a manager is told, and what it does

A manager handles one message at a time. While it does, it asks collaborators for things (`Call`)
and settles the futures of earlier operations; both are effects, in the order in which they
happen. A collaborator answers a call with an outcome, which comes back as a message of its own.
-/

namespace JobBroker.Manager

/-- Names the future that waits for the result of an operation. -/
structure Ticket where
  val : Nat
  deriving DecidableEq, Repr

/-- Names a call to a collaborator until its outcome was handled. -/
structure OperationId where
  val : Nat
  deriving DecidableEq, Repr

inductive Answer where
  | key (key : SubscriberKey)
  | done
  | snapshot (snapshot : Snapshot)
  deriving DecidableEq

abbrev Result := Except SubscriptionError Answer

/-- What the manager asks of the builder or of a processor. -/
inductive Call where
  | build (unit : ActivationUnit)
  | add (processor : Processor) (subscription : JobSubscription)
  | remove (processor : Processor) (key : SubscriberKey)
  /-- Drop what belongs to a connection that closed. -/
  | sweep (processor : Processor) (connection : ConnectionId)
  | teardown (processor : Processor)
  deriving DecidableEq

def Call.partition : Call → PartitionId
  | .build unit => unit.partition.id
  | .add processor _ => processor.partition
  | .remove processor _ => processor.partition
  | .sweep processor _ => processor.partition
  | .teardown processor => processor.partition

/-- How a call ended, or the reason why it failed. -/
inductive Outcome where
  | built (result : Except String Runner)
  /-- Of adding a subscription, and of tearing a unit down. -/
  | settled (result : Except String Unit)
  /-- Of removing subscriptions: whether others remain. -/
  | remaining (result : Except String Bool)

abbrev Call.Success : Call → Type
  | .build _ => Runner
  | .add _ _ => Unit
  | .remove _ _ => Bool
  | .sweep _ _ => Bool
  | .teardown _ => Unit

/-- The outcome of a call with a result, of the kind that the call has. -/
def Call.outcome : (call : Call) → Except String call.Success → Outcome
  | .build _, result => .built result
  | .add _ _, result => .settled result
  | .remove _ _, result => .remaining result
  | .sweep _ _, result => .remaining result
  | .teardown _, result => .settled result

inductive Message where
  | subscribe (subscription : JobSubscription) (reply : Ticket)
  | unsubscribe (key : SubscriberKey) (reply : Ticket)
  | addPartition (partition : Partition) (service : String)
  | removePartition (partition : PartitionId)
  | connectionClosed (connection : ConnectionId)
  | snapshot (reply : Ticket)
  | resume (operation : OperationId) (outcome : Outcome)
  | shutdown

inductive Effect where
  | call (operation : OperationId) (call : Call)
  | settle (reply : Ticket) (result : Result)

def callsOf (effects : List Effect) : List (OperationId × Call) :=
  effects.filterMap fun
    | .call operation call => some (operation, call)
    | .settle _ _ => none

/-- The futures that effects settle, in order, with their results. -/
def settledOf (effects : List Effect) : List (Ticket × Result) :=
  effects.filterMap fun
    | .call _ _ => none
    | .settle reply result => some (reply, result)

end JobBroker.Manager
