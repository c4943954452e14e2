import JobBroker.Bucket
import JobBroker.Credit.Dispatch
import JobBroker.Manager.Message
import JobBroker.Table

/-!
# The state of a manager

Where every subscription is on its way (waiting for a unit, being added, indexed), which
processors serve a partition, and what has to happen when an outstanding call ends. The
references of a processor count its index entries and the additions that are on their way to it;
a processor without a count has none.
-/

namespace JobBroker.Manager

/-- A subscription that waits until there is a processor to hand it to. -/
structure Waiting where
  key : SubscriberKey
  subscription : JobSubscription
  reply : Ticket
  deriving DecidableEq

structure IndexEntry where
  processor : Processor
  connection : ConnectionId
  deriving DecidableEq

inductive Continuation where
  | build (unit : ActivationUnit)
  /-- The last field tells whether the subscription's connection closed in the meantime. -/
  | subscribe (key : SubscriberKey) (connection : ConnectionId) (processor : Processor)
      (reply : Ticket) (connectionClosed : Bool)
  | unsubscribe (processor : Processor) (reply : Ticket)
  | teardown (processor : Processor) (reply : Option Ticket)
  | sweep (processor : Processor) (connection : ConnectionId)
  deriving DecidableEq

structure State where
  buckets : Table PartitionId Bucket := {}
  index : Table SubscriberKey IndexEntry := {}
  /-- The subscriptions that wait for a unit, which is being built or will be once the one before
  it has stopped. -/
  pending : Table UnitKey (List Waiting) := {}
  references : Table ProcessorId Nat := {}
  /-- The number of teardowns that have not ended. -/
  retiring : Table UnitKey Nat := {}
  continuations : Table OperationId Continuation := {}
  nextKey : Nat := 0
  nextProcessor : Nat := 0
  nextOperation : Nat := 0
  credits : Credit.Pipeline

def State.initial (creditCapacity : Nat) : State :=
  { credits := { channel := { capacity := creditCapacity } } }

namespace State

/-! ### References -/

def acquire (s : State) (id : ProcessorId) : State :=
  { s with references := s.references.insert id ((s.references.get? id).getD 0 + 1) }

/-- Counts one reference less; the last one takes the count away. -/
def dropReference (s : State) (id : ProcessorId) : State :=
  match s.references.get? id with
  | none => s
  | some count =>
    if count - 1 = 0 then { s with references := s.references.erase id }
    else { s with references := s.references.insert id (count - 1) }

def isUnreferenced (s : State) (id : ProcessorId) : Bool := !s.references.contains id

/-- Takes a subscription out of the index, with the reference that its entry holds. -/
def unindex (s : State) (key : SubscriberKey) : State :=
  match s.index.get? key with
  | none => s
  | some entry => { s with index := s.index.erase key }.dropReference entry.processor.id

/-- Takes every subscription out of the index whose entry passes a test. -/
def purge (s : State) (test : IndexEntry → Bool) : State :=
  (s.index.keysWhere test).foldl unindex s

/-! ### Registration -/

def isRegistered (s : State) (processor : Processor) : Bool :=
  match s.buckets.get? processor.partition with
  | none => false
  | some bucket => bucket.contains processor.id

def processor? (s : State) (key : UnitKey) : Option Processor :=
  (s.buckets.get? key.partition).bind fun bucket => bucket.byJobType? key.jobType

def processors (s : State) : List Processor := s.buckets.values.flatMap Bucket.processors

/-! ### Snapshots -/

def snapshot (s : State) : Snapshot where
  partitions := s.buckets.keys.mergeSort fun a b => a.val ≤ b.val
  processors := (s.processors.map ProcessorSummary.ofProcessor).mergeSort ProcessorSummary.le
  subscriptions := s.index.keys.mergeSort fun a b => a.val ≤ b.val
  backpressuredCredits := s.credits.parked.size
  pendingOperations := s.continuations.size

end State

end JobBroker.Manager
