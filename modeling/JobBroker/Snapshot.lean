import JobBroker.ActivationUnit

/-!
# Snapshots

What a manager shows of its state: partitions and subscriptions in ascending order, processors by
partition and then by job type.
-/

namespace JobBroker

open MessagePack

structure ProcessorSummary where
  id : ProcessorId
  partition : PartitionId
  jobType : JobType
  name : String
  deriving DecidableEq

structure Snapshot where
  partitions : List PartitionId := []
  processors : List ProcessorSummary := []
  subscriptions : List SubscriberKey := []
  backpressuredCredits : Nat := 0
  pendingOperations : Nat := 0
  deriving DecidableEq

namespace ProcessorSummary

def ofProcessor (processor : Processor) : ProcessorSummary :=
  ⟨processor.id, processor.partition, processor.jobType, processor.unit.name⟩

def le (a b : ProcessorSummary) : Bool :=
  if a.partition = b.partition then a.jobType.le b.jobType
  else decide (a.partition.val ≤ b.partition.val)

def document (summary : ProcessorSummary) : Document :=
  .map [("id", .int summary.id.val), ("partition_id", .int summary.partition.val.toNat),
    ("job_type", summary.jobType.document), ("name", .text summary.name)]

end ProcessorSummary

namespace Snapshot

def processorsFor (snapshot : Snapshot) (partition : PartitionId) (jobType : JobType) : Nat :=
  snapshot.processors.countP fun p => p.partition = partition ∧ p.jobType = jobType

def document (snapshot : Snapshot) : Document :=
  .map [("partitions", .array (snapshot.partitions.map fun p => .int p.val.toNat)),
    ("processors", .array (snapshot.processors.map ProcessorSummary.document)),
    ("subscriptions", .array (snapshot.subscriptions.map fun key => .int key.val)),
    ("backpressured_credits", .int snapshot.backpressuredCredits),
    ("pending_operations", .int snapshot.pendingOperations)]

end Snapshot

end JobBroker
