import JobBroker.JobType
import JobBroker.Partition

/-!
# Activation units and their processors

Jobs of one type on one partition are handed out by an activation unit. A builder outside the
manager builds the unit and delivers what runs it; the manager then knows the pair as a processor,
under an id of its own.
-/

namespace JobBroker

structure UnitKey where
  partition : PartitionId
  jobType : JobType
  deriving DecidableEq

structure ActivationUnit where
  partition : Partition
  service : String
  jobType : JobType
  deriving DecidableEq

namespace ActivationUnit

def name (unit : ActivationUnit) : String := "job-activate." ++ unit.jobType.text

def key (unit : ActivationUnit) : UnitKey := ⟨unit.partition.id, unit.jobType⟩

end ActivationUnit

/-- What a builder delivers for a unit. The manager only passes it on, so it is known by a number
of the builder's choice. -/
structure Runner where
  val : Nat
  deriving DecidableEq, Repr

/-- A unit that was built, under the id that the manager gave it. -/
structure Processor where
  id : ProcessorId
  unit : ActivationUnit
  runner : Runner
  deriving DecidableEq

namespace Processor

def partition (processor : Processor) : PartitionId := processor.unit.partition.id

def jobType (processor : Processor) : JobType := processor.unit.jobType

def key (processor : Processor) : UnitKey := processor.unit.key

end Processor

end JobBroker
