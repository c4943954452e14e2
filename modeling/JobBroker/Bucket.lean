import JobBroker.ActivationUnit

/-!
# Buckets

A registered partition, and the processors that serve it: one for a job type, in the order in
which they were registered.
-/

namespace JobBroker

structure Bucket where
  partition : Partition
  service : String
  processors : List Processor := []
  deriving DecidableEq

namespace Bucket

def byJobType? (bucket : Bucket) (jobType : JobType) : Option Processor :=
  bucket.processors.find? fun processor => processor.jobType = jobType

def contains (bucket : Bucket) (id : ProcessorId) : Bool :=
  bucket.processors.any fun processor => processor.id = id

def register (bucket : Bucket) (processor : Processor) : Bucket :=
  { bucket with processors := bucket.processors ++ [processor] }

def detach? (bucket : Bucket) (id : ProcessorId) : Option Bucket :=
  if bucket.contains id then
    some { bucket with processors := bucket.processors.eraseP fun p => p.id = id }
  else
    none

def isEmpty (bucket : Bucket) : Bool := bucket.processors.isEmpty

/-- The unit that serves a job type on this registration of the partition. -/
def unit (bucket : Bucket) (jobType : JobType) : ActivationUnit :=
  ⟨bucket.partition, bucket.service, jobType⟩

theorem contains_iff {bucket : Bucket} {id : ProcessorId} :
    bucket.contains id = true ↔ ∃ processor ∈ bucket.processors, processor.id = id := by
  simp [contains]

theorem mem_register {bucket : Bucket} {new processor : Processor} :
    processor ∈ (bucket.register new).processors ↔
      processor ∈ bucket.processors ∨ processor = new := by
  simp [register]

end Bucket

end JobBroker
