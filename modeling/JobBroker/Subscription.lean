import JobBroker.Identifier
import JobBroker.JobType

/-!
# Job subscriptions

A client's wish to be given jobs of one type on one partition, and the terms on which it takes
them.
-/

namespace JobBroker

open MessagePack

/-- The number of jobs that a subscription may be given before it asks for more credits, unless
it says otherwise. -/
def defaultCredits : Int32 := 32

/-- The milliseconds that a worker may hold a job, unless the subscription says otherwise. -/
def defaultTimeout : UInt64 := 300000

structure JobSubscription where
  partition : PartitionId
  jobType : JobType
  connection : ConnectionId
  worker : String := ""
  /-- How long an activated job stays locked for the worker, in milliseconds. -/
  timeout : UInt64 := defaultTimeout
  credits : Int32 := defaultCredits
  /-- Assigned when the subscription is taken up. -/
  key : Option SubscriberKey := none
  deriving DecidableEq

namespace JobSubscription

def timeoutDocument (milliseconds : Nat) : Document :=
  .map [("secs", .int (milliseconds / 1000 : Nat)),
    ("nanos", .int (milliseconds % 1000 * 1000000 : Nat))]

def document (subscription : JobSubscription) : Document :=
  .map [("partition_id", .int subscription.partition.val.toNat),
    ("job_type", subscription.jobType.document),
    ("connection", .int subscription.connection.val.toInt),
    ("worker", .text subscription.worker),
    ("timeout", timeoutDocument subscription.timeout.toNat),
    ("credits", .int subscription.credits.toInt),
    ("subscriber_key", match subscription.key with
      | some key => .int key.val
      | none => .nil)]

end JobSubscription

end JobBroker
