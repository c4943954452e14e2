import JobBroker.Identifier
import JobBroker.JobType

/-!
# What can go wrong

Every way in which an operation on subscriptions or frames fails, with the text that tells it to
people.
-/

namespace JobBroker

inductive SubscriptionError where
  | partitionNotFound (partition : PartitionId)
  | unitBuild (jobType : JobType) (reason : String)
  | unitTeardown (unit reason : String)
  | dispatch (reason : String)
  | connectionClosed (connection : ConnectionId)
  | managerClosed
  | timeout
  | invalidConfig (reason : String)
  | io (reason : String)
  | serialization (reason : String)
  | malformedFrame (reason : String)
  deriving DecidableEq

def SubscriptionError.message : SubscriptionError → String
  | .partitionNotFound p => "Partition with id '" ++ p.text ++ "' not found"
  | .unitBuild jobType reason =>
    "Failed to build activation unit for job type '" ++ jobType.text ++ "': " ++ reason
  | .unitTeardown unit reason =>
    "Failed to tear down activation unit '" ++ unit ++ "': " ++ reason
  | .dispatch reason => "Activation processor rejected request: " ++ reason
  | .connectionClosed c =>
    "Connection " ++ c.labelled ++ " closed before the subscription was added"
  | .managerClosed => "Subscription manager is closed"
  | .timeout => "Timed out waiting for subscription manager"
  | .invalidConfig reason => "Invalid configuration: " ++ reason
  | .io reason => "IO error: " ++ reason
  | .serialization reason => "Serialization error: " ++ reason
  | .malformedFrame reason => "Malformed frame: " ++ reason

/-- The MessagePack form of a value whose serialisation may have failed with a message. -/
def MessagePack.encode? (value : Except String MessagePack.Document) :
    Except SubscriptionError Bytes :=
  match value with
  | .ok document => .ok document.encode
  | .error reason => .error (.serialization reason)

end JobBroker
