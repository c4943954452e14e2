import JobBroker.Identifier
import JobBroker.MessagePack.Document

/-!
# Partitions

A partition of the job log that this broker leads. The broker only passes the name of its log on.
-/

namespace JobBroker

open MessagePack

structure Partition where
  id : PartitionId
  /-- Names the log stream behind the partition. -/
  log : String
  deriving DecidableEq, Repr

def Partition.document (partition : Partition) : Document :=
  .map [("id", .int partition.id.val.toNat), ("log", .map [("log_name", .text partition.log)])]

end JobBroker
