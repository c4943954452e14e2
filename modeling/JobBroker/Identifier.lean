/-!
# Identifiers

The names by which the broker tells its parts apart. Partitions, connections and requests are
numbered by others, within the words that carry them on the wire; subscriptions and processors are
counted from zero by one manager, which never counts past such a word.
-/

namespace JobBroker

structure PartitionId where
  val : UInt16
  deriving DecidableEq, Repr

structure ConnectionId where
  val : Int32
  deriving DecidableEq

structure RequestId where
  val : UInt64
  deriving DecidableEq, Repr

structure SubscriberKey where
  val : Nat
  deriving DecidableEq, Repr

structure ProcessorId where
  val : Nat
  deriving DecidableEq, Repr

def PartitionId.text (id : PartitionId) : String := toString id.val.toNat

def SubscriberKey.text (key : SubscriberKey) : String := toString key.val

def PartitionId.labelled (id : PartitionId) : String := "PartitionId(" ++ id.text ++ ")"

def SubscriberKey.labelled (key : SubscriberKey) : String := "SubscriberKey(" ++ key.text ++ ")"

def ConnectionId.labelled (id : ConnectionId) : String :=
  "ConnectionId(" ++ toString id.val.toInt ++ ")"

def ProcessorId.labelled (id : ProcessorId) : String := "ProcessorId(" ++ toString id.val ++ ")"

end JobBroker
