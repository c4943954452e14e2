import JobBroker.Frame.Code
import JobBroker.Frame.Draft

/-!
# Subscribed events

The frame that is pushed to a subscriber without a request. Its block of 28 bytes holds, in this
order, the partition (2 bytes), the position (8), the key (8), the key of the subscriber (8), the
subscription type (1) and the event type (1); the payload is the event.
-/

namespace JobBroker.Frame

/-- The fields of a subscribed event. A fresh one has every field at the value that stands for
"not set". -/
structure SubscribedEvent where
  partition : UInt16 := 65535
  position : UInt64 := 18446744073709551615
  key : UInt64 := 18446744073709551615
  subscriberKey : UInt64 := 18446744073709551615
  subscriptionType : SubscriptionType := .unset
  eventType : EventType := .unset
  deriving DecidableEq, Repr

namespace SubscribedEvent

inductive Setting where
  | partition (value : UInt16)
  | position (value : UInt64)
  | key (value : UInt64)
  | subscriberKey (value : UInt64)
  | subscriptionType (value : SubscriptionType)
  | eventType (value : EventType)
  deriving DecidableEq, Repr

def set (setting : Setting) (event : SubscribedEvent) : SubscribedEvent :=
  match setting with
  | .partition partition => { event with partition }
  | .position position => { event with position }
  | .key key => { event with key }
  | .subscriberKey subscriberKey => { event with subscriberKey }
  | .subscriptionType subscriptionType => { event with subscriptionType }
  | .eventType eventType => { event with eventType }

def parts (event : SubscribedEvent) : List Bytes :=
  [Bytes.word 2 event.partition.toNat,
    Bytes.word 8 event.position.toNat,
    Bytes.word 8 event.key.toNat,
    Bytes.word 8 event.subscriberKey.toNat,
    [event.subscriptionType.code],
    [event.eventType.code]]

/-- The fields at the front of a block, each from its own place. -/
def read (block : Bytes) (inside : Kind.subscribedEvent.blockLength ≤ block.length) :
    SubscribedEvent :=
  have bound : 28 ≤ block.length := inside
  { partition := UInt16.ofNat (Bytes.wordAt block 0 2 (by omega))
    position := UInt64.ofNat (Bytes.wordAt block 2 8 (by omega))
    key := UInt64.ofNat (Bytes.wordAt block 10 8 (by omega))
    subscriberKey := UInt64.ofNat (Bytes.wordAt block 18 8 (by omega))
    subscriptionType := .ofCode (Bytes.byteAt block 26 (by omega))
    eventType := .ofCode (Bytes.byteAt block 27 (by omega)) }

def layout : Layout SubscribedEvent Setting where
  kind := .subscribedEvent
  unset := {}
  apply := set
  parts := parts
  read := read
  length_parts := fun _ => by simp [parts, Kind.blockLength]

def termination (partition : UInt16) (subscriberKey : UInt64) : SubscribedEvent :=
  { partition, position := 0, key := 0, subscriberKey, subscriptionType := .topic }

def decode (frame : Bytes) : Except Fault (Content SubscribedEvent) := layout.decode frame

end SubscribedEvent

end JobBroker.Frame
