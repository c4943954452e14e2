import JobBroker.Bytes.Region
import JobBroker.Identifier
import JobBroker.MessagePack.Document

/-!
# Credit requests

A client asks for more jobs to be pushed to one of its subscriptions. Between brokers a request
travels as twelve bytes, the subscription's key and the count of jobs, and every twelve bytes are
some request.
-/

namespace JobBroker

open MessagePack

structure CreditRequest where
  key : UInt64
  credits : Int32
  deriving DecidableEq

namespace CreditRequest

def byteCount : Nat := 12

def subscriber (request : CreditRequest) : SubscriberKey := ⟨request.key.toNat⟩

def encode (request : CreditRequest) : Bytes :=
  Bytes.word 8 request.key.toNat ++ Bytes.word 4 request.credits.toUInt32.toNat

def decode (bytes : Bytes) (whole : bytes.length = byteCount) : CreditRequest :=
  have bound : bytes.length = 12 := whole
  { key := UInt64.ofNat (Bytes.wordAt bytes 0 8 (by omega))
    credits := (UInt32.ofNat (Bytes.wordAt bytes 8 4 (by omega))).toInt32 }

def decode? (bytes : Bytes) : Option CreditRequest :=
  if whole : bytes.length = byteCount then some (decode bytes whole) else none

def document (request : CreditRequest) : Document :=
  .map [("subscriber_key", .int request.key.toNat), ("credits", .int request.credits.toInt)]

@[simp] theorem length_encode (request : CreditRequest) : request.encode.length = byteCount := by
  simp [encode, byteCount]

end CreditRequest

end JobBroker
