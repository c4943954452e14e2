import JobBroker.Error

/-!
# Kinds of frames and their faults

Two kinds of frames go to clients: responses to commands, and events pushed to subscribers. A
kind fixes the template that its header names and the length of the block of fields behind the
header. Reading a frame of a kind fails for one of a few reasons (`Fault`); writing one fails only
where the writer is misused (`Misuse`).
-/

namespace JobBroker.Frame

/-! ### Lengths shared by all frames -/

def schemaId : UInt16 := 0

def schemaVersion : UInt16 := 1

def headerLength : Nat := 8

def payloadLengthSize : Nat := 2

def maxPayloadLength : Nat := 65535

/-! ### Kinds -/

inductive Kind where
  | commandResponse
  | subscribedEvent
  deriving DecidableEq, Repr

namespace Kind

def template : Kind → UInt16
  | commandResponse => 21
  | subscribedEvent => 30

def blockLength : Kind → Nat
  | commandResponse => 37
  | subscribedEvent => 28

def noun : Kind → String
  | commandResponse => "command response"
  | subscribedEvent => "subscribed event"

def payloadNoun : Kind → String
  | commandResponse => "command response value"
  | subscribedEvent => "subscribed event"

def payloadSource : Kind → String
  | commandResponse => "a value writer"
  | subscribedEvent => "an event writer"

def overhead (kind : Kind) : Nat := headerLength + kind.blockLength + payloadLengthSize

end Kind

/-! ### Faults -/

inductive Part where
  | header
  | block (kind : Kind)
  | payloadLength
  | payload
  deriving DecidableEq, Repr

def Part.noun : Part → String
  | .header => "message header"
  | .block kind => kind.noun ++ " block"
  | .payloadLength => "payload length"
  | .payload => "payload"

inductive Fault where
  /-- The frame ends inside a part: the bytes needed up to the part's end, and those there. -/
  | cut (part : Part) (needed present : Nat)
  | schema (found : UInt16)
  | version (found : UInt16)
  | template (expected found : UInt16)
  | shortBlock (declared : UInt16) (minimum : Nat)
  deriving DecidableEq, Repr

namespace Fault

def message : Fault → String
  | cut part needed present =>
    part.noun ++ " needs " ++ toString needed ++ " bytes, frame has " ++ toString present
  | schema found => "unexpected schema id " ++ toString found.toNat
  | version found => "unsupported schema version " ++ toString found.toNat
  | template expected found =>
    "expected template " ++ toString expected.toNat ++ ", got " ++ toString found.toNat
  | shortBlock declared minimum =>
    "block length " ++ toString declared.toNat ++ " shorter than " ++ toString minimum

def error (fault : Fault) : SubscriptionError := .malformedFrame fault.message

@[simp] theorem message_schema (found : UInt16) :
    (schema found).message = "unexpected schema id " ++ toString found.toNat := rfl

@[simp] theorem message_version (found : UInt16) :
    (version found).message = "unsupported schema version " ++ toString found.toNat := rfl

@[simp] theorem message_template (expected found : UInt16) :
    (template expected found).message =
      "expected template " ++ toString expected.toNat ++ ", got " ++ toString found.toNat := rfl

@[simp] theorem message_shortBlock (declared : UInt16) (minimum : Nat) :
    (shortBlock declared minimum).message =
      "block length " ++ toString declared.toNat ++ " shorter than " ++ toString minimum := rfl

end Fault

/-! ### Misuse -/

inductive Misuse where
  | noPayload
  | longPayload (length : Nat)
  | outOfBuffer
  deriving DecidableEq, Repr

/-- The text that tells of a misuse, for a kind of frame. Writing past a buffer has none. -/
def Misuse.message (kind : Kind) : Misuse → Option String
  | .noPayload => some (kind.noun ++ " written without " ++ kind.payloadSource)
  | .longPayload length =>
    some (kind.payloadNoun ++ " of " ++ toString length ++ " bytes exceeds the " ++
      toString maxPayloadLength ++ " byte limit")
  | .outOfBuffer => none

end JobBroker.Frame
