import JobBroker.Frame.Layout

/-!
# Drafts of frames

A draft is a frame in the making, used again and again: fields start unset, the payload has to be
supplied, and sending a draft clears it. Measuring, writing or sending a draft that has no
payload, or one too long to announce, is a misuse, found before anything else happens.
`Draft.perform` runs any of these uses and says what it answered.
-/

namespace JobBroker.Frame

structure Draft (Fields : Type) where
  fields : Fields
  payload : Option Bytes := none
  deriving DecidableEq, Repr

inductive Use (Fields Setting : Type) where
  | set (setting : Setting)
  | supply (payload : Bytes)
  | reset
  | preset (fields : Fields)
  | measure
  | encode
  | write (buffer : Bytes) (start : Nat)
  | send (transport : Bytes → Bool)

inductive Answer where
  | done
  | length (bytes : Nat)
  | frame (bytes : Bytes)
  | buffer (bytes : Bytes)
  /-- The frame was offered to the transport, once, and this is its answer. -/
  | offered (frame : Bytes) (taken : Bool)
  | misused (misuse : Misuse)
  deriving DecidableEq, Repr

namespace Draft

variable {Fields Setting : Type}

def fresh (layout : Layout Fields Setting) : Draft Fields := { fields := layout.unset }

def carried (draft : Draft Fields) : Except Misuse Bytes :=
  match draft.payload with
  | none => .error .noPayload
  | some payload =>
    if payload.length ≤ maxPayloadLength then .ok payload
    else .error (.longPayload payload.length)

def length (layout : Layout Fields Setting) (draft : Draft Fields) : Except Misuse Nat :=
  draft.carried.map fun payload => layout.kind.overhead + payload.length

def encode (layout : Layout Fields Setting) (draft : Draft Fields) : Except Misuse Bytes :=
  draft.carried.map fun payload => layout.encode draft.fields payload

def write (layout : Layout Fields Setting) (draft : Draft Fields) (buffer : Bytes)
    (start : Nat) : Except Misuse Bytes :=
  match draft.carried with
  | .error misuse => .error misuse
  | .ok payload =>
    match Bytes.place buffer start (layout.frameParts draft.fields payload) with
    | some written => .ok written
    | none => .error .outOfBuffer

/-- Offers the frame to a transport. A draft that was offered is cleared, whether the frame was
taken or not; a misused one stays as it is, and the transport is not asked. -/
def send (layout : Layout Fields Setting) (draft : Draft Fields) (transport : Bytes → Bool) :
    Draft Fields × Answer :=
  match draft.encode layout with
  | .error misuse => (draft, .misused misuse)
  | .ok frame => (fresh layout, .offered frame (transport frame))

def answered {α : Type} (answer : α → Answer) : Except Misuse α → Answer
  | .ok result => answer result
  | .error misuse => .misused misuse

def perform (layout : Layout Fields Setting) (draft : Draft Fields) :
    Use Fields Setting → Draft Fields × Answer
  | .set setting => ({ draft with fields := layout.apply setting draft.fields }, .done)
  | .supply payload => ({ draft with payload := some payload }, .done)
  | .reset => (fresh layout, .done)
  | .preset fields => ({ fresh layout with fields := fields }, .done)
  | .measure => (draft, answered .length (draft.length layout))
  | .encode => (draft, answered .frame (draft.encode layout))
  | .write buffer start => (draft, answered .buffer (draft.write layout buffer start))
  | .send transport => draft.send layout transport

theorem write_of_misused {layout : Layout Fields Setting} {draft : Draft Fields} {misuse : Misuse}
    (h : draft.carried = .error misuse) (buffer : Bytes) (start : Nat) :
    draft.write layout buffer start = .error misuse := by
  simp only [write, h]

end Draft

end JobBroker.Frame
