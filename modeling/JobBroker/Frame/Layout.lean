import JobBroker.Frame.Header

/-!
# The layout of a frame

A frame is a header, a block of fixed fields, two bytes that give the length of the payload, and
the payload. A `Layout` says for one kind of frame how its fields fill the block and how they are
read from it. `Layout.encode` is the frame that carries given fields and a payload; reading
(`Layout.decode`) accepts any frame of the kind whose header, block and payload are complete, also
one whose block is longer than the fields need or that has bytes behind the payload.
-/

namespace JobBroker.Frame

structure Content (Fields : Type) where
  fields : Fields
  payload : Bytes
  deriving DecidableEq, Repr

/-- How the fields of one kind of frame are set, and how they lie in its block. -/
structure Layout (Fields Setting : Type) where
  kind : Kind
  unset : Fields
  apply : Setting → Fields → Fields
  /-- The bytes of the fields, in the order in which they fill the block. -/
  parts : Fields → List Bytes
  read : (block : Bytes) → kind.blockLength ≤ block.length → Fields
  length_parts : ∀ fields, (parts fields).flatten.length = kind.blockLength

namespace Layout

variable {Fields Setting : Type}

def header (layout : Layout Fields Setting) : Header :=
  .forBlock layout.kind.blockLength layout.kind.template

def frameParts (layout : Layout Fields Setting) (fields : Fields) (payload : Bytes) : List Bytes :=
  layout.header.parts ++ layout.parts fields ++
    [Bytes.word payloadLengthSize payload.length, payload]

def encode (layout : Layout Fields Setting) (fields : Fields) (payload : Bytes) : Bytes :=
  (layout.frameParts fields payload).flatten

/-- Reads a frame. The checks run from the front of the frame to its back, and the first one that
fails names the fault. -/
def decode (layout : Layout Fields Setting) (frame : Bytes) : Except Fault (Content Fields) :=
  match accepted : Header.decode frame layout.kind.template layout.kind.blockLength with
  | .error fault => .error fault
  | .ok header =>
    let blockLength := header.blockLength.toNat
    if block : headerLength + blockLength ≤ frame.length then
      if count : headerLength + blockLength + payloadLengthSize ≤ frame.length then
        let length := Bytes.wordAt frame (headerLength + blockLength) payloadLengthSize count
        let start := headerLength + blockLength + payloadLengthSize
        if whole : start + length ≤ frame.length then
          .ok {
            fields := layout.read (Bytes.slice frame headerLength blockLength block) (by
              rw [Bytes.length_slice]
              exact Header.le_blockLength_of_decode accepted)
            payload := Bytes.slice frame start length whole }
        else
          .error (.cut .payload (start + length) frame.length)
      else
        .error (.cut .payloadLength (headerLength + blockLength + payloadLengthSize) frame.length)
    else
      .error (.cut (.block layout.kind) (headerLength + blockLength) frame.length)

theorem length_encode (layout : Layout Fields Setting) (fields : Fields) (payload : Bytes) :
    (layout.encode fields payload).length = layout.kind.overhead + payload.length := by
  have hparts := layout.length_parts fields
  have hheader := layout.header.length_encode
  simp only [Header.encode] at hheader
  simp only [encode, frameParts, List.flatten_append, List.length_append, hparts, hheader,
    List.flatten_cons, List.flatten_nil, List.append_nil, Bytes.length_word, Kind.overhead,
    Nat.add_assoc]

end Layout

end JobBroker.Frame
