import JobBroker.Frame.Code
import JobBroker.Frame.Draft

/-!
# Command responses

The frame that answers a client's command. Its block of 37 bytes holds, in this order, the record
type (1 byte), the partition (2), the position (8), the position of the record that caused it (8),
the value type (1), the intent (1), the key (8) and the timestamp (8); the payload is the value.
-/

namespace JobBroker.Frame

/-- The fields of a command response. A fresh one has every field at the value that stands for
"not set". -/
structure CommandResponse where
  recordType : RecordType := .unset
  partition : UInt16 := 65535
  position : UInt64 := 18446744073709551615
  sourceRecordPosition : UInt64 := 18446744073709551615
  valueType : ValueType := .unset
  /-- What is done with the value; its meaning depends on the value type. -/
  intent : UInt8 := unsetCode
  key : UInt64 := 18446744073709551615
  timestamp : Int64 := Int64.minValue
  deriving DecidableEq, Repr

namespace CommandResponse

inductive Setting where
  | recordType (value : RecordType)
  | partition (value : UInt16)
  | position (value : UInt64)
  | sourceRecordPosition (value : UInt64)
  | valueType (value : ValueType)
  | intent (value : UInt8)
  | key (value : UInt64)
  | timestamp (value : Int64)
  deriving DecidableEq, Repr

def set (setting : Setting) (response : CommandResponse) : CommandResponse :=
  match setting with
  | .recordType recordType => { response with recordType }
  | .partition partition => { response with partition }
  | .position position => { response with position }
  | .sourceRecordPosition sourceRecordPosition => { response with sourceRecordPosition }
  | .valueType valueType => { response with valueType }
  | .intent intent => { response with intent }
  | .key key => { response with key }
  | .timestamp timestamp => { response with timestamp }

def parts (response : CommandResponse) : List Bytes :=
  [[response.recordType.code],
    Bytes.word 2 response.partition.toNat,
    Bytes.word 8 response.position.toNat,
    Bytes.word 8 response.sourceRecordPosition.toNat,
    [response.valueType.code],
    [response.intent],
    Bytes.word 8 response.key.toNat,
    Bytes.word 8 response.timestamp.toUInt64.toNat]

/-- The fields at the front of a block, each from its own place. -/
def read (block : Bytes) (inside : Kind.commandResponse.blockLength ≤ block.length) :
    CommandResponse :=
  have bound : 37 ≤ block.length := inside
  { recordType := .ofCode (Bytes.byteAt block 0 (by omega))
    partition := UInt16.ofNat (Bytes.wordAt block 1 2 (by omega))
    position := UInt64.ofNat (Bytes.wordAt block 3 8 (by omega))
    sourceRecordPosition := UInt64.ofNat (Bytes.wordAt block 11 8 (by omega))
    valueType := .ofCode (Bytes.byteAt block 19 (by omega))
    intent := Bytes.byteAt block 20 (by omega)
    key := UInt64.ofNat (Bytes.wordAt block 21 8 (by omega))
    timestamp := (UInt64.ofNat (Bytes.wordAt block 29 8 (by omega))).toInt64 }

def layout : Layout CommandResponse Setting where
  kind := .commandResponse
  unset := {}
  apply := set
  parts := parts
  read := read
  length_parts := fun _ => by simp [parts, Kind.blockLength]

def decode (frame : Bytes) : Except Fault (Content CommandResponse) := layout.decode frame

end CommandResponse

end JobBroker.Frame
