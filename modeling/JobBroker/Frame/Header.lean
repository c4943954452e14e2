import JobBroker.Bytes.Region
import JobBroker.Frame.Kind

/-!
# Frame headers

The eight bytes in front of every block of fields: four little-endian words that give the length
of the block, the template, the schema and its version. `Header.decode` reads them back from the
front of a frame and accepts only a header of this schema, of the template asked for, and with a
block that is long enough.
-/

namespace JobBroker.Frame

structure Header where
  blockLength : UInt16
  template : UInt16
  schema : UInt16
  version : UInt16
  deriving DecidableEq, Repr

namespace Header

/-- The header of this schema for a block length and a template. A length beyond the word is cut
to its low bits. -/
def forBlock (blockLength : Nat) (template : UInt16) : Header :=
  ⟨UInt16.ofNat blockLength, template, schemaId, schemaVersion⟩

def parts (header : Header) : List Bytes :=
  [Bytes.word 2 header.blockLength.toNat, Bytes.word 2 header.template.toNat,
    Bytes.word 2 header.schema.toNat, Bytes.word 2 header.version.toNat]

def encode (header : Header) : Bytes := header.parts.flatten

def write (header : Header) (buffer : Bytes) (start : Nat) : Option Bytes :=
  Bytes.place buffer start header.parts

def read (frame : Bytes) (inside : headerLength ≤ frame.length) : Header :=
  have bound : 8 ≤ frame.length := inside
  { blockLength := UInt16.ofNat (Bytes.wordAt frame 0 2 (by omega))
    template := UInt16.ofNat (Bytes.wordAt frame 2 2 (by omega))
    schema := UInt16.ofNat (Bytes.wordAt frame 4 2 (by omega))
    version := UInt16.ofNat (Bytes.wordAt frame 6 2 (by omega)) }

/-- The first fault of a header for a template and a least block length, if it has one. -/
def fault? (header : Header) (template : UInt16) (minimum : Nat) : Option Fault :=
  if header.schema ≠ schemaId then some (.schema header.schema)
  else if header.version ≠ schemaVersion then some (.version header.version)
  else if header.template ≠ template then some (.template template header.template)
  else if header.blockLength.toNat < minimum then some (.shortBlock header.blockLength minimum)
  else none

def decode (frame : Bytes) (template : UInt16) (minimum : Nat) : Except Fault Header :=
  if inside : headerLength ≤ frame.length then
    let header := read frame inside
    match header.fault? template minimum with
    | some fault => .error fault
    | none => .ok header
  else
    .error (.cut .header headerLength frame.length)

@[simp] theorem length_encode (header : Header) : header.encode.length = headerLength := by
  simp [encode, parts, headerLength]

/-- The header found in front of anything is the one that was written there. -/
theorem read_encode_append (header : Header) (rest : Bytes)
    (inside : headerLength ≤ (header.encode ++ rest).length) :
    read (header.encode ++ rest) inside = header := by
  obtain ⟨blockLength, template, schema, version⟩ := header
  have low (x : UInt16) : UInt16.ofNat (Bytes.value (Bytes.word 2 x.toNat)) = x := by
    rw [Bytes.value_word_of_lt (by simpa [Bytes.bound] using x.toNat_lt), UInt16.ofNat_toNat]
  simp only [read, Bytes.wordAt, Bytes.slice, encode, parts, Bytes.word, List.flatten_cons,
    List.flatten_nil, List.append_nil, List.cons_append, List.nil_append, List.drop_zero,
    List.drop_succ_cons, List.take_succ_cons, List.take_zero]
  simp only [Bytes.word] at low
  simp only [low]

/-- A header without a fault has the block length that was asked for. -/
theorem le_blockLength_of_fault?_eq_none {header : Header} {template : UInt16} {minimum : Nat}
    (h : header.fault? template minimum = none) : minimum ≤ header.blockLength.toNat := by
  unfold fault? at h
  split at h
  · cases h
  split at h
  · cases h
  split at h
  · cases h
  split at h
  · cases h
  omega

/-- An accepted header announces a block of at least the length that was asked for. -/
theorem le_blockLength_of_decode {frame : Bytes} {template : UInt16} {minimum : Nat}
    {header : Header} (h : decode frame template minimum = .ok header) :
    minimum ≤ header.blockLength.toNat := by
  unfold decode at h
  split at h
  · simp only at h
    split at h
    · cases h
    · cases h
      exact le_blockLength_of_fault?_eq_none ‹_›
  · cases h

end Header

end JobBroker.Frame
