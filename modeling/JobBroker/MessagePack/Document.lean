import JobBroker.Bytes.Word
import JobBroker.Text.Utf8

/-!
# Documents and their MessagePack form

A document is a nested value without a schema: what response values, event payloads and stored
snapshots are made of. Its MessagePack form starts every value with the shortest marker that can
carry it: integers from zero on in the unsigned forms, negative ones in the signed forms, floating
point numbers always with 64 bits, and texts, arrays and maps with their length in front.
-/

namespace JobBroker.MessagePack

/-- A value of a document. A float is given by its 64 bits, and a map keeps its entries in the
order in which they are written. -/
inductive Document where
  | nil
  | bool (value : Bool)
  | int (value : Int)
  | float (bits : UInt64)
  | text (value : String)
  | array (items : List Document)
  | map (entries : List (String × Document))

/-- A marker and the number behind it, in `width` bytes with the highest first. -/
def marked (marker : UInt8) (width n : Nat) : Bytes := marker :: Bytes.wordHighFirst width n

def encodeNat (n : Nat) : Bytes :=
  if n < 0x80 then [UInt8.ofNat n]
  else if n < 0x100 then marked 0xCC 1 n
  else if n < 0x10000 then marked 0xCD 2 n
  else if n < 0x100000000 then marked 0xCE 4 n
  else marked 0xCF 8 n

/-- The integer below zero that lies `n` below minus one, in two's complement. -/
def encodeBelowZero (n : Nat) : Bytes :=
  if n < 0x20 then [UInt8.ofNat (0x100 - 1 - n)]
  else if n < 0x80 then marked 0xD0 1 (0x100 - 1 - n)
  else if n < 0x8000 then marked 0xD1 2 (0x10000 - 1 - n)
  else if n < 0x80000000 then marked 0xD2 4 (0x100000000 - 1 - n)
  else marked 0xD3 8 (0x10000000000000000 - 1 - n)

def encodeInt : Int → Bytes
  | .ofNat n => encodeNat n
  | .negSucc n => encodeBelowZero n

def textHead (n : Nat) : Bytes :=
  if n < 32 then [UInt8.ofNat (0xA0 + n)]
  else if n < 0x100 then marked 0xD9 1 n
  else if n < 0x10000 then marked 0xDA 2 n
  else marked 0xDB 4 n

def arrayHead (n : Nat) : Bytes :=
  if n < 16 then [UInt8.ofNat (0x90 + n)]
  else if n < 0x10000 then marked 0xDC 2 n
  else marked 0xDD 4 n

def mapHead (n : Nat) : Bytes :=
  if n < 16 then [UInt8.ofNat (0x80 + n)]
  else if n < 0x10000 then marked 0xDE 2 n
  else marked 0xDF 4 n

/-- A text: the length in bytes, then its UTF-8 bytes. -/
def encodeText (text : String) : Bytes :=
  let bytes := Utf8.encode text
  textHead bytes.length ++ bytes

mutual
def Document.encode : Document → Bytes
  | .nil => [0xC0]
  | .bool false => [0xC2]
  | .bool true => [0xC3]
  | .int n => encodeInt n
  | .float bits => marked 0xCB 8 bits.toNat
  | .text text => encodeText text
  | .array items => arrayHead items.length ++ encodeItems items
  | .map entries => mapHead entries.length ++ encodeEntries entries

def encodeItems : List Document → Bytes
  | [] => []
  | item :: rest => item.encode ++ encodeItems rest

def encodeEntries : List (String × Document) → Bytes
  | [] => []
  | entry :: rest => encodeEntry entry ++ encodeEntries rest

def encodeEntry : String × Document → Bytes
  | (key, value) => encodeText key ++ value.encode
end

def Document.sortedMap (entries : List (String × Document)) : Document :=
  .map (entries.mergeSort fun a b => a.1 ≤ b.1)

def Document.ofBytes (bs : Bytes) : Document := .array (bs.map fun b => .int b.toNat)

end JobBroker.MessagePack
