import JobBroker.Bytes.Word

/-!
# Text from bytes that may not be UTF-8

`repair` reads every byte string as text. Well-formed sequences become their characters. Where
the bytes stop being well formed, the longest run that could still have started a character
becomes one replacement character, and reading goes on with the byte that did not fit.
-/

namespace JobBroker.Utf8

/-- Stands in the text for bytes that spell no character. -/
def replacement : Char := '\uFFFD'

/-- A character whose first bytes have been read: the bits so far, and the range that each byte
still to come must lie in. -/
structure Opened where
  bits : Nat
  next : UInt8 × UInt8
  later : List (UInt8 × UInt8)

/-- The range of a byte that continues a character and is not restricted further. -/
def continuing : UInt8 × UInt8 := (0x80, 0xBF)

/-- What a first byte opens. The first continuation of some is narrower, which excludes overlong
forms, surrogates and numbers above the last code point. -/
def opened? (b : UInt8) : Option Opened :=
  if 0xC2 ≤ b ∧ b ≤ 0xDF then some ⟨b.toNat - 0xC0, continuing, []⟩
  else if b = 0xE0 then some ⟨0, (0xA0, 0xBF), [continuing]⟩
  else if b = 0xED then some ⟨13, (0x80, 0x9F), [continuing]⟩
  else if 0xE1 ≤ b ∧ b ≤ 0xEF then some ⟨b.toNat - 0xE0, continuing, [continuing]⟩
  else if b = 0xF0 then some ⟨0, (0x90, 0xBF), [continuing, continuing]⟩
  else if 0xF1 ≤ b ∧ b ≤ 0xF3 then some ⟨b.toNat - 0xF0, continuing, [continuing, continuing]⟩
  else if b = 0xF4 then some ⟨4, (0x80, 0x8F), [continuing, continuing]⟩
  else none

/-- Reads a byte that starts something: a whole character, an opened one, or nothing known. -/
def start (b : UInt8) : List Char × Option Opened :=
  if b < 0x80 then ([Char.ofNat b.toNat], none)
  else match opened? b with
    | some opened => ([], some opened)
    | none => ([replacement], none)

/-- Reads one byte, given the character that is open: the characters it completes and what is
open after it. -/
def read (state : Option Opened) (b : UInt8) : List Char × Option Opened :=
  match state with
  | none => start b
  | some ⟨bits, (low, high), later⟩ =>
    if low ≤ b ∧ b ≤ high then
      let bits := bits * 64 + (b.toNat - 0x80)
      match later with
      | [] => ([Char.ofNat bits], none)
      | next :: later => ([], some ⟨bits, next, later⟩)
    else
      let (chars, state) := start b
      (replacement :: chars, state)

/-- The characters of the bytes, given the character that is open in front of them. -/
def repairFrom : Option Opened → Bytes → List Char
  | none, [] => []
  | some _, [] => [replacement]
  | state, b :: rest =>
    let (chars, state) := read state b
    chars ++ repairFrom state rest

def repair (bs : Bytes) : String := String.ofList (repairFrom none bs)

def encode (text : String) : Bytes := text.toUTF8.data.toList

end JobBroker.Utf8
