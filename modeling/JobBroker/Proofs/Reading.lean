import JobBroker.Frame.CommandResponse
import JobBroker.Frame.SubscribedEvent

/-!
# What is read as a frame

A frame says itself where its parts are: the header gives the length of the block, and the two
bytes behind the block give that of the payload. Reading checks each of these before it looks
further. The frames that are read are those of a grammar that is told in numbers at fixed places,
and every other byte string is answered with the text of the first check that it fails.
-/

namespace JobBroker

namespace Bytes

/-- The number that the `count` bytes from `start` on stand for, as far as they are there. -/
def number (bs : Bytes) (start count : Nat) : Nat := value ((bs.drop start).take count)

/-- The byte at a place, or zero behind the end. -/
def octet (bs : Bytes) (place : Nat) : UInt8 := bs.getD place 0

theorem wordAt_eq_number (bs : Bytes) (start count : Nat) (inside : start + count ≤ bs.length) :
    wordAt bs start count inside = number bs start count := rfl

theorem byteAt_eq_octet (bs : Bytes) (place : Nat) (inside : place < bs.length) :
    byteAt bs place inside = octet bs place := by
  rw [byteAt, octet, List.getD_eq_getElem?_getD, List.getElem?_eq_getElem inside, Option.getD_some]

theorem number_lt {bs : Bytes} {start count : Nat} (inside : start + count ≤ bs.length) :
    number bs start count < bound count := by
  have hlt := value_lt (slice bs start count inside)
  rwa [length_slice] at hlt

theorem number_slice {bs : Bytes} {start length : Nat} (inside : start + length ≤ bs.length)
    {place count : Nat} (h : place + count ≤ length) :
    number (slice bs start length inside) place count = number bs (start + place) count := by
  rw [number, slice, List.drop_take, List.take_take, List.drop_drop, Nat.min_eq_left (by omega)]
  rfl

theorem octet_slice {bs : Bytes} {start length : Nat} (inside : start + length ≤ bs.length)
    {place : Nat} (h : place < length) :
    octet (slice bs start length inside) place = octet bs (start + place) := by
  simp only [octet, slice, List.getD_eq_getElem?_getD, List.getElem?_take, h, if_true,
    List.getElem?_drop]

end Bytes

namespace Frame

open Bytes

/-! ### The grammar -/

def blockLengthOf (frame : Bytes) : Nat := number frame 0 2

/-- The length that a frame gives for its payload, in the two bytes behind its block. -/
def payloadLengthOf (frame : Bytes) : Nat := number frame (8 + blockLengthOf frame) 2

def payloadOf (frame : Bytes) : Bytes :=
  (frame.drop (8 + blockLengthOf frame + 2)).take (payloadLengthOf frame)

/-- The headers of a template that announce a block of a least length. -/
structure Heading (template minimum : Nat) (frame : Bytes) : Prop where
  header : 8 ≤ frame.length
  schema : number frame 4 2 = 0
  version : number frame 6 2 = 1
  template : number frame 2 2 = template
  minimum : minimum ≤ blockLengthOf frame

/-- The frames of a template whose block has a least length. -/
structure Grammar (template minimum : Nat) (frame : Bytes) : Prop
    extends Heading template minimum frame where
  block : 8 + blockLengthOf frame ≤ frame.length
  payloadLength : 8 + blockLengthOf frame + 2 ≤ frame.length
  payload : 8 + blockLengthOf frame + 2 + payloadLengthOf frame ≤ frame.length

/-! ### The checks -/

/-- One check of a frame, with the text that tells of its failure. -/
structure Check where
  passed : Bool
  text : String

def firstFailed? : List Check → Option String
  | [] => none
  | check :: rest => if check.passed then firstFailed? rest else some check.text

theorem firstFailed?_eq_none_iff {all : List Check} :
    firstFailed? all = none ↔ ∀ check ∈ all, check.passed = true := by
  induction all with
  | nil => simp [firstFailed?]
  | cons check rest ih => by_cases h : check.passed = true <;> simp [firstFailed?, h, ih]

theorem firstFailed?_append (front back : List Check) :
    firstFailed? (front ++ back) = (firstFailed? front).or (firstFailed? back) := by
  induction front with
  | nil => rfl
  | cons check front ih => by_cases h : check.passed = true <;> simp [firstFailed?, h, ih]

def missing (what : String) (needed present : Nat) : String :=
  what ++ " needs " ++ toString needed ++ " bytes, frame has " ++ toString present

def headingChecks (template minimum : Nat) (frame : Bytes) : List Check :=
  [⟨8 ≤ frame.length, missing "message header" 8 frame.length⟩,
    ⟨number frame 4 2 = 0, "unexpected schema id " ++ toString (number frame 4 2)⟩,
    ⟨number frame 6 2 = 1, "unsupported schema version " ++ toString (number frame 6 2)⟩,
    ⟨number frame 2 2 = template,
      "expected template " ++ toString template ++ ", got " ++ toString (number frame 2 2)⟩,
    ⟨minimum ≤ blockLengthOf frame,
      "block length " ++ toString (blockLengthOf frame) ++ " shorter than " ++ toString minimum⟩]

/-- The checks of what stands behind a header, in their order. -/
def bodyChecks (block : String) (frame : Bytes) : List Check :=
  let back := 8 + blockLengthOf frame
  [⟨back ≤ frame.length, missing block back frame.length⟩,
    ⟨back + 2 ≤ frame.length, missing "payload length" (back + 2) frame.length⟩,
    ⟨back + 2 + payloadLengthOf frame ≤ frame.length,
      missing "payload" (back + 2 + payloadLengthOf frame) frame.length⟩]

def checks (template minimum : Nat) (block : String) (frame : Bytes) : List Check :=
  headingChecks template minimum frame ++ bodyChecks block frame

variable {template minimum : Nat} {block : String} {frame : Bytes}

theorem firstFailed?_headingChecks_eq_none_iff :
    firstFailed? (headingChecks template minimum frame) = none ↔
      Heading template minimum frame := by
  simp only [firstFailed?_eq_none_iff, headingChecks, List.forall_mem_cons, decide_eq_true_eq]
  constructor
  · rintro ⟨header, schema, version, template, minimum, -⟩
    exact ⟨header, schema, version, template, minimum⟩
  · rintro ⟨header, schema, version, template, minimum⟩
    exact ⟨header, schema, version, template, minimum, fun _ h => absurd h List.not_mem_nil⟩

theorem firstFailed?_checks_eq_none_iff :
    firstFailed? (checks template minimum block frame) = none ↔ Grammar template minimum frame := by
  rw [checks, firstFailed?_append, Option.or_eq_none_iff, firstFailed?_headingChecks_eq_none_iff]
  simp only [firstFailed?_eq_none_iff, bodyChecks, List.forall_mem_cons, decide_eq_true_eq]
  constructor
  · rintro ⟨heading, block, payloadLength, payload, -⟩
    exact ⟨heading, block, payloadLength, payload⟩
  · rintro ⟨heading, block, payloadLength, payload⟩
    exact ⟨heading, block, payloadLength, payload, fun _ h => absurd h List.not_mem_nil⟩

/-! ### Reading a header -/

namespace Header

variable {header : Header} {template : UInt16}

/-- The words of a header, each from its own place. -/
structure Shows (frame : Bytes) (header : Header) : Prop where
  inside : 8 ≤ frame.length
  blockLength : header.blockLength.toNat = blockLengthOf frame
  template : header.template.toNat = number frame 2 2
  schema : header.schema.toNat = number frame 4 2
  version : header.version.toNat = number frame 6 2

theorem shows_read (inside : headerLength ≤ frame.length) : Shows frame (read frame inside) := by
  have hinside : 8 ≤ frame.length := inside
  have hword (start : Nat) (h : start + 2 ≤ frame.length) :
      (UInt16.ofNat (number frame start 2)).toNat = number frame start 2 :=
    UInt16.toNat_ofNat_of_lt' (number_lt h)
  exact ⟨hinside, hword 0 (by omega), hword 2 (by omega), hword 4 (by omega), hword 6 (by omega)⟩

/-- The faults of a header stand in the order of its checks. -/
theorem message_fault? (h : Shows frame header) (template : UInt16) (minimum : Nat) :
    (header.fault? template minimum).map Fault.message =
      firstFailed? (headingChecks template.toNat minimum frame) := by
  have hschema : header.schema = schemaId ↔ number frame 4 2 = 0 := by
    rw [← UInt16.toNat_inj, h.schema, schemaId, UInt16.toNat_zero]
  have hversion : header.version = schemaVersion ↔ number frame 6 2 = 1 := by
    rw [← UInt16.toNat_inj, h.version, schemaVersion, UInt16.toNat_one]
  have htemplate : header.template = template ↔ number frame 2 2 = template.toNat := by
    rw [← UInt16.toNat_inj, h.template]
  simp only [fault?, ne_eq, hschema, hversion, htemplate, h.blockLength, ite_not, ← Nat.not_le,
    apply_ite (Option.map Fault.message), Option.map_some, Option.map_none, Fault.message_schema,
    Fault.message_version, Fault.message_template, Fault.message_shortBlock, h.schema, h.version,
    h.template, headingChecks, firstFailed?, decide_eq_true_eq, h.inside, if_true]

theorem decode_of_heading (h : Heading template.toNat minimum frame) :
    ∃ header, decode frame template minimum = .ok header ∧ Shows frame header := by
  have hinside : headerLength ≤ frame.length := h.header
  have hshows := shows_read hinside
  have hnone := message_fault? hshows template minimum
  rw [firstFailed?_headingChecks_eq_none_iff.2 h, Option.map_eq_none_iff] at hnone
  refine ⟨_, ?_, hshows⟩
  simp only [decode, hinside, dif_pos, hnone]

theorem decode_of_failed {text : String}
    (h : firstFailed? (headingChecks template.toNat minimum frame) = some text) :
    ∃ fault, decode frame template minimum = .error fault ∧ fault.message = text := by
  by_cases hinside : headerLength ≤ frame.length
  · have hsome := message_fault? (shows_read hinside) template minimum
    rw [h, Option.map_eq_some_iff] at hsome
    obtain ⟨fault, hfault, htext⟩ := hsome
    refine ⟨fault, ?_, htext⟩
    simp only [decode, hinside, dif_pos, hfault]
  · have hshort : ¬8 ≤ frame.length := hinside
    simp only [headingChecks, firstFailed?, decide_eq_true_eq, hshort, if_false,
      Option.some.injEq] at h
    refine ⟨.cut .header headerLength frame.length, ?_, h⟩
    simp only [decode, hinside, dif_neg, not_false_eq_true]

end Header

/-! ### Reading a frame -/

namespace Layout

variable {Fields Setting : Type} {layout : Layout Fields Setting}

def checks (layout : Layout Fields Setting) (frame : Bytes) : List Check :=
  Frame.checks layout.kind.template.toNat layout.kind.blockLength (Part.block layout.kind).noun
    frame

/-- What is read of the block of a frame with a heading that is accepted. -/
def readBlock (layout : Layout Fields Setting) (frame : Bytes)
    (h : Heading layout.kind.template.toNat layout.kind.blockLength frame)
    (block : 8 + blockLengthOf frame ≤ frame.length) : Fields :=
  layout.read (slice frame 8 (blockLengthOf frame) block) (by
    rw [length_slice]
    exact h.minimum)

/-- Behind a heading that is accepted the block, the length of the payload and the payload have to
be there. -/
theorem decode_of_heading
    (h : Heading layout.kind.template.toNat layout.kind.blockLength frame) :
    layout.decode frame =
      if block : 8 + blockLengthOf frame ≤ frame.length then
        if 8 + blockLengthOf frame + 2 ≤ frame.length then
          if 8 + blockLengthOf frame + 2 + payloadLengthOf frame ≤ frame.length then
            .ok ⟨layout.readBlock frame h block, payloadOf frame⟩
          else
            .error (.cut .payload (8 + blockLengthOf frame + 2 + payloadLengthOf frame)
              frame.length)
        else .error (.cut .payloadLength (8 + blockLengthOf frame + 2) frame.length)
      else .error (.cut (.block layout.kind) (8 + blockLengthOf frame) frame.length) := by
  obtain ⟨header, hdecode, hshows⟩ := Header.decode_of_heading h
  unfold decode
  split
  next fault hfault =>
    rw [hdecode] at hfault
    cases hfault
  next other hother =>
    rw [hdecode] at hother
    cases hother
    simp only [hshows.blockLength, headerLength, payloadLengthSize, wordAt_eq_number]
    split <;> rfl

theorem decode_of_heading_failed {text : String}
    (h : firstFailed? (headingChecks layout.kind.template.toNat layout.kind.blockLength frame) =
      some text) : ∃ fault, layout.decode frame = .error fault ∧ fault.message = text := by
  obtain ⟨fault, hdecode, hmessage⟩ := Header.decode_of_failed h
  refine ⟨fault, ?_, hmessage⟩
  unfold decode
  split
  next other hother =>
    rw [hdecode] at hother
    cases hother
    rfl
  next header hheader =>
    rw [hdecode] at hheader
    cases hheader

theorem decode_of_grammar
    (h : Grammar layout.kind.template.toNat layout.kind.blockLength frame) :
    layout.decode frame = .ok ⟨layout.readBlock frame h.toHeading h.block, payloadOf frame⟩ := by
  rw [decode_of_heading h.toHeading, dif_pos h.block, if_pos h.payloadLength, if_pos h.payload]

theorem decode_of_failed {text : String} (h : firstFailed? (layout.checks frame) = some text) :
    ∃ fault, layout.decode frame = .error fault ∧ fault.message = text := by
  rw [checks, Frame.checks, firstFailed?_append] at h
  cases hheading : firstFailed?
      (headingChecks layout.kind.template.toNat layout.kind.blockLength frame) with
  | some told =>
    rw [hheading, Option.some_or, Option.some.injEq] at h
    subst h
    exact decode_of_heading_failed hheading
  | none =>
    rw [hheading, Option.none_or] at h
    rw [decode_of_heading (firstFailed?_headingChecks_eq_none_iff.1 hheading)]
    simp only [bodyChecks, firstFailed?, decide_eq_true_eq] at h
    split at h
    next hblock =>
      rw [dif_pos hblock]
      split at h
      next hcount =>
        rw [if_pos hcount]
        split at h
        next => cases h
        next hshort =>
          rw [if_neg hshort]
          exact ⟨_, rfl, Option.some.inj h⟩
      next hshort =>
        rw [if_neg hshort]
        exact ⟨_, rfl, Option.some.inj h⟩
    next hshort =>
      rw [dif_neg hshort]
      exact ⟨_, rfl, Option.some.inj h⟩

end Layout

/-! ### The two kinds of frames -/

/-- A decoder reads the frames of a grammar, the fields from their places in the frame, and answers
every other byte string with the first check that it fails. -/
structure Reads {Fields : Type} (decode : Bytes → Except Fault (Content Fields))
    (template minimum : Nat) (block : String) (fields : Bytes → Fields) (frame : Bytes) : Prop where
  accepts : (∃ content, decode frame = .ok content) ↔ Grammar template minimum frame
  content : Grammar template minimum frame → decode frame = .ok ⟨fields frame, payloadOf frame⟩
  refuses : ¬Grammar template minimum frame → ∃ fault text, decode frame = .error fault ∧
    firstFailed? (checks template minimum block frame) = some text ∧
    fault.error = .malformedFrame text

theorem Layout.reads {Fields Setting : Type} {layout : Layout Fields Setting}
    {fields : Bytes → Fields} {frame : Bytes}
    (same : ∀ h block, layout.readBlock frame h block = fields frame) :
    Reads layout.decode layout.kind.template.toNat layout.kind.blockLength
      (Part.block layout.kind).noun fields frame := by
  have hcontent (h : Grammar layout.kind.template.toNat layout.kind.blockLength frame) :
      layout.decode frame = .ok ⟨fields frame, payloadOf frame⟩ := by
    rw [decode_of_grammar h, same]
  have hrefuses (h : ¬Grammar layout.kind.template.toNat layout.kind.blockLength frame) :
      ∃ fault text, layout.decode frame = .error fault ∧
        firstFailed? (layout.checks frame) = some text ∧ fault.error = .malformedFrame text := by
    obtain ⟨text, htext⟩ := Option.ne_none_iff_exists'.1
      (mt firstFailed?_checks_eq_none_iff.1 h : firstFailed? (layout.checks frame) ≠ none)
    obtain ⟨fault, hdecode, hmessage⟩ := decode_of_failed htext
    exact ⟨fault, text, hdecode, htext, congrArg SubscriptionError.malformedFrame hmessage⟩
  refine ⟨⟨?_, fun h => ⟨_, hcontent h⟩⟩, hcontent, hrefuses⟩
  rintro ⟨content, hdecode⟩
  refine Classical.byContradiction fun hgrammar => ?_
  obtain ⟨fault, text, hfault, -⟩ := hrefuses hgrammar
  rw [hdecode] at hfault
  cases hfault

/-- The fields of a response, each from its own place behind the header. -/
def CommandResponse.placed (frame : Bytes) : CommandResponse where
  recordType := .ofCode (octet frame 8)
  partition := .ofNat (number frame 9 2)
  position := .ofNat (number frame 11 8)
  sourceRecordPosition := .ofNat (number frame 19 8)
  valueType := .ofCode (octet frame 27)
  intent := octet frame 28
  key := .ofNat (number frame 29 8)
  timestamp := (UInt64.ofNat (number frame 37 8)).toInt64

/-- The fields of an event, each from its own place behind the header. -/
def SubscribedEvent.placed (frame : Bytes) : SubscribedEvent where
  partition := .ofNat (number frame 8 2)
  position := .ofNat (number frame 10 8)
  key := .ofNat (number frame 18 8)
  subscriberKey := .ofNat (number frame 26 8)
  subscriptionType := .ofCode (octet frame 34)
  eventType := .ofCode (octet frame 35)

namespace CommandResponse

theorem read_eq (block : Bytes) (inside : Kind.commandResponse.blockLength ≤ block.length) :
    read block inside = {
      recordType := .ofCode (octet block 0)
      partition := .ofNat (number block 1 2)
      position := .ofNat (number block 3 8)
      sourceRecordPosition := .ofNat (number block 11 8)
      valueType := .ofCode (octet block 19)
      intent := octet block 20
      key := .ofNat (number block 21 8)
      timestamp := (UInt64.ofNat (number block 29 8)).toInt64 } := by
  have bound : 37 ≤ block.length := inside
  rw [← byteAt_eq_octet block 0 (by omega), ← byteAt_eq_octet block 19 (by omega),
    ← byteAt_eq_octet block 20 (by omega)]
  rfl

theorem readBlock_eq (h : Heading layout.kind.template.toNat layout.kind.blockLength frame)
    (block : 8 + blockLengthOf frame ≤ frame.length) :
    layout.readBlock frame h block = placed frame := by
  have hminimum : 37 ≤ blockLengthOf frame := h.minimum
  have hword (place count : Nat) (inside : place + count ≤ 37) :
      number (slice frame 8 (blockLengthOf frame) block) place count =
        number frame (8 + place) count := number_slice block (by omega)
  have hbyte (place : Nat) (inside : place < 37) :
      octet (slice frame 8 (blockLengthOf frame) block) place = octet frame (8 + place) :=
    octet_slice block (by omega)
  refine (read_eq _ (by rw [length_slice]; exact hminimum)).trans ?_
  rw [hbyte 0 (by decide), hword 1 2 (by decide), hword 3 8 (by decide), hword 11 8 (by decide),
    hbyte 19 (by decide), hbyte 20 (by decide), hword 21 8 (by decide), hword 29 8 (by decide)]
  rfl

end CommandResponse

namespace SubscribedEvent

theorem read_eq (block : Bytes) (inside : Kind.subscribedEvent.blockLength ≤ block.length) :
    read block inside = {
      partition := .ofNat (number block 0 2)
      position := .ofNat (number block 2 8)
      key := .ofNat (number block 10 8)
      subscriberKey := .ofNat (number block 18 8)
      subscriptionType := .ofCode (octet block 26)
      eventType := .ofCode (octet block 27) } := by
  have bound : 28 ≤ block.length := inside
  rw [← byteAt_eq_octet block 26 (by omega), ← byteAt_eq_octet block 27 (by omega)]
  rfl

theorem readBlock_eq (h : Heading layout.kind.template.toNat layout.kind.blockLength frame)
    (block : 8 + blockLengthOf frame ≤ frame.length) :
    layout.readBlock frame h block = placed frame := by
  have hminimum : 28 ≤ blockLengthOf frame := h.minimum
  have hword (place count : Nat) (inside : place + count ≤ 28) :
      number (slice frame 8 (blockLengthOf frame) block) place count =
        number frame (8 + place) count := number_slice block (by omega)
  have hbyte (place : Nat) (inside : place < 28) :
      octet (slice frame 8 (blockLengthOf frame) block) place = octet frame (8 + place) :=
    octet_slice block (by omega)
  refine (read_eq _ (by rw [length_slice]; exact hminimum)).trans ?_
  rw [hword 0 2 (by decide), hword 2 8 (by decide), hword 10 8 (by decide), hword 18 8 (by decide),
    hbyte 26 (by decide), hbyte 27 (by decide)]
  rfl

end SubscribedEvent

/-- Of all byte strings exactly those are read as a frame of a kind that have a header of its
template with a block of at least the kind's length, all of the block, and the payload that is
announced behind it. The fields come from the front of the block, whatever follows them; what is no
such frame is malformed, and the first check that fails says why. Every byte that is looked at is
known to be there. -/
theorem frames_read (frame : Bytes) :
    Reads CommandResponse.decode 21 37 "command response block" CommandResponse.placed frame ∧
      Reads SubscribedEvent.decode 30 28 "subscribed event block" SubscribedEvent.placed frame :=
  ⟨Layout.reads CommandResponse.readBlock_eq, Layout.reads SubscribedEvent.readBlock_eq⟩

end Frame

end JobBroker
