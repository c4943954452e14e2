import JobBroker.Proofs.Reuse
import JobBroker.Proofs.RoundTrip

/-!
# The canonical form of a frame

Reading forgets how long a block was beyond its fields, what stood behind the payload, and which of
the bytes without a name a coded field had. Whoever writes again what was read of a frame writes its
canonical form, which is the frame itself just when there was nothing to forget.
-/

namespace JobBroker

namespace Bytes

variable {bs : Bytes} {start count : Nat}

theorem take_drop_add (bs : Bytes) (start count more : Nat) :
    (bs.drop start).take (count + more) =
      (bs.drop start).take count ++ (bs.drop (start + count)).take more := by
  rw [List.take_add, List.drop_drop]

theorem word_number (inside : start + count ≤ bs.length) :
    word count (number bs start count) = (bs.drop start).take count := by
  have hlength := length_slice bs start count inside
  have hword := word_value (slice bs start count inside)
  rwa [hlength] at hword

theorem octet_cons (inside : start < bs.length) (more : Nat) :
    (bs.drop start).take (1 + more) = octet bs start :: (bs.drop (start + 1)).take more := by
  rw [take_drop_add, ← byteAt_eq_octet bs start inside, List.drop_eq_getElem_cons inside]
  rfl

theorem toNat_number16 (inside : start + 2 ≤ bs.length) :
    (UInt16.ofNat (number bs start 2)).toNat = number bs start 2 :=
  UInt16.toNat_ofNat_of_lt' (number_lt inside)

theorem toNat_number32 (inside : start + 4 ≤ bs.length) :
    (UInt32.ofNat (number bs start 4)).toNat = number bs start 4 :=
  UInt32.toNat_ofNat_of_lt' (number_lt inside)

theorem toNat_number64 (inside : start + 8 ≤ bs.length) :
    (UInt64.ofNat (number bs start 8)).toNat = number bs start 8 :=
  UInt64.toNat_ofNat_of_lt' (number_lt inside)

end Bytes

namespace Frame

open Bytes

/-! ### The form -/

/-- The coded fields of a block, each with its place and the bytes that have a name there. -/
abbrev Coded := List (Nat × (UInt8 → Bool))

def Coded.knows (coded : Coded) (place : Nat) (byte : UInt8) : Bool :=
  coded.all fun field => field.1 != place || field.2 byte

/-- A part of a block in which every byte that its place does not know stands for "not set". -/
def normalized (coded : Coded) : Nat → Bytes → Bytes
  | _, [] => []
  | place, byte :: rest =>
    (if coded.knows place byte then byte else unsetCode) :: normalized coded (place + 1) rest

/-- What is kept of a frame: the fields of its block, the length of its payload and the payload,
behind a header for just these fields. -/
def canonical (template minimum : Nat) (coded : Coded) (frame : Bytes) : Bytes :=
  word 2 minimum ++ word 2 template ++ word 2 0 ++ word 2 1 ++
    normalized coded 0 ((frame.drop 8).take minimum) ++
    (frame.drop (8 + blockLengthOf frame)).take 2 ++ payloadOf frame

def CommandResponse.coded : Coded := [(0, RecordType.known), (19, ValueType.known)]

def SubscribedEvent.coded : Coded := [(26, SubscriptionType.known), (27, EventType.known)]

section

variable {coded : Coded} {place : Nat}

theorem knows_of_plain {count offset : Nat} (h : offset < count)
    (plain : ∀ field ∈ coded, field.1 < place ∨ place + count ≤ field.1) (byte : UInt8) :
    coded.knows (place + offset) byte = true := by
  refine List.all_eq_true.2 fun field hfield => ?_
  have hplace : field.1 ≠ place + offset := by
    have houtside := plain field hfield
    omega
  rw [bne_iff_ne.2 hplace, Bool.true_or]

/-- Of the bytes of a block only those of coded fields can be unknown. -/
theorem forall_knows_iff {minimum : Nat} (bytes : Nat → UInt8)
    (inside : ∀ field ∈ coded, field.1 < minimum) :
    (∀ place, place < minimum →
      coded.knows place (bytes place) = true ∨ bytes place = unsetCode) ↔
    ∀ field ∈ coded, field.2 (bytes field.1) = true ∨ bytes field.1 = unsetCode := by
  constructor
  · intro hall field hfield
    refine (hall field.1 (inside field hfield)).imp_left fun hknows => ?_
    have hfieldKnows := List.all_eq_true.1 hknows field hfield
    rwa [bne_self_eq_false, Bool.false_or] at hfieldKnows
  · intro hcoded place _
    refine or_iff_not_imp_right.2 fun hset => List.all_eq_true.2 fun field hfield => ?_
    by_cases hplace : field.1 = place
    · subst hplace
      rw [(hcoded field hfield).resolve_right hset, Bool.or_true]
    · rw [bne_iff_ne.2 hplace, Bool.true_or]

@[simp] theorem length_normalized (coded : Coded) (place : Nat) (part : Bytes) :
    (normalized coded place part).length = part.length := by
  induction part generalizing place with
  | nil => rfl
  | cons byte part ih => rw [normalized, List.length_cons, ih, List.length_cons]

theorem normalized_append (coded : Coded) (place : Nat) (front back : Bytes) :
    normalized coded place (front ++ back) =
      normalized coded place front ++ normalized coded (place + front.length) back := by
  induction front generalizing place with
  | nil => rfl
  | cons byte front ih =>
    rw [List.cons_append, normalized, ih, normalized, List.cons_append, List.length_cons,
      Nat.add_assoc, Nat.add_comm 1]

theorem normalized_eq_self_iff (part : Bytes) :
    normalized coded place part = part ↔ ∀ offset, offset < part.length →
      coded.knows (place + offset) (octet part offset) = true ∨ octet part offset = unsetCode := by
  induction part generalizing place with
  | nil => exact iff_of_true rfl fun _ => nofun
  | cons byte part ih =>
    have hbyte : (if coded.knows place byte then byte else unsetCode) = byte ↔
        coded.knows place byte = true ∨ byte = unsetCode := by
      split
      next hknown => exact iff_of_true rfl (.inl hknown)
      next hunknown => rw [eq_comm, or_iff_right hunknown]
    rw [normalized, List.cons_eq_cons, hbyte, ih]
    constructor
    · rintro ⟨hfirst, hrest⟩ (_ | offset) hoffset
      · exact hfirst
      · rw [← Nat.add_assoc, Nat.add_right_comm]
        exact hrest offset (Nat.lt_of_succ_lt_succ hoffset)
    · intro hall
      refine ⟨hall 0 (Nat.succ_pos _), fun offset hoffset => ?_⟩
      have hnext := hall (offset + 1) (Nat.succ_lt_succ hoffset)
      rwa [← Nat.add_assoc, Nat.add_right_comm] at hnext

end

/-! ### The fields of a block, one behind the other -/

section

variable (coded : Coded) (frame : Bytes) (place count more : Nat)

/-- The bytes of a word are all known. -/
theorem normalized_word (inside : 8 + place + count ≤ frame.length)
    (plain : ∀ field ∈ coded, field.1 < place ∨ place + count ≤ field.1) :
    normalized coded place ((frame.drop (8 + place)).take (count + more)) =
      word count (number frame (8 + place) count) ++
        normalized coded (place + count) ((frame.drop (8 + place + count)).take more) := by
  have hlength : ((frame.drop (8 + place)).take count).length = count :=
    length_slice frame (8 + place) count inside
  have hsame : normalized coded place ((frame.drop (8 + place)).take count) =
      (frame.drop (8 + place)).take count := by
    refine (normalized_eq_self_iff _).2 fun offset hoffset => .inl ?_
    exact knows_of_plain (by rwa [hlength] at hoffset) plain _
  rw [take_drop_add, normalized_append, hlength, hsame, word_number inside]

theorem normalized_octet (inside : 8 + place < frame.length) :
    normalized coded place ((frame.drop (8 + place)).take (1 + more)) =
      (if coded.knows place (octet frame (8 + place)) then octet frame (8 + place)
        else unsetCode) ::
        normalized coded (place + 1) ((frame.drop (8 + place + 1)).take more) := by
  rw [octet_cons inside, normalized]

end

/-- The fields that are read of a block are written as its normal form. -/
theorem CommandResponse.flatten_parts_placed {frame : Bytes} (inside : 45 ≤ frame.length) :
    (parts (placed frame)).flatten = normalized coded 0 ((frame.drop 8).take 37) := by
  have hrecordType := normalized_octet coded frame 0 36 (by omega)
  have hpartition := normalized_word coded frame 1 2 34 (by omega) (by decide)
  have hposition := normalized_word coded frame 3 8 26 (by omega) (by decide)
  have hsource := normalized_word coded frame 11 8 18 (by omega) (by decide)
  have hvalueType := normalized_octet coded frame 19 17 (by omega)
  have hintent := normalized_octet coded frame 20 16 (by omega)
  have hkey := normalized_word coded frame 21 8 8 (by omega) (by decide)
  have htimestamp := normalized_word coded frame 29 8 0 (by omega) (by decide)
  simp only [Nat.reduceAdd] at *
  rw [hrecordType, hpartition, hposition, hsource, hvalueType, hintent, hkey, htimestamp]
  simp (disch := omega) only [parts, placed, RecordType.coding.code_ofCode,
    ValueType.coding.code_ofCode, UInt64.toUInt64_toInt64, toNat_number16, toNat_number64]
  simp [normalized, coded, Coded.knows]

theorem SubscribedEvent.flatten_parts_placed {frame : Bytes} (inside : 36 ≤ frame.length) :
    (parts (placed frame)).flatten = normalized coded 0 ((frame.drop 8).take 28) := by
  have hpartition := normalized_word coded frame 0 2 26 (by omega) (by decide)
  have hposition := normalized_word coded frame 2 8 18 (by omega) (by decide)
  have hkey := normalized_word coded frame 10 8 10 (by omega) (by decide)
  have hsubscriber := normalized_word coded frame 18 8 2 (by omega) (by decide)
  have hsubscriptionType := normalized_octet coded frame 26 1 (by omega)
  have heventType := normalized_octet coded frame 27 0 (by omega)
  simp only [Nat.reduceAdd] at *
  rw [hpartition, hposition, hkey, hsubscriber, hsubscriptionType, heventType]
  simp (disch := omega) only [parts, placed, SubscriptionType.coding.code_ofCode,
    EventType.coding.code_ofCode, toNat_number16, toNat_number64]
  simp [normalized, coded, Coded.knows]

/-! ### Frames in canonical form -/

section

variable {template minimum : Nat} {coded : Coded} {frame : Bytes}

theorem Grammar.length_payloadOf (h : Grammar template minimum frame) :
    (payloadOf frame).length = payloadLengthOf frame :=
  length_slice frame _ _ h.payload

theorem Grammar.payloadLengthOf_le (h : Grammar template minimum frame) :
    payloadLengthOf frame ≤ maxPayloadLength :=
  Nat.le_of_lt_succ (number_lt h.payloadLength)

theorem Grammar.fields_inside (h : Grammar template minimum frame) : 8 + minimum ≤ frame.length :=
  Nat.le_trans (Nat.add_le_add_left h.minimum 8) h.block

/-- The words of the header, the block, the length of the payload and the payload are the frame up
to the payload's end. -/
theorem Grammar.take_eq (h : Grammar template minimum frame) :
    word 2 (blockLengthOf frame) ++ word 2 template ++ word 2 0 ++ word 2 1 ++
        (frame.drop 8).take (blockLengthOf frame) ++
        (frame.drop (8 + blockLengthOf frame)).take 2 ++ payloadOf frame =
      frame.take (8 + blockLengthOf frame + 2 + payloadLengthOf frame) := by
  have hheader := h.header
  have hword (start : Nat) (inside : start + 2 ≤ 8) :
      word 2 (number frame start 2) = (frame.drop start).take 2 := word_number (by omega)
  rw [payloadOf, show 8 + blockLengthOf frame + 2 + payloadLengthOf frame =
    2 + (2 + (2 + (2 + (blockLengthOf frame + (2 + payloadLengthOf frame))))) by omega]
  simp only [List.take_add, List.drop_drop, Nat.reduceAdd, List.append_assoc]
  rw [← h.template, ← h.schema, ← h.version, hword 2 (by decide),
    hword 4 (by decide), hword 6 (by decide), blockLengthOf, hword 0 (by decide)]
  rfl

theorem Grammar.blockLengthOf_canonical (h : Grammar template minimum frame) :
    blockLengthOf (canonical template minimum coded frame) = minimum := by
  have hfits : minimum < bound 2 :=
    Nat.lt_of_le_of_lt h.minimum (number_lt (Nat.le_trans (by decide) h.header))
  simp only [blockLengthOf, canonical, List.append_assoc]
  exact (number_append [] (word 2 minimum) _).trans (value_word_of_lt hfits)

theorem Grammar.length_canonical (h : Grammar template minimum frame) :
    (canonical template minimum coded frame).length = 8 + minimum + 2 + payloadLengthOf frame := by
  have hfields : ((frame.drop 8).take minimum).length = minimum :=
    length_slice frame 8 _ h.fields_inside
  have hcount : ((frame.drop (8 + blockLengthOf frame)).take 2).length = 2 :=
    length_slice frame _ 2 h.payloadLength
  simp only [canonical, List.length_append, length_word, length_normalized, hfields, hcount,
    h.length_payloadOf, Nat.reduceAdd]

/-- The block of a canonical form. -/
theorem Grammar.slice_canonical (h : Grammar template minimum frame) :
    ((canonical template minimum coded frame).drop 8).take minimum =
      normalized coded 0 ((frame.drop 8).take minimum) := by
  have hfields : (normalized coded 0 ((frame.drop 8).take minimum)).length = minimum :=
    (length_normalized coded 0 _).trans (length_slice frame 8 _ h.fields_inside)
  rw [canonical, List.append_assoc, List.append_assoc, List.drop_left' (by simp),
    List.take_left' hfields]

/-- The block of a frame is in normal form just if its coded fields are. -/
theorem Grammar.normalized_slice_iff (h : Grammar template minimum frame)
    (inside : ∀ field ∈ coded, field.1 < minimum) :
    normalized coded 0 ((frame.drop 8).take minimum) = (frame.drop 8).take minimum ↔
      ∀ field ∈ coded,
        field.2 (octet frame (8 + field.1)) = true ∨ octet frame (8 + field.1) = unsetCode := by
  have hfields : ((frame.drop 8).take minimum).length = minimum :=
    length_slice frame 8 _ h.fields_inside
  rw [normalized_eq_self_iff, hfields, ← forall_knows_iff (fun place => octet frame (8 + place))
    inside]
  refine forall₂_congr fun place hplace => ?_
  have hoctet : octet ((frame.drop 8).take minimum) place = octet frame (8 + place) :=
    octet_slice h.fields_inside hplace
  rw [hoctet, Nat.zero_add]

/-- A frame is its own canonical form just if its block is no longer than its fields, nothing
stands behind its payload, and its coded fields have bytes with a name or the one for "not set". -/
theorem Grammar.canonical_eq_self_iff (h : Grammar template minimum frame)
    (inside : ∀ field ∈ coded, field.1 < minimum) :
    canonical template minimum coded frame = frame ↔
      blockLengthOf frame = minimum ∧
      frame.length = 8 + blockLengthOf frame + 2 + payloadLengthOf frame ∧
      ∀ field ∈ coded,
        field.2 (octet frame (8 + field.1)) = true ∨ octet frame (8 + field.1) = unsetCode := by
  constructor
  · intro hsame
    have hminimum : blockLengthOf (canonical template minimum coded frame) = minimum :=
      h.blockLengthOf_canonical
    have hlength : (canonical template minimum coded frame).length =
        8 + minimum + 2 + payloadLengthOf frame := h.length_canonical
    rw [hsame] at hminimum hlength
    refine ⟨hminimum, hminimum.symm ▸ hlength, (h.normalized_slice_iff inside).1 ?_⟩
    rw [← h.slice_canonical, hsame]
  · rintro ⟨hminimum, hend, hcoded⟩
    have htake := h.take_eq
    rw [← hend, List.take_length, hminimum, ← (h.normalized_slice_iff inside).2 hcoded,
      ← hminimum] at htake
    rw [canonical, ← hminimum]
    exact htake

end

/-! ### Writing what was read -/

namespace Layout

variable {Fields Setting Field : Type}

/-- What becomes of a frame that was read: written again it has its canonical form, which is read as
the same content and is the frame itself just if reading has forgotten nothing. -/
structure Restores (layout : Layout Fields Setting) (settings : Fields → List Setting)
    (template minimum : Nat) (coded : Coded) (frame : Bytes) (content : Content Fields) :
    Prop where
  written : ∀ draft : Draft Fields,
    (draft.after layout ((settings content.fields).map .set ++ [.supply content.payload])).encode
      layout = .ok (canonical template minimum coded frame)
  readBack : layout.decode (canonical template minimum coded frame) = .ok content
  unchanged : canonical template minimum coded frame = frame ↔
    blockLengthOf frame = minimum ∧
    frame.length = 8 + blockLengthOf frame + 2 + payloadLengthOf frame ∧
    ∀ field ∈ coded,
      field.2 (octet frame (8 + field.1)) = true ∨ octet frame (8 + field.1) = unsetCode

theorem encode_header (kind : Kind) :
    (Header.forBlock kind.blockLength kind.template).encode =
      word 2 kind.blockLength ++ word 2 kind.template.toNat ++ word 2 0 ++ word 2 1 := by
  cases kind <;> rfl

variable [DecidableEq Field] {layout : Layout Fields Setting} {field : Setting → Field}
  {settings : Fields → List Setting} {coded : Coded} {fields : Bytes → Fields} {frame : Bytes}

theorem encode_eq_canonical
    (h : Grammar layout.kind.template.toNat layout.kind.blockLength frame)
    (written : (layout.parts (fields frame)).flatten =
      normalized coded 0 ((frame.drop 8).take layout.kind.blockLength)) :
    layout.encode (fields frame) (payloadOf frame) =
      canonical layout.kind.template.toNat layout.kind.blockLength coded frame := by
  rw [encode_eq, front, header, encode_header, written, h.length_payloadOf, payloadLengthOf,
    word_number h.payloadLength, canonical]
  simp only [List.append_assoc]

theorem restores (fielded : layout.Fielded field settings)
    (faithful : ∀ fields inside, layout.read (layout.parts fields).flatten inside = fields)
    (placed : ∀ h block, layout.readBlock frame h block = fields frame)
    (written : 8 + layout.kind.blockLength ≤ frame.length → (layout.parts (fields frame)).flatten =
      normalized coded 0 ((frame.drop 8).take layout.kind.blockLength))
    (inside : ∀ field ∈ coded, field.1 < layout.kind.blockLength) {content : Content Fields}
    (accepted : layout.decode frame = .ok content) :
    layout.Restores settings layout.kind.template.toNat layout.kind.blockLength coded frame
      content := by
  have hreads := Layout.reads placed
  have hgrammar := hreads.accepts.1 ⟨content, accepted⟩
  obtain rfl : ⟨fields frame, payloadOf frame⟩ = content :=
    Except.ok.inj ((hreads.content hgrammar).symm.trans accepted)
  have hshort : (payloadOf frame).length ≤ maxPayloadLength :=
    hgrammar.length_payloadOf ▸ hgrammar.payloadLengthOf_le
  have hencode := encode_eq_canonical hgrammar (written hgrammar.fields_inside)
  refine ⟨fun draft => ?_, ?_, hgrammar.canonical_eq_self_iff inside⟩
  · have hafter : draft.after layout
        ((settings (fields frame)).map .set ++ [.supply (payloadOf frame)]) =
          ⟨fields frame, some (payloadOf frame)⟩ := by
      rw [Draft.after, List.foldl_append]
      show Draft.after layout (Draft.after layout draft _) _ = _
      rw [Draft.after_sets, fielded.complete]
      rfl
    rw [hafter, Draft.encode_carrying layout _ hshort, hencode]
  · rw [← hencode]
    exact layout.decode_encode _ hshort faithful

end Layout

/-- Whoever sets the fields and the payload that were read of a frame, on whatever draft, writes the
canonical form of the frame: the header for just the fields, their bytes with 255 for each unknown
one of a coded field, and the payload. That is read as the same content. It is the frame itself just
if the block had no more than the fields, nothing stood behind the payload, and the coded fields had
known bytes or 255. -/
theorem frames_canonical :
    (∀ (frame : Bytes) (content : Content CommandResponse),
      CommandResponse.decode frame = .ok content →
        CommandResponse.layout.Restores CommandResponse.settings 21 37
          [(0, RecordType.known), (19, ValueType.known)] frame content) ∧
    ∀ (frame : Bytes) (content : Content SubscribedEvent),
      SubscribedEvent.decode frame = .ok content →
        SubscribedEvent.layout.Restores SubscribedEvent.settings 30 28
          [(26, SubscriptionType.known), (27, EventType.known)] frame content := by
  constructor
  · intro frame content accepted
    exact Layout.restores CommandResponse.fielded CommandResponse.read_parts
      CommandResponse.readBlock_eq CommandResponse.flatten_parts_placed (by decide) accepted
  · intro frame content accepted
    exact Layout.restores SubscribedEvent.fielded SubscribedEvent.read_parts
      SubscribedEvent.readBlock_eq SubscribedEvent.flatten_parts_placed (by decide) accepted

/-- A response of a later version, with a longer block and a record type that is not known, and a
byte behind its payload. -/
def laterResponse : Bytes :=
  [38, 0, 21, 0, 0, 0, 1, 0] ++ 3 :: List.replicate 37 0 ++ [1, 0, 5, 9]

/-- An event in canonical form. -/
def plainEvent : Bytes := [28, 0, 30, 0, 0, 0, 1, 0] ++ List.replicate 27 0 ++ [255] ++ [1, 0, 5]

theorem frames_canonical_sample :
    (∃ content, CommandResponse.decode laterResponse = .ok content ∧
      CommandResponse.layout.Restores CommandResponse.settings 21 37
        [(0, RecordType.known), (19, ValueType.known)] laterResponse content) ∧
    (∃ content, SubscribedEvent.decode plainEvent = .ok content ∧
      SubscribedEvent.layout.Restores SubscribedEvent.settings 30 28
        [(26, SubscriptionType.known), (27, EventType.known)] plainEvent content) ∧
    canonical 21 37 CommandResponse.coded laterResponse =
      [37, 0, 21, 0, 0, 0, 1, 0] ++ 255 :: List.replicate 36 0 ++ [1, 0, 5] ∧
    canonical 30 28 SubscribedEvent.coded plainEvent = plainEvent := by
  have hresponse : CommandResponse.decode laterResponse =
      .ok ⟨⟨.unset, 0, 0, 0, .job, 0, 0, 0⟩, [5]⟩ := by rfl
  have hevent : SubscribedEvent.decode plainEvent = .ok ⟨⟨0, 0, 0, 0, .topic, .unset⟩, [5]⟩ := by
    rfl
  exact ⟨⟨_, hresponse, frames_canonical.1 _ _ hresponse⟩,
    ⟨_, hevent, frames_canonical.2 _ _ hevent⟩, by decide +kernel, by decide +kernel⟩

end Frame

end JobBroker
