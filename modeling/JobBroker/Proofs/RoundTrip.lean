import JobBroker.Frame.Draft
import JobBroker.Proofs.Reading

/-!
# Frames are read as they were written

What is written for the fields of a frame is read from the same places as the same fields, and the
payload behind them as the same payload. Writer and reader know these places each for itself; that
they agree is shown field by field, and the rest once for every layout.
-/

namespace JobBroker

namespace Bytes

theorem number_append (front part back : Bytes) :
    number (front ++ (part ++ back)) front.length part.length = value part := by
  rw [number, List.drop_left, List.take_left]

/-- A part of a byte string that is written in parts is read from where the parts before it end. -/
theorem number_flatten (front : List Bytes) (part : Bytes) (back : List Bytes) :
    number (front ++ part :: back).flatten front.flatten.length part.length = value part := by
  rw [List.flatten_append, List.flatten_cons, number_append]

theorem octet_flatten (front : List Bytes) (byte : UInt8) (back : List Bytes) :
    octet (front ++ [byte] :: back).flatten front.flatten.length = byte := by
  rw [octet, List.flatten_append, List.flatten_cons, List.getD_eq_getElem?_getD,
    List.getElem?_append_right (Nat.le_refl _), Nat.sub_self]
  rfl

/-! ### Words of the widths in use -/

theorem ofNat_word16 (word : UInt16) : UInt16.ofNat (value (Bytes.word 2 word.toNat)) = word := by
  rw [value_word_of_lt (by simpa [bound] using word.toNat_lt), UInt16.ofNat_toNat]

theorem ofNat_word32 (word : UInt32) : UInt32.ofNat (value (Bytes.word 4 word.toNat)) = word := by
  rw [value_word_of_lt (by simpa [bound] using word.toNat_lt), UInt32.ofNat_toNat]

theorem ofNat_word64 (word : UInt64) : UInt64.ofNat (value (Bytes.word 8 word.toNat)) = word := by
  rw [value_word_of_lt (by simpa [bound] using word.toNat_lt), UInt64.ofNat_toNat]

theorem toInt32_word32 (word : Int32) :
    (UInt32.ofNat (value (Bytes.word 4 word.toUInt32.toNat))).toInt32 = word := by
  rw [ofNat_word32, Int32.toInt32_toUInt32]

theorem toInt64_word64 (word : Int64) :
    (UInt64.ofNat (value (Bytes.word 8 word.toUInt64.toNat))).toInt64 = word := by
  rw [ofNat_word64, Int64.toInt64_toUInt64]

end Bytes

namespace Frame

open Bytes

/-! ### Fields -/

theorem CommandResponse.read_parts (fields : CommandResponse)
    (inside : Kind.commandResponse.blockLength ≤ (parts fields).flatten.length) :
    read (parts fields).flatten inside = fields := by
  have hrecordType : octet (parts fields).flatten 0 = fields.recordType.code :=
    octet_flatten ((parts fields).take 0) _ _
  have hpartition : number (parts fields).flatten 1 2 = value (word 2 fields.partition.toNat) :=
    number_flatten ((parts fields).take 1) _ _
  have hposition : number (parts fields).flatten 3 8 = value (word 8 fields.position.toNat) :=
    number_flatten ((parts fields).take 2) _ _
  have hsource : number (parts fields).flatten 11 8 =
      value (word 8 fields.sourceRecordPosition.toNat) :=
    number_flatten ((parts fields).take 3) _ _
  have hvalueType : octet (parts fields).flatten 19 = fields.valueType.code :=
    octet_flatten ((parts fields).take 4) _ _
  have hintent : octet (parts fields).flatten 20 = fields.intent :=
    octet_flatten ((parts fields).take 5) _ _
  have hkey : number (parts fields).flatten 21 8 = value (word 8 fields.key.toNat) :=
    number_flatten ((parts fields).take 6) _ _
  have htimestamp : number (parts fields).flatten 29 8 =
      value (word 8 fields.timestamp.toUInt64.toNat) :=
    number_flatten ((parts fields).take 7) _ _
  rw [read_eq, hrecordType, hpartition, hposition, hsource, hvalueType, hintent, hkey, htimestamp,
    RecordType.coding.ofCode_code, ValueType.coding.ofCode_code, toInt64_word64]
  simp only [ofNat_word16, ofNat_word64]

theorem SubscribedEvent.read_parts (fields : SubscribedEvent)
    (inside : Kind.subscribedEvent.blockLength ≤ (parts fields).flatten.length) :
    read (parts fields).flatten inside = fields := by
  have hpartition : number (parts fields).flatten 0 2 = value (word 2 fields.partition.toNat) :=
    number_flatten ((parts fields).take 0) _ _
  have hposition : number (parts fields).flatten 2 8 = value (word 8 fields.position.toNat) :=
    number_flatten ((parts fields).take 1) _ _
  have hkey : number (parts fields).flatten 10 8 = value (word 8 fields.key.toNat) :=
    number_flatten ((parts fields).take 2) _ _
  have hsubscriber : number (parts fields).flatten 18 8 =
      value (word 8 fields.subscriberKey.toNat) :=
    number_flatten ((parts fields).take 3) _ _
  have hsubscriptionType : octet (parts fields).flatten 26 = fields.subscriptionType.code :=
    octet_flatten ((parts fields).take 4) _ _
  have heventType : octet (parts fields).flatten 27 = fields.eventType.code :=
    octet_flatten ((parts fields).take 5) _ _
  rw [read_eq, hpartition, hposition, hkey, hsubscriber, hsubscriptionType, heventType,
    SubscriptionType.coding.ofCode_code, EventType.coding.ofCode_code]
  simp only [ofNat_word16, ofNat_word64]

/-! ### Frames -/

namespace Layout

variable {Fields Setting : Type} (layout : Layout Fields Setting) (fields : Fields)
  (payload : Bytes)

/-- What is written in front of the payload's length. -/
def front : Bytes := layout.header.encode ++ (layout.parts fields).flatten

theorem length_front : (layout.front fields).length = 8 + layout.kind.blockLength := by
  rw [front, List.length_append, Header.length_encode, layout.length_parts, headerLength]

theorem encode_eq : layout.encode fields payload =
    layout.front fields ++ (word 2 payload.length ++ payload) := by
  simp only [encode, frameParts, front, Header.encode, List.flatten_append, List.flatten_cons,
    List.flatten_nil, List.append_nil, payloadLengthSize]

theorem toNat_blockLength_header : layout.header.blockLength.toNat = layout.kind.blockLength := by
  rw [header, Header.forBlock]
  cases layout.kind <;> rfl

theorem shows_header : Header.Shows (layout.encode fields payload) layout.header := by
  have hencode : layout.encode fields payload = layout.header.encode ++
      ((layout.parts fields).flatten ++ (word 2 payload.length ++ payload)) := by
    rw [encode_eq, front, List.append_assoc]
  have hinside : headerLength ≤ (layout.encode fields payload).length := by
    rw [length_encode, Kind.overhead]
    omega
  have hread : Header.read (layout.encode fields payload) hinside = layout.header := by
    simp only [hencode]
    exact Header.read_encode_append layout.header _ _
  rw [← hread]
  exact Header.shows_read hinside

theorem blockLengthOf_encode :
    blockLengthOf (layout.encode fields payload) = layout.kind.blockLength := by
  rw [← (layout.shows_header fields payload).blockLength, toNat_blockLength_header]

theorem slice_encode
    (inside : 8 + layout.kind.blockLength ≤ (layout.encode fields payload).length) :
    slice (layout.encode fields payload) 8 layout.kind.blockLength inside =
      (layout.parts fields).flatten := by
  have hheader : layout.header.encode.length = 8 := layout.header.length_encode
  simp only [slice, encode_eq, front, List.append_assoc]
  rw [← hheader, List.drop_left, ← layout.length_parts fields, List.take_left]

variable {payload} (short : payload.length ≤ maxPayloadLength)
include short

theorem payloadLengthOf_encode :
    payloadLengthOf (layout.encode fields payload) = payload.length := by
  have hfits : payload.length < bound 2 := Nat.lt_succ_of_le short
  rw [payloadLengthOf, blockLengthOf_encode, ← layout.length_front fields, encode_eq]
  exact (number_append _ (word 2 payload.length) _).trans (value_word_of_lt hfits)

theorem payloadOf_encode : payloadOf (layout.encode fields payload) = payload := by
  have hfront : (layout.front fields ++ word 2 payload.length).length =
      8 + layout.kind.blockLength + 2 := by
    rw [List.length_append, length_front, length_word]
  rw [payloadOf, blockLengthOf_encode, layout.payloadLengthOf_encode fields short, encode_eq,
    ← List.append_assoc, ← hfront, List.drop_left, List.take_length]

theorem grammar_encode : Grammar layout.kind.template.toNat layout.kind.blockLength
    (layout.encode fields payload) := by
  have hshows := layout.shows_header fields payload
  have hblock := layout.blockLengthOf_encode fields payload
  have hcount := layout.payloadLengthOf_encode fields short
  have hlength : (layout.encode fields payload).length =
      8 + layout.kind.blockLength + 2 + payload.length := layout.length_encode fields payload
  refine ⟨⟨hshows.inside, ?_, ?_, ?_, Nat.le_of_eq hblock.symm⟩, ?_, ?_, ?_⟩
  · exact hshows.schema.symm
  · exact hshows.version.symm
  · exact hshows.template.symm
  all_goals omega

/-- A layout whose fields are read from where they are written has frames that are read as they
were written. -/
theorem decode_encode
    (faithful : ∀ fields inside, layout.read (layout.parts fields).flatten inside = fields) :
    layout.decode (layout.encode fields payload) = .ok ⟨fields, payload⟩ := by
  have hgrammar := layout.grammar_encode fields short
  have hread : layout.readBlock _ hgrammar.toHeading hgrammar.block = fields := by
    simp only [readBlock, blockLengthOf_encode, slice_encode, faithful]
  rw [decode_of_grammar hgrammar, hread, layout.payloadOf_encode fields short]

end Layout

theorem Draft.encode_carrying {Fields Setting : Type} (layout : Layout Fields Setting)
    (fields : Fields) {payload : Bytes} (short : payload.length ≤ maxPayloadLength) :
    Draft.encode layout ⟨fields, some payload⟩ = .ok (layout.encode fields payload) := by
  simp only [Draft.encode, carried, short, if_true]
  rfl

/-- Whatever the fields of a draft are, and whatever payload of at most 65535 bytes it carries, its
frame is read as these fields and this payload. The fields that were never set are those that stand
for "not set", and are read as such. -/
theorem drafts_read_back :
    (∀ (fields : CommandResponse) (payload : Bytes), payload.length ≤ 65535 →
      ∃ frame, Draft.encode CommandResponse.layout ⟨fields, some payload⟩ = .ok frame ∧
        CommandResponse.decode frame = .ok ⟨fields, payload⟩) ∧
    (∀ (fields : SubscribedEvent) (payload : Bytes), payload.length ≤ 65535 →
      ∃ frame, Draft.encode SubscribedEvent.layout ⟨fields, some payload⟩ = .ok frame ∧
        SubscribedEvent.decode frame = .ok ⟨fields, payload⟩) ∧
    (Draft.fresh CommandResponse.layout).fields = {
      recordType := .unset
      partition := 65535
      position := 18446744073709551615
      sourceRecordPosition := 18446744073709551615
      valueType := .unset
      intent := 255
      key := 18446744073709551615
      timestamp := Int64.minValue } ∧
    (Draft.fresh SubscribedEvent.layout).fields = {
      partition := 65535
      position := 18446744073709551615
      key := 18446744073709551615
      subscriberKey := 18446744073709551615
      subscriptionType := .unset
      eventType := .unset } := by
  refine ⟨fun fields payload short => ?_, fun fields payload short => ?_, rfl, rfl⟩
  · exact ⟨_, Draft.encode_carrying _ fields short,
      Layout.decode_encode _ fields short CommandResponse.read_parts⟩
  · exact ⟨_, Draft.encode_carrying _ fields short,
      Layout.decode_encode _ fields short SubscribedEvent.read_parts⟩

/-- The longest payload, behind a response with a time before the epoch and an event without any
field. -/
theorem drafts_read_back_longest :
    (List.replicate 65535 (7 : UInt8)).length ≤ 65535 ∧
      (∃ frame,
        Draft.encode CommandResponse.layout
            ⟨{ recordType := .event, key := 0, timestamp := -1 }, some (List.replicate 65535 7)⟩ =
          .ok frame ∧
        CommandResponse.decode frame =
          .ok ⟨{ recordType := .event, key := 0, timestamp := -1 }, List.replicate 65535 7⟩) ∧
      ∃ frame,
        Draft.encode SubscribedEvent.layout ⟨{}, some (List.replicate 65535 7)⟩ = .ok frame ∧
        SubscribedEvent.decode frame = .ok ⟨{}, List.replicate 65535 7⟩ := by
  have hlength : (List.replicate 65535 (7 : UInt8)).length ≤ 65535 :=
    Nat.le_of_eq List.length_replicate
  exact ⟨hlength, drafts_read_back.1 _ _ hlength, drafts_read_back.2.1 _ _ hlength⟩

end Frame

end JobBroker
