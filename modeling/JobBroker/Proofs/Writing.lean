import JobBroker.Frame.CommandResponse
import JobBroker.Frame.SubscribedEvent

/-!
# What writing a frame does to a buffer

A frame goes into a buffer part by part, each at a place counted from where the frame begins. The
parts fill a region of the length that was measured, without a gap and without a byte beyond it;
when the buffer ends before the region does, one of the parts does not fit. What a buffer holds
where writing was given up is said by a second account of it, which has the places in numbers and
agrees with the first.
-/

namespace JobBroker

namespace Bytes

variable {buffer part written : Bytes} {start : Nat}

/-- A buffer that holds a part in a region and differs from another one at most there. -/
structure Carries (written buffer : Bytes) (start : Nat) (part : Bytes) : Prop where
  length : written.length = buffer.length
  inside : (written.drop start).take part.length = part
  outside : ∀ place, place < start ∨ start + part.length ≤ place →
    written[place]? = buffer[place]?

theorem carries_of_overwrite (h : overwrite buffer start part = some written) :
    Carries written buffer start part := by
  have hlength := length_of_overwrite h
  unfold overwrite at h
  split at h
  next hfits =>
    have hfront : (buffer.take start).length = start := by
      rw [List.length_take]
      omega
    cases h
    refine ⟨hlength, ?_, ?_⟩
    · rw [List.append_assoc, List.drop_left' hfront, List.take_left]
    · rintro place (hbefore | hbehind)
      · rw [List.append_assoc, List.getElem?_append_left (by omega),
          List.getElem?_take_of_lt hbefore]
      · rw [List.getElem?_append_right (by rw [List.length_append]; omega), List.getElem?_drop,
          List.length_append, hfront, Nat.add_sub_cancel' hbehind]
  next => cases h

/-- Writes parts at places counted from a start, up to the first that does not fit: what the
buffer holds then, and whether all parts are in it. -/
def scatter : Bytes → Nat → List (Nat × Bytes) → Bytes × Bool
  | buffer, _, [] => (buffer, true)
  | buffer, start, (place, part) :: rest =>
    match overwrite buffer (start + place) part with
    | none => (buffer, false)
    | some written => scatter written start rest

/-- Each of the parts has its place where the one before it ends. -/
def Tiles : Nat → List (Nat × Bytes) → Prop
  | _, [] => True
  | first, (place, part) :: rest => place = first ∧ Tiles (first + part.length) rest

theorem place_eq_scatter {parts : List (Nat × Bytes)} {first : Nat} (tiles : Tiles first parts)
    (buffer : Bytes) (start : Nat) :
    place buffer (start + first) (parts.map Prod.snd) =
      if (scatter buffer start parts).2 then some (scatter buffer start parts).1 else none := by
  induction parts generalizing first buffer with
  | nil => rfl
  | cons head rest ih =>
    obtain ⟨rfl, tiles⟩ := tiles
    cases h : overwrite buffer (start + head.1) head.2 with
    | none =>
      simp only [List.map_cons, place, scatter, h, Option.bind_none, Bool.false_eq_true, if_false]
    | some written =>
      simpa only [List.map_cons, place, scatter, h, Option.bind_some, Nat.add_assoc] using
        ih tiles written

end Bytes

namespace Frame

open Bytes

/-! ### Places -/

def headingPieces (blockLength template : Nat) : List (Nat × Bytes) :=
  [(0, word 2 blockLength), (2, word 2 template), (4, word 2 0), (6, word 2 1)]

def CommandResponse.pieces (fields : CommandResponse) (payload : Bytes) : List (Nat × Bytes) :=
  headingPieces 37 21 ++
    [(8, [fields.recordType.code]),
      (8 + 1, word 2 fields.partition.toNat),
      (8 + 3, word 8 fields.position.toNat),
      (8 + 11, word 8 fields.sourceRecordPosition.toNat),
      (8 + 19, [fields.valueType.code]),
      (8 + 20, [fields.intent]),
      (8 + 21, word 8 fields.key.toNat),
      (8 + 29, word 8 fields.timestamp.toUInt64.toNat),
      (8 + 37, word 2 payload.length),
      (8 + 37 + 2, payload)]

def SubscribedEvent.pieces (fields : SubscribedEvent) (payload : Bytes) : List (Nat × Bytes) :=
  headingPieces 28 30 ++
    [(8, word 2 fields.partition.toNat),
      (8 + 2, word 8 fields.position.toNat),
      (8 + 10, word 8 fields.key.toNat),
      (8 + 18, word 8 fields.subscriberKey.toNat),
      (8 + 26, [fields.subscriptionType.code]),
      (8 + 27, [fields.eventType.code]),
      (8 + 28, word 2 payload.length),
      (8 + 28 + 2, payload)]

variable {Fields Setting : Type}

/-- The parts of the frames of a layout, each at a place of its own. -/
structure Layout.Cut (layout : Layout Fields Setting)
    (pieces : Fields → Bytes → List (Nat × Bytes)) : Prop where
  parts : ∀ fields payload, (pieces fields payload).map Prod.snd = layout.frameParts fields payload
  tiles : ∀ fields payload, Tiles 0 (pieces fields payload)

theorem CommandResponse.cut : layout.Cut pieces where
  parts _ _ := rfl
  tiles _ _ := by simp [Tiles, pieces, headingPieces]

theorem SubscribedEvent.cut : layout.Cut pieces where
  parts _ _ := rfl
  tiles _ _ := by simp [Tiles, pieces, headingPieces]

theorem Layout.place_frameParts (layout : Layout Fields Setting) (fields : Fields)
    (payload buffer : Bytes) (start : Nat) :
    place buffer start (layout.frameParts fields payload) =
      overwrite buffer start (layout.encode fields payload) :=
  place_eq_overwrite buffer start _ _

/-! ### Drafts -/

namespace Draft

/-- Writes the pieces of a draft, and gives what the buffer holds afterwards, also where the writing
was a misuse. -/
def writeInto (pieces : Fields → Bytes → List (Nat × Bytes)) (draft : Draft Fields)
    (buffer : Bytes) (start : Nat) : Bytes × Option Misuse :=
  match draft.carried with
  | .error misuse => (buffer, some misuse)
  | .ok payload =>
    let scattered := scatter buffer start (pieces draft.fields payload)
    (scattered.1, if scattered.2 then none else some .outOfBuffer)

/-- What a draft writes, in full detail. -/
structure WritesExactly (layout : Layout Fields Setting)
    (pieces : Fields → Bytes → List (Nat × Bytes)) (draft : Draft Fields) : Prop where
  /-- The two accounts of writing agree. -/
  agrees : ∀ buffer start, draft.write layout buffer start =
    match draft.writeInto pieces buffer start with
    | (written, none) => .ok written
    | (_, some misuse) => .error misuse
  carrying : ∀ payload, draft.payload = some payload → payload.length ≤ 65535 →
    ∃ frame, draft.length layout = .ok frame.length ∧ draft.encode layout = .ok frame ∧
      ∀ buffer start,
        (start + frame.length ≤ buffer.length → ∃ written,
          draft.write layout buffer start = .ok written ∧ Carries written buffer start frame) ∧
        (buffer.length < start + frame.length →
          draft.write layout buffer start = .error .outOfBuffer)
  misused : (draft.payload = none ∨
      ∃ payload, draft.payload = some payload ∧ 65535 < payload.length) →
    ∃ misuse, draft.length layout = .error misuse ∧ ∀ buffer start,
      draft.write layout buffer start = .error misuse ∧
      draft.writeInto pieces buffer start = (buffer, some misuse)

variable {layout : Layout Fields Setting} {pieces : Fields → Bytes → List (Nat × Bytes)}
  (draft : Draft Fields)

theorem write_eq_writeInto (cut : layout.Cut pieces) (buffer : Bytes) (start : Nat) :
    draft.write layout buffer start =
      match draft.writeInto pieces buffer start with
      | (written, none) => .ok written
      | (_, some misuse) => .error misuse := by
  unfold write writeInto
  cases draft.carried with
  | error misuse => rfl
  | ok payload =>
    have hplace := place_eq_scatter (cut.tiles draft.fields payload) buffer start
    rw [cut.parts, Nat.add_zero] at hplace
    simp only [hplace]
    cases (scatter buffer start (pieces draft.fields payload)).2 <;> rfl

theorem carried_of_short {payload : Bytes} (carries : draft.payload = some payload)
    (short : payload.length ≤ 65535) : draft.carried = .ok payload := by
  have hshort : payload.length ≤ maxPayloadLength := short
  simp only [carried, carries, hshort, if_true]

theorem carried_of_misused (misused : draft.payload = none ∨
    ∃ payload, draft.payload = some payload ∧ 65535 < payload.length) :
    ∃ misuse, draft.carried = .error misuse := by
  rcases misused with hnone | ⟨payload, hsome, hlong⟩
  · exact ⟨.noPayload, by simp only [carried, hnone]⟩
  · have hlong' : ¬payload.length ≤ maxPayloadLength := Nat.not_le_of_lt hlong
    exact ⟨.longPayload payload.length, by simp only [carried, hsome, hlong', if_false]⟩

variable {draft} in
theorem write_of_carried {payload : Bytes} (h : draft.carried = .ok payload) (buffer : Bytes)
    (start : Nat) : draft.write layout buffer start =
      match overwrite buffer start (layout.encode draft.fields payload) with
      | some written => .ok written
      | none => .error .outOfBuffer := by
  have hplace := layout.place_frameParts draft.fields payload buffer start
  cases hwritten : overwrite buffer start (layout.encode draft.fields payload) with
  | none =>
    rw [hwritten] at hplace
    simp only [write, h, hplace]
  | some written =>
    rw [hwritten] at hplace
    simp only [write, h, hplace]

theorem writes_exactly (cut : layout.Cut pieces) : draft.WritesExactly layout pieces where
  agrees := draft.write_eq_writeInto cut
  carrying := by
    intro payload carries short
    have hcarried := draft.carried_of_short carries short
    refine ⟨layout.encode draft.fields payload, ?_, ?_, fun buffer start => ⟨?_, ?_⟩⟩
    · rw [length, hcarried, layout.length_encode]
      rfl
    · rw [encode, hcarried]
      rfl
    · intro fits
      have hwritten := overwrite_of_le fits
      refine ⟨_, ?_, carries_of_overwrite hwritten⟩
      rw [write_of_carried hcarried, hwritten]
    · intro exceeds
      rw [write_of_carried hcarried, overwrite_eq_none exceeds]
  misused := by
    intro misused
    obtain ⟨misuse, hmisuse⟩ := draft.carried_of_misused misused
    refine ⟨misuse, ?_, fun buffer start => ⟨write_of_misused hmisuse buffer start, ?_⟩⟩
    · rw [length, hmisuse]
      rfl
    · simp only [writeInto, hmisuse]

end Draft

/-- Drafts of both kinds of frames write exactly what they measure: into any buffer with room for
it, at any place, their frame and nothing else, whatever the buffer held; into a shorter one they do
not write. A draft that has no payload, or too long a one, is neither measured nor written, and
leaves every buffer as it was. -/
theorem drafts_written :
    (∀ draft : Draft CommandResponse,
        draft.WritesExactly CommandResponse.layout CommandResponse.pieces) ∧
      ∀ draft : Draft SubscribedEvent,
        draft.WritesExactly SubscribedEvent.layout SubscribedEvent.pieces :=
  ⟨fun draft => draft.writes_exactly CommandResponse.cut,
    fun draft => draft.writes_exactly SubscribedEvent.cut⟩

end Frame

end JobBroker
