import JobBroker.Bytes.Word

/-!
# Regions of a byte string

Reading a run of bytes whose place inside the string is known, and writing bytes over a part of a
buffer. A write has no effect outside its region and fails when the buffer ends before the region
does. Parts written one behind the other are one write of their concatenation
(`place_eq_overwrite`).
-/

namespace JobBroker.Bytes

/-- The `count` bytes from `start` on; the bound says that they lie inside the string. -/
def slice (bs : Bytes) (start count : Nat) (_inside : start + count ≤ bs.length) : Bytes :=
  (bs.drop start).take count

@[simp] theorem length_slice (bs : Bytes) (start count : Nat) (h : start + count ≤ bs.length) :
    (slice bs start count h).length = count := by
  simp only [slice, List.length_take, List.length_drop]
  omega

def wordAt (bs : Bytes) (start count : Nat) (inside : start + count ≤ bs.length) : Nat :=
  value (slice bs start count inside)

def byteAt (bs : Bytes) (start : Nat) (inside : start < bs.length) : UInt8 := bs[start]

/-- Writes `part` over the bytes from `start` on; nothing comes back when the buffer is too
short for it. -/
def overwrite (buffer : Bytes) (start : Nat) (part : Bytes) : Option Bytes :=
  if start + part.length ≤ buffer.length then
    some (buffer.take start ++ part ++ buffer.drop (start + part.length))
  else
    none

def place : Bytes → Nat → List Bytes → Option Bytes
  | buffer, _, [] => some buffer
  | buffer, start, part :: parts =>
    (overwrite buffer start part).bind fun written => place written (start + part.length) parts

theorem overwrite_of_le {buffer part : Bytes} {start : Nat}
    (h : start + part.length ≤ buffer.length) :
    overwrite buffer start part =
      some (buffer.take start ++ part ++ buffer.drop (start + part.length)) := by
  rw [overwrite, if_pos h]

theorem overwrite_eq_none {buffer part : Bytes} {start : Nat}
    (h : buffer.length < start + part.length) : overwrite buffer start part = none := by
  rw [overwrite, if_neg (by omega)]

theorem length_of_overwrite {buffer part written : Bytes} {start : Nat}
    (h : overwrite buffer start part = some written) : written.length = buffer.length := by
  unfold overwrite at h
  split at h
  · cases h
    simp only [List.length_append, List.length_take, List.length_drop]
    omega
  · cases h

theorem overwrite_append (buffer : Bytes) (start : Nat) (a b : Bytes) :
    ((overwrite buffer start a).bind fun written => overwrite written (start + a.length) b) =
      overwrite buffer start (a ++ b) := by
  by_cases ha : start + a.length ≤ buffer.length
  · have hlen : (buffer.take start ++ a ++ buffer.drop (start + a.length)).length =
        buffer.length := by
      simp only [List.length_append, List.length_take, List.length_drop]
      omega
    rw [overwrite_of_le ha, Option.bind_some]
    by_cases hb : start + a.length + b.length ≤ buffer.length
    · have hboth : start + (a ++ b).length ≤ buffer.length := by
        simp only [List.length_append]
        omega
      have hfront : (buffer.take start ++ a).length = start + a.length := by
        simp only [List.length_append, List.length_take]
        omega
      rw [overwrite_of_le (by rw [hlen]; exact hb), overwrite_of_le hboth,
        List.take_append_of_le_length (by omega),
        List.take_of_length_le (by omega : (buffer.take start ++ a).length ≤ start + a.length),
        List.drop_append, List.drop_eq_nil_of_le (by omega), hfront, List.drop_drop,
        List.nil_append, List.length_append, List.append_assoc, List.append_assoc,
        show start + a.length + (start + a.length + b.length - (start + a.length)) =
          start + (a.length + b.length) by omega]
      simp only [List.append_assoc]
    · rw [overwrite_eq_none (by rw [hlen]; omega),
        overwrite_eq_none (by simp only [List.length_append]; omega)]
  · rw [overwrite_eq_none (by omega), Option.bind_none,
      overwrite_eq_none (by simp only [List.length_append]; omega)]

/-- Placing parts one behind the other writes their concatenation, given that there is a part. -/
theorem place_eq_overwrite (buffer : Bytes) (start : Nat) (part : Bytes) (parts : List Bytes) :
    place buffer start (part :: parts) = overwrite buffer start (part :: parts).flatten := by
  induction parts generalizing buffer start part with
  | nil =>
    simp only [place, List.flatten_cons, List.flatten_nil, List.append_nil]
    cases overwrite buffer start part <;> rfl
  | cons next parts ih =>
    have hstep : place buffer start (part :: next :: parts) =
        (overwrite buffer start part).bind fun written =>
          place written (start + part.length) (next :: parts) := rfl
    simp only [hstep, ih, overwrite_append, List.flatten_cons]

end JobBroker.Bytes
