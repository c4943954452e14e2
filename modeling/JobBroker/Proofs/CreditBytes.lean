import JobBroker.Credit.Request
import JobBroker.Proofs.Canonical
import Mathlib.Algebra.Group.Int.Defs
import Mathlib.Algebra.Group.Nat.Defs

/-!
# The twelve bytes of a credit request

A request is laid out as the eight bytes of its key and, behind them, the four bytes of its count,
the lowest byte first in both. A count below zero is laid out as the word that it wraps around to.
Every request has twelve bytes of its own, and every twelve bytes are those of one request.
-/

namespace JobBroker

namespace Bytes

/-! ### The bytes of a word -/

theorem octet_word {count place : Nat} (inside : place < count) (n : Nat) :
    (octet (word count n) place).toNat = n / 256 ^ place % 256 := by
  induction count generalizing place n with
  | zero => omega
  | succ count ih =>
    cases place with
    | zero =>
      have hlowest : octet (word (count + 1) n) 0 = UInt8.ofNat n := rfl
      rw [hlowest, UInt8.toNat_ofNat', Nat.pow_zero, Nat.div_one]
    | succ place =>
      have hhigher : octet (word (count + 1) n) (place + 1) = octet (word count (n / 256)) place :=
        rfl
      rw [hhigher, ih (Nat.lt_of_succ_lt_succ inside), Nat.div_div_eq_div_mul, Nat.pow_succ']

theorem octet_append_left {front : Bytes} {place : Nat} (inside : place < front.length)
    (back : Bytes) : octet (front ++ back) place = octet front place := by
  rw [octet, octet, List.getD_eq_getElem?_getD, List.getD_eq_getElem?_getD,
    List.getElem?_append_left inside]

theorem octet_append_right (front back : Bytes) (place : Nat) :
    octet (front ++ back) (front.length + place) = octet back place := by
  rw [octet, octet, List.getD_eq_getElem?_getD, List.getD_eq_getElem?_getD,
    List.getElem?_append_right (Nat.le_add_right _ _), Nat.add_sub_cancel_left]

theorem eq_of_octet {a b : Bytes} (length : a.length = b.length)
    (same : ∀ place < a.length, octet a place = octet b place) : a = b := by
  apply List.ext_getElem length
  intro place ha hb
  have hplace := same place ha
  rwa [← byteAt_eq_octet a place ha, ← byteAt_eq_octet b place hb] at hplace

/-! ### Signed words -/

theorem toNat_toUInt32 (word : Int32) : (word.toUInt32.toNat : Int) = word.toInt % 2 ^ 32 := by
  have hbits : word.toInt = Int.bmod word.toUInt32.toNat (2 ^ 32) :=
    BitVec.toInt_eq_toNat_bmod word.toBitVec
  have hwraps : word.toInt % (2 ^ 32 : Nat) = word.toUInt32.toNat % (2 ^ 32 : Nat) := by
    rw [hbits, Int.bmod_emod]
  have hlt : word.toUInt32.toNat < 2 ^ 32 := word.toUInt32.toNat_lt
  omega

/-- Wrapping around keeps the four lowest bytes, those of numbers below zero as well, whose
quotients are rounded down. -/
theorem digit_emod {place : Nat} (inside : place < 4) (n : Int) :
    n % 2 ^ 32 / 256 ^ place % 256 = n / 256 ^ place % 256 := by
  obtain rfl | rfl | rfl | rfl : place = 0 ∨ place = 1 ∨ place = 2 ∨ place = 3 := by omega
  all_goals
    simp only [Int.reducePow]
    omega

end Bytes

namespace CreditRequest

open Bytes

/-! ### The layout -/

/-- The bytes, place by place: each is a digit to base 256 of the key or of the count, where the
quotients of a negative count are rounded down. -/
structure LaidOut (request : CreditRequest) (bytes : Bytes) : Prop where
  length : bytes.length = 12
  key : ∀ place < 8, (octet bytes place).toNat = request.key.toNat / 256 ^ place % 256
  credits : ∀ place < 4,
    ((octet bytes (8 + place)).toNat : Int) = request.credits.toInt / 256 ^ place % 256

theorem laidOut_encode (request : CreditRequest) : request.LaidOut request.encode where
  length := request.length_encode
  key place inside := by
    rw [encode, octet_append_left (by rwa [length_word]), octet_word inside]
  credits place inside := by
    have hcredits : octet request.encode (8 + place) =
        octet (word 4 request.credits.toUInt32.toNat) place :=
      octet_append_right (word 8 request.key.toNat) _ place
    rw [hcredits, octet_word inside, ← digit_emod inside, ← toNat_toUInt32]
    simp only [Int.natCast_emod, Int.natCast_ediv, Int.natCast_pow, Int.cast_ofNat_Int]

theorem LaidOut.encode_eq {request : CreditRequest} {bytes : Bytes} (h : request.LaidOut bytes) :
    request.encode = bytes := by
  have written := request.laidOut_encode
  apply eq_of_octet (written.length.trans h.length.symm)
  intro place inside
  rw [written.length] at inside
  apply UInt8.toNat_inj.1
  -- The layout tells the two parts apart, so the places are split where the key ends.
  obtain hkey | ⟨behind, rfl⟩ : place < 8 ∨ ∃ behind, place = 8 + behind := by
    by_cases hkey : place < 8
    · exact .inl hkey
    · exact .inr ⟨place - 8, by omega⟩
  · rw [written.key place hkey, h.key place hkey]
  · have hbehind : behind < 4 := by omega
    apply Int.natCast_inj.1
    rw [written.credits behind hbehind, h.credits behind hbehind]

theorem encode_eq_iff {request : CreditRequest} {bytes : Bytes} :
    request.encode = bytes ↔ request.LaidOut bytes := by
  constructor
  · rintro rfl
    exact request.laidOut_encode
  · exact LaidOut.encode_eq

/-! ### Both directions -/

theorem decode_encode (request : CreditRequest) :
    decode request.encode request.length_encode = request := by
  have hkey : number request.encode 0 8 = value (word 8 request.key.toNat) := by
    have hfirst := number_append [] (word 8 request.key.toNat)
      (word 4 request.credits.toUInt32.toNat)
    rwa [length_word] at hfirst
  have hcredits : number request.encode 8 4 = value (word 4 request.credits.toUInt32.toNat) := by
    have hlast := number_append (word 8 request.key.toNat)
      (word 4 request.credits.toUInt32.toNat) []
    rwa [length_word, length_word, List.append_nil] at hlast
  simp only [decode, wordAt_eq_number, hkey, hcredits, ofNat_word64, toInt32_word32]

theorem encode_decode (bytes : Bytes) (whole : bytes.length = byteCount) :
    (decode bytes whole).encode = bytes := by
  have hlength : bytes.length = 12 := whole
  have hkey : word 8 (decode bytes whole).key.toNat = (bytes.drop 0).take 8 := by
    rw [← word_number (by omega), ← toNat_number64 (by omega)]
    rfl
  have hcredits : word 4 (decode bytes whole).credits.toUInt32.toNat = (bytes.drop 8).take 4 := by
    rw [← word_number (by omega), ← toNat_number32 (by omega)]
    rfl
  calc (decode bytes whole).encode
      = (bytes.drop 0).take 8 ++ (bytes.drop (0 + 8)).take 4 := by rw [encode, hkey, hcredits]
    _ = (bytes.drop 0).take (8 + 4) := (take_drop_add bytes 0 8 4).symm
    _ = bytes := List.take_of_length_le (Nat.le_of_eq hlength)

/-- What is written for a request is laid out as said and is the only byte string that is; it is
read as the request again, and whatever request is read of twelve bytes is written as these bytes
again. -/
theorem layout_bijective :
    (∀ (request : CreditRequest) (bytes : Bytes), request.encode = bytes ↔ request.LaidOut bytes) ∧
    (∀ request : CreditRequest, decode request.encode request.length_encode = request) ∧
    ∀ (bytes : Bytes) (whole : bytes.length = byteCount), (decode bytes whole).encode = bytes :=
  ⟨fun _ _ => encode_eq_iff, decode_encode, encode_decode⟩

/-- A count below zero, whose upper bytes are all set. -/
theorem layout_bijective_negative :
    ([2, 1, 0, 0, 0, 0, 0, 0, 253, 255, 255, 255] : Bytes).length = byteCount ∧
      decode [2, 1, 0, 0, 0, 0, 0, 0, 253, 255, 255, 255] rfl = ⟨258, -3⟩ ∧
      (decode [2, 1, 0, 0, 0, 0, 0, 0, 253, 255, 255, 255] rfl).encode =
        [2, 1, 0, 0, 0, 0, 0, 0, 253, 255, 255, 255] ∧
      LaidOut ⟨258, -3⟩ [2, 1, 0, 0, 0, 0, 0, 0, 253, 255, 255, 255] := by
  have hwritten : encode ⟨258, -3⟩ = [2, 1, 0, 0, 0, 0, 0, 0, 253, 255, 255, 255] := by decide
  have hread := layout_bijective.2.1 ⟨258, -3⟩
  simp only [hwritten] at hread
  exact ⟨rfl, hread, layout_bijective.2.2 _ rfl, (layout_bijective.1 _ _).1 hwritten⟩

end CreditRequest

end JobBroker
