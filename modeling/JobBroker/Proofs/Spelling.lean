import JobBroker.Text.Utf8
import Mathlib.Data.UInt

/-!
# Text and the bytes that spell it

Reading the bytes of a text gives the text back. A character is read from its first byte on: that
byte opens it, or is all of it, and each byte that continues it brings in six more bits, until the
number of the character is there. Where no replacement was read, the bytes are those of the text,
so that no other bytes share it.
-/

namespace JobBroker.Utf8

/-- Reading on in a character that is open. -/
theorem repairFrom_continue {bits : Nat} {range next : UInt8 × UInt8} {later : List (UInt8 × UInt8)}
    {b : UInt8} (low : range.1.toNat ≤ b.toNat) (high : b.toNat ≤ range.2.toNat) (rest : Bytes) :
    repairFrom (some ⟨bits, range, next :: later⟩) (b :: rest) =
      repairFrom (some ⟨bits * 64 + (b.toNat - 0x80), next, later⟩) rest := by
  have hinside : range.1 ≤ b ∧ b ≤ range.2 := ⟨low, high⟩
  simp only [repairFrom, read, if_pos hinside]
  rfl

theorem repairFrom_complete {bits : Nat} {range : UInt8 × UInt8} {b : UInt8}
    (low : range.1.toNat ≤ b.toNat) (high : b.toNat ≤ range.2.toNat) (rest : Bytes) :
    repairFrom (some ⟨bits, range, []⟩) (b :: rest) =
      Char.ofNat (bits * 64 + (b.toNat - 0x80)) :: repairFrom none rest := by
  have hinside : range.1 ≤ b ∧ b ≤ range.2 := ⟨low, high⟩
  simp only [repairFrom, read, if_pos hinside]
  rfl

theorem repairFrom_open {b : UInt8} {opened : Opened} (lead : 0x80 ≤ b.toNat)
    (opens : opened? b = some opened) (rest : Bytes) :
    repairFrom none (b :: rest) = repairFrom (some opened) rest := by
  have hlead : ¬b < 0x80 := Nat.not_lt.2 lead
  simp only [repairFrom, read, start, if_neg hlead, opens]
  rfl

theorem le_continuing {b : UInt8} (low : 0x80 ≤ b.toNat) : continuing.1.toNat ≤ b.toNat := low

theorem continuing_le {b : UInt8} (high : b.toNat ≤ 0xBF) : b.toNat ≤ continuing.2.toNat := high

/-! ### First bytes -/

section

variable {b : UInt8}

theorem opened?_two (low : 0xC2 ≤ b.toNat) (high : b.toNat ≤ 0xDF) :
    opened? b = some ⟨b.toNat - 0xC0, continuing, []⟩ := if_pos ⟨low, high⟩

theorem opened?_three (low : 0xE0 ≤ b.toNat) (high : b.toNat ≤ 0xEF) :
    opened? b = some ⟨b.toNat - 0xE0,
      (if b.toNat = 0xE0 then 0xA0 else 0x80, if b.toNat = 0xED then 0x9F else 0xBF),
      [continuing]⟩ := by
  have htwo : ¬(0xC2 ≤ b ∧ b ≤ 0xDF) := fun h => by
    have hle : b.toNat ≤ 0xDF := h.2
    omega
  rw [opened?, if_neg htwo]
  by_cases hfirst : b.toNat = 0xE0
  · obtain rfl : b = 0xE0 := UInt8.toNat_inj.1 hfirst
    rfl
  by_cases hlast : b.toNat = 0xED
  · obtain rfl : b = 0xED := UInt8.toNat_inj.1 hlast
    rfl
  have hmiddle : 0xE1 ≤ b ∧ b ≤ 0xEF := ⟨Nat.lt_of_le_of_ne low (Ne.symm hfirst), high⟩
  rw [if_neg fun h => hfirst (congrArg UInt8.toNat h),
    if_neg fun h => hlast (congrArg UInt8.toNat h), if_pos hmiddle, if_neg hfirst, if_neg hlast]
  rfl

theorem opened?_four (low : 0xF0 ≤ b.toNat) (high : b.toNat ≤ 0xF4) :
    opened? b = some ⟨b.toNat - 0xF0,
      (if b.toNat = 0xF0 then 0x90 else 0x80, if b.toNat = 0xF4 then 0x8F else 0xBF),
      [continuing, continuing]⟩ := by
  have hbelow : ∀ {n : UInt8}, n.toNat < 0xF0 → ¬b ≤ n := fun {n} hn h => by
    have hle : b.toNat ≤ n.toNat := h
    omega
  have hother : ∀ {n : UInt8}, n.toNat < 0xF0 → ¬b = n := fun hn h =>
    hbelow hn (h ▸ UInt8.le_refl _)
  rw [opened?, if_neg fun h => hbelow (by decide) h.2, if_neg (hother (by decide)),
    if_neg (hother (by decide)), if_neg fun h => hbelow (by decide) h.2]
  by_cases hfirst : b.toNat = 0xF0
  · obtain rfl : b = 0xF0 := UInt8.toNat_inj.1 hfirst
    rfl
  by_cases hlast : b.toNat = 0xF4
  · obtain rfl : b = 0xF4 := UInt8.toNat_inj.1 hlast
    rfl
  have hmiddle : 0xF1 ≤ b ∧ b ≤ 0xF3 :=
    ⟨Nat.lt_of_le_of_ne low (Ne.symm hfirst), Nat.le_of_lt_succ (Nat.lt_of_le_of_ne high hlast)⟩
  rw [if_neg fun h => hfirst (congrArg UInt8.toNat h), if_pos hmiddle, if_neg hfirst, if_neg hlast]
  rfl

end

/-! ### Characters -/

theorem toNat_ofNat_of_lt {n : Nat} (byte : n < 256) : (UInt8.ofNat n).toNat = n := by
  rw [UInt8.toNat_ofNat', Nat.mod_eq_of_lt byte]

section

variable {n : Nat} (rest : Bytes)

theorem repairFrom_one (high : n ≤ 0x7F) :
    repairFrom none (UInt8.ofNat n :: rest) = Char.ofNat n :: repairFrom none rest := by
  have hbyte : (UInt8.ofNat n).toNat = n := toNat_ofNat_of_lt (by omega)
  have hwhole : UInt8.ofNat n < 0x80 := by
    show (UInt8.ofNat n).toNat < 0x80
    omega
  simp only [repairFrom, read, start, if_pos hwhole, hbyte]
  rfl

theorem repairFrom_two (low : 0x80 ≤ n) (high : n ≤ 0x7FF) :
    repairFrom none (UInt8.ofNat (n / 64 % 32 + 192) :: UInt8.ofNat (n % 64 + 128) :: rest) =
      Char.ofNat n :: repairFrom none rest := by
  have hlead : (UInt8.ofNat (n / 64 % 32 + 192)).toNat = n / 64 + 192 := by
    rw [toNat_ofNat_of_lt (by omega)]
    omega
  have hlast : (UInt8.ofNat (n % 64 + 128)).toNat = n % 64 + 128 := toNat_ofNat_of_lt (by omega)
  rw [repairFrom_open (by omega) (opened?_two (by omega) (by omega)),
    repairFrom_complete (le_continuing (by omega)) (continuing_le (by omega)), hlead, hlast]
  have hbits : (n / 64 + 192 - 0xC0) * 64 + (n % 64 + 128 - 0x80) = n := by omega
  rw [hbits]

theorem repairFrom_three (low : 0x800 ≤ n) (high : n ≤ 0xFFFF)
    (valid : n < 0xD800 ∨ 0xDFFF < n) :
    repairFrom none (UInt8.ofNat (n / 4096 % 16 + 224) :: UInt8.ofNat (n / 64 % 64 + 128) ::
        UInt8.ofNat (n % 64 + 128) :: rest) =
      Char.ofNat n :: repairFrom none rest := by
  have hlead : (UInt8.ofNat (n / 4096 % 16 + 224)).toNat = n / 4096 + 224 := by
    rw [toNat_ofNat_of_lt (by omega)]
    omega
  have hmiddle : (UInt8.ofNat (n / 64 % 64 + 128)).toNat = n / 64 % 64 + 128 :=
    toNat_ofNat_of_lt (by omega)
  have hlast : (UInt8.ofNat (n % 64 + 128)).toNat = n % 64 + 128 := toNat_ofNat_of_lt (by omega)
  rw [repairFrom_open (by omega) (opened?_three (by omega) (by omega)), repairFrom_continue,
    repairFrom_complete (le_continuing (by omega)) (continuing_le (by omega)), hlead, hmiddle,
    hlast]
  · have hbits : ((n / 4096 + 224 - 0xE0) * 64 + (n / 64 % 64 + 128 - 0x80)) * 64 +
        (n % 64 + 128 - 0x80) = n := by omega
    rw [hbits]
  · -- what lies below is an overlong form
    dsimp only
    split
    next => exact show 0xA0 ≤ _ by omega
    next => exact show 0x80 ≤ _ by omega
  · -- what lies above is a surrogate
    dsimp only
    split
    next => exact show _ ≤ 0x9F by omega
    next => exact show _ ≤ 0xBF by omega

theorem repairFrom_four (low : 0x10000 ≤ n) (high : n < 0x110000) :
    repairFrom none (UInt8.ofNat (n / 262144 % 8 + 240) :: UInt8.ofNat (n / 4096 % 64 + 128) ::
        UInt8.ofNat (n / 64 % 64 + 128) :: UInt8.ofNat (n % 64 + 128) :: rest) =
      Char.ofNat n :: repairFrom none rest := by
  have hlead : (UInt8.ofNat (n / 262144 % 8 + 240)).toNat = n / 262144 + 240 := by
    rw [toNat_ofNat_of_lt (by omega)]
    omega
  have hsecond : (UInt8.ofNat (n / 4096 % 64 + 128)).toNat = n / 4096 % 64 + 128 :=
    toNat_ofNat_of_lt (by omega)
  have hthird : (UInt8.ofNat (n / 64 % 64 + 128)).toNat = n / 64 % 64 + 128 :=
    toNat_ofNat_of_lt (by omega)
  have hlast : (UInt8.ofNat (n % 64 + 128)).toNat = n % 64 + 128 := toNat_ofNat_of_lt (by omega)
  rw [repairFrom_open (by omega) (opened?_four (by omega) (by omega)), repairFrom_continue,
    repairFrom_continue (le_continuing (by omega)) (continuing_le (by omega)),
    repairFrom_complete (le_continuing (by omega)) (continuing_le (by omega)), hlead, hsecond,
    hthird, hlast]
  · have hbits : (((n / 262144 + 240 - 0xF0) * 64 + (n / 4096 % 64 + 128 - 0x80)) * 64 +
        (n / 64 % 64 + 128 - 0x80)) * 64 + (n % 64 + 128 - 0x80) = n := by omega
    rw [hbits]
  · -- what lies below is an overlong form
    dsimp only
    split
    next => exact show 0x90 ≤ _ by omega
    next => exact show 0x80 ≤ _ by omega
  · -- what lies above is past the last code point
    dsimp only
    split
    next => exact show _ ≤ 0x8F by omega
    next => exact show _ ≤ 0xBF by omega

end

/-- The bytes of a character are read as that character. -/
theorem repairFrom_encodeChar (c : Char) (rest : Bytes) :
    repairFrom none (String.utf8EncodeChar c ++ rest) = c :: repairFrom none rest := by
  have hvalid : c.toNat < 0xD800 ∨ 0xDFFF < c.toNat ∧ c.toNat < 0x110000 := c.valid
  have hchar : Char.ofNat c.val.toNat = c := Char.ofNat_toNat c
  change c.val.toNat < _ ∨ _ < c.val.toNat ∧ c.val.toNat < _ at hvalid
  nth_rewrite 2 [← hchar]
  unfold String.utf8EncodeChar
  dsimp only
  split
  next hone => exact repairFrom_one rest hone
  next hone =>
    split
    next htwo => exact repairFrom_two rest (by omega) htwo
    next htwo =>
      split
      next hthree => exact repairFrom_three rest (by omega) hthree (by omega)
      next hthree => exact repairFrom_four rest (by omega) (by omega)

theorem repairFrom_encode (chars : List Char) :
    repairFrom none (chars.flatMap String.utf8EncodeChar) = chars := by
  induction chars with
  | nil => rfl
  | cons c chars ih => rw [List.flatMap_cons, repairFrom_encodeChar, ih]

theorem encode_eq (text : String) : encode text = text.toList.flatMap String.utf8EncodeChar := by
  have hbytes : text.toUTF8 = text.toList.utf8Encode := String.utf8Encode_toList.symm
  rw [encode, hbytes, List.utf8Encode, List.toList_data_toByteArray]

/-- Reading the bytes of a text gives the text back. -/
theorem repair_encode (text : String) : repair (encode text) = text := by
  rw [repair, encode_eq, repairFrom_encode, String.ofList_toList]

/-! ### Back to the bytes -/

/-- A byte that lies in its range. -/
def Within (range : UInt8 × UInt8) (b : UInt8) : Prop :=
  range.1.toNat ≤ b.toNat ∧ b.toNat ≤ range.2.toNat

/-- Where reading on in an open character puts in no replacement, the bytes that it was still to
have are there. -/
theorem repairFrom_opened {bits : Nat} {range : UInt8 × UInt8} {later : List (UInt8 × UInt8)}
    {bs : Bytes} (spelled : replacement ∉ repairFrom (some ⟨bits, range, later⟩) bs) :
    ∃ bytes rest, bs = bytes ++ rest ∧ List.Forall₂ Within (range :: later) bytes ∧
      repairFrom (some ⟨bits, range, later⟩) bs =
        Char.ofNat (bytes.foldl (fun bits b => bits * 64 + (b.toNat - 0x80)) bits) ::
          repairFrom none rest := by
  induction later generalizing bits range bs with
  | nil =>
    cases bs with
    | nil => simp [repairFrom] at spelled
    | cons b rest =>
      by_cases hinside : Within range b
      · exact ⟨[b], rest, rfl, .cons hinside .nil, repairFrom_complete hinside.1 hinside.2 rest⟩
      · have hread : ¬(range.1 ≤ b ∧ b ≤ range.2) := hinside
        simp [repairFrom, read, hread] at spelled
  | cons next later ih =>
    cases bs with
    | nil => simp [repairFrom] at spelled
    | cons b rest =>
      by_cases hinside : Within range b
      · rw [repairFrom_continue hinside.1 hinside.2] at spelled ⊢
        obtain ⟨bytes, rest', rfl, hbytes, hread⟩ := ih spelled
        refine ⟨b :: bytes, rest', rfl, .cons hinside hbytes, ?_⟩
        rw [hread, List.foldl_cons]
      · have hread : ¬(range.1 ≤ b ∧ b ≤ range.2) := hinside
        simp [repairFrom, read, hread] at spelled

section

variable {n : Nat} {b c d e : UInt8}

theorem toNat_ofNat_of_valid (valid : n < 0xD800 ∨ 0xDFFF < n ∧ n < 0x110000) :
    (Char.ofNat n).val.toNat = n := by
  have hvalid : n.isValidChar := valid
  rw [Char.ofNat, dif_pos hvalid]
  rfl

theorem ofNat_eq (h : n = b.toNat) : UInt8.ofNat n = b := by
  rw [h, UInt8.ofNat_toNat]

theorem ite_toNat_le {p : Prop} [Decidable p]
    (h : (if p then b else c).toNat ≤ d.toNat) :
    (p → b.toNat ≤ d.toNat) ∧ (¬p → c.toNat ≤ d.toNat) :=
  ⟨fun hp => by rwa [if_pos hp] at h, fun hp => by rwa [if_neg hp] at h⟩

theorem le_ite_toNat {p : Prop} [Decidable p]
    (h : d.toNat ≤ (if p then b else c).toNat) :
    (p → d.toNat ≤ b.toNat) ∧ (¬p → d.toNat ≤ c.toNat) :=
  ⟨fun hp => by rwa [if_pos hp] at h, fun hp => by rwa [if_neg hp] at h⟩

theorem encodeChar_one (high : b.toNat < 0x80) :
    String.utf8EncodeChar (Char.ofNat b.toNat) = [b] := by
  have hone : b.toNat ≤ 0x7F := by omega
  unfold String.utf8EncodeChar
  rw [toNat_ofNat_of_valid (by omega)]
  simp only [if_pos hone, UInt8.ofNat_toNat]

theorem encodeChar_two (hn : n = (b.toNat - 0xC0) * 64 + (c.toNat - 0x80))
    (first : 0xC2 ≤ b.toNat ∧ b.toNat ≤ 0xDF) (second : Within continuing c) :
    String.utf8EncodeChar (Char.ofNat n) = [b, c] := by
  have hsecond : 0x80 ≤ c.toNat ∧ c.toNat ≤ 0xBF := second
  have hone : ¬n ≤ 0x7F := by omega
  have htwo : n ≤ 0x7FF := by omega
  unfold String.utf8EncodeChar
  rw [toNat_ofNat_of_valid (by omega)]
  simp only [if_neg hone, if_pos htwo]
  rw [ofNat_eq (b := b) (by omega), ofNat_eq (b := c) (by omega)]

theorem encodeChar_three
    (hn : n = ((b.toNat - 0xE0) * 64 + (c.toNat - 0x80)) * 64 + (d.toNat - 0x80))
    (first : 0xE0 ≤ b.toNat ∧ b.toNat ≤ 0xEF)
    (second : Within
      (if b.toNat = 0xE0 then 0xA0 else 0x80, if b.toNat = 0xED then 0x9F else 0xBF) c)
    (third : Within continuing d) : String.utf8EncodeChar (Char.ofNat n) = [b, c, d] := by
  have hlow : (b.toNat = 0xE0 → 0xA0 ≤ c.toNat) ∧ (b.toNat ≠ 0xE0 → 0x80 ≤ c.toNat) :=
    ite_toNat_le second.1
  have hhigh : (b.toNat = 0xED → c.toNat ≤ 0x9F) ∧ (b.toNat ≠ 0xED → c.toNat ≤ 0xBF) :=
    le_ite_toNat second.2
  have hthird : 0x80 ≤ d.toNat ∧ d.toNat ≤ 0xBF := third
  have hlong : 0x800 ≤ n := by omega
  have hvalid : n < 0xD800 ∨ 0xDFFF < n ∧ n < 0x110000 := by omega
  have hone : ¬n ≤ 0x7F := by omega
  have htwo : ¬n ≤ 0x7FF := by omega
  have hthree : n ≤ 0xFFFF := by omega
  unfold String.utf8EncodeChar
  rw [toNat_ofNat_of_valid hvalid]
  simp only [if_neg hone, if_neg htwo, if_pos hthree]
  rw [ofNat_eq (b := b) (by omega), ofNat_eq (b := c) (by omega), ofNat_eq (b := d) (by omega)]

theorem encodeChar_four
    (hn : n = (((b.toNat - 0xF0) * 64 + (c.toNat - 0x80)) * 64 + (d.toNat - 0x80)) * 64 +
      (e.toNat - 0x80))
    (first : 0xF0 ≤ b.toNat ∧ b.toNat ≤ 0xF4)
    (second : Within
      (if b.toNat = 0xF0 then 0x90 else 0x80, if b.toNat = 0xF4 then 0x8F else 0xBF) c)
    (third : Within continuing d) (fourth : Within continuing e) :
    String.utf8EncodeChar (Char.ofNat n) = [b, c, d, e] := by
  have hlow : (b.toNat = 0xF0 → 0x90 ≤ c.toNat) ∧ (b.toNat ≠ 0xF0 → 0x80 ≤ c.toNat) :=
    ite_toNat_le second.1
  have hhigh : (b.toNat = 0xF4 → c.toNat ≤ 0x8F) ∧ (b.toNat ≠ 0xF4 → c.toNat ≤ 0xBF) :=
    le_ite_toNat second.2
  have hthird : 0x80 ≤ d.toNat ∧ d.toNat ≤ 0xBF := third
  have hfourth : 0x80 ≤ e.toNat ∧ e.toNat ≤ 0xBF := fourth
  have hlong : 0x10000 ≤ n := by omega
  have hvalid : n < 0xD800 ∨ 0xDFFF < n ∧ n < 0x110000 := by omega
  have hone : ¬n ≤ 0x7F := by omega
  have htwo : ¬n ≤ 0x7FF := by omega
  have hthree : ¬n ≤ 0xFFFF := by omega
  unfold String.utf8EncodeChar
  rw [toNat_ofNat_of_valid hvalid]
  simp only [if_neg hone, if_neg htwo, if_neg hthree]
  rw [ofNat_eq (b := b) (by omega), ofNat_eq (b := c) (by omega), ofNat_eq (b := d) (by omega),
    ofNat_eq (b := e) (by omega)]

end

theorem opened?_cases {b : UInt8} {opened : Opened} (h : opened? b = some opened) :
    (0xC2 ≤ b.toNat ∧ b.toNat ≤ 0xDF) ∨ (0xE0 ≤ b.toNat ∧ b.toNat ≤ 0xEF) ∨
      (0xF0 ≤ b.toNat ∧ b.toNat ≤ 0xF4) := by
  unfold opened? at h
  split at h
  next htwo => exact .inl htwo
  split at h
  next hfirst =>
    subst hfirst
    decide
  split at h
  next hlast =>
    subst hlast
    decide
  split at h
  next hthree =>
    have hlow : 0xE1 ≤ b.toNat := hthree.1
    exact .inr (.inl ⟨by omega, hthree.2⟩)
  split at h
  next hfirst =>
    subst hfirst
    decide
  split at h
  next hfour =>
    have hlow : 0xF1 ≤ b.toNat := hfour.1
    have hhigh : b.toNat ≤ 0xF3 := hfour.2
    exact .inr (.inr ⟨by omega, by omega⟩)
  split at h
  next hlast =>
    subst hlast
    decide
  next => cases h

/-- A first byte and the bytes that complete it are the bytes of the character they are read as. -/
theorem encodeChar_opened {b : UInt8} {bits : Nat} {range : UInt8 × UInt8}
    {later : List (UInt8 × UInt8)} {bytes : Bytes} (opens : opened? b = some ⟨bits, range, later⟩)
    (complete : List.Forall₂ Within (range :: later) bytes) :
    String.utf8EncodeChar
      (Char.ofNat (bytes.foldl (fun bits b => bits * 64 + (b.toNat - 0x80)) bits)) =
        b :: bytes := by
  rcases opened?_cases opens with hfirst | hfirst | hfirst
  · rw [opened?_two hfirst.1 hfirst.2] at opens
    obtain ⟨rfl, rfl, rfl⟩ := Opened.mk.inj (Option.some.inj opens)
    obtain _ | ⟨hsecond, _ | _⟩ := complete
    simp only [List.foldl_cons, List.foldl_nil]
    exact encodeChar_two rfl hfirst hsecond
  · rw [opened?_three hfirst.1 hfirst.2] at opens
    obtain ⟨rfl, rfl, rfl⟩ := Opened.mk.inj (Option.some.inj opens)
    obtain _ | ⟨hsecond, _ | ⟨hthird, _ | _⟩⟩ := complete
    simp only [List.foldl_cons, List.foldl_nil]
    exact encodeChar_three rfl hfirst hsecond hthird
  · rw [opened?_four hfirst.1 hfirst.2] at opens
    obtain ⟨rfl, rfl, rfl⟩ := Opened.mk.inj (Option.some.inj opens)
    obtain _ | ⟨hsecond, _ | ⟨hthird, _ | ⟨hfourth, _ | _⟩⟩⟩ := complete
    simp only [List.foldl_cons, List.foldl_nil]
    exact encodeChar_four rfl hfirst hsecond hthird hfourth

/-- Bytes that are read without a replacement are the bytes of what they are read as. -/
theorem encode_repairFrom {bs : Bytes} (spelled : replacement ∉ repairFrom none bs) :
    (repairFrom none bs).flatMap String.utf8EncodeChar = bs := by
  induction hlength : bs.length using Nat.strong_induction_on generalizing bs with
  | _ length ih =>
    cases bs with
    | nil => rfl
    | cons b rest =>
      by_cases hwhole : b.toNat < 0x80
      · have hread := repairFrom_one rest (n := b.toNat) (by omega)
        rw [UInt8.ofNat_toNat] at hread
        rw [hread] at spelled ⊢
        have hshort : rest.length < length := by
          rw [← hlength]
          exact Nat.lt_succ_self _
        have hrest := ih rest.length hshort (List.not_mem_of_not_mem_cons spelled) rfl
        rw [List.flatMap_cons, hrest, encodeChar_one hwhole]
        rfl
      · cases hopens : opened? b with
        | none =>
          have hlead : ¬b < 0x80 := hwhole
          simp [repairFrom, read, start, hlead, hopens] at spelled
        | some opened =>
          obtain ⟨bits, range, later⟩ := opened
          rw [repairFrom_open (by omega) hopens] at spelled ⊢
          obtain ⟨bytes, rest', rfl, hcomplete, hread⟩ := repairFrom_opened spelled
          rw [hread] at spelled ⊢
          have hshort : rest'.length < length := by
            rw [← hlength, List.length_cons, List.length_append]
            omega
          have hrest := ih rest'.length hshort (List.not_mem_of_not_mem_cons spelled) rfl
          rw [List.flatMap_cons, hrest, encodeChar_opened hopens hcomplete]
          rfl

/-- Bytes whose text has no replacement character are the bytes of that text. -/
theorem encode_repair {bs : Bytes} (spelled : replacement ∉ (repair bs).toList) :
    encode (repair bs) = bs := by
  rw [repair, String.toList_ofList] at spelled
  rw [encode_eq, repair, String.toList_ofList, encode_repairFrom spelled]

end JobBroker.Utf8
