/-!
# Words as little-endian bytes

A number written in a fixed count of bytes, least significant byte first, and the number that
such bytes stand for. Reading undoes writing up to the width (`value_word`), and writing undoes
reading exactly (`word_value`), so a word of `n` bytes is the same thing as `n` bytes.
-/

namespace JobBroker

/-- A string of bytes, as it lies in a frame or a buffer. -/
abbrev Bytes := List UInt8

namespace Bytes

/-- The `count` least significant bytes of a number, lowest first; higher bytes are dropped. -/
def word : Nat → Nat → Bytes
  | 0, _ => []
  | count + 1, n => UInt8.ofNat n :: word count (n / 256)

def value : Bytes → Nat
  | [] => 0
  | b :: rest => b.toNat + 256 * value rest

def wordHighFirst (count n : Nat) : Bytes := (word count n).reverse

/-- The least number that does not fit in `count` bytes. -/
def bound : Nat → Nat
  | 0 => 1
  | count + 1 => 256 * bound count

@[simp] theorem length_word (count n : Nat) : (word count n).length = count := by
  induction count generalizing n with
  | zero => rfl
  | succ count ih => simp [word, ih]

theorem value_lt (bs : Bytes) : value bs < bound bs.length := by
  induction bs with
  | nil => simp [value, bound]
  | cons b rest ih =>
    have hb : b.toNat < 256 := b.toNat_lt
    simp only [value, List.length_cons, bound]
    omega

theorem value_word (count n : Nat) : value (word count n) = n % bound count := by
  induction count generalizing n with
  | zero => simp [word, value, bound, Nat.mod_one]
  | succ count ih =>
    have hb : (UInt8.ofNat n).toNat = n % 256 := UInt8.toNat_ofNat'
    rw [word, value, ih, hb, bound, Nat.mod_mul]

theorem value_word_of_lt {count n : Nat} (h : n < bound count) : value (word count n) = n := by
  rw [value_word, Nat.mod_eq_of_lt h]

theorem word_value (bs : Bytes) : word bs.length (value bs) = bs := by
  induction bs with
  | nil => rfl
  | cons b rest ih =>
    have hb : b.toNat < 256 := b.toNat_lt
    have hlow : UInt8.ofNat (b.toNat + 256 * value rest) = b := by
      apply UInt8.toNat_inj.1
      rw [UInt8.toNat_ofNat']
      omega
    have hhigh : (b.toNat + 256 * value rest) / 256 = value rest := by omega
    rw [List.length_cons, value, word, hlow, hhigh, ih]

end Bytes

end JobBroker
