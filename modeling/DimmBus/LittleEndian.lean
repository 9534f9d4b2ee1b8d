/-!
# Little-endian bytes

A number as its bytes, least significant first, and the two halves of a 16-bit word.
-/

namespace DimmBus.LittleEndian

/-- The lowest `count` bytes of `n`, least significant first. -/
def toBytes : (count n : Nat) → List UInt8
  | 0, _ => []
  | count + 1, n => UInt8.ofNat n :: toBytes count (n / 256)

/-- The number whose bytes are listed, least significant first. -/
def ofBytes : List UInt8 → Nat
  | [] => 0
  | b :: bs => b.toNat + 256 * ofBytes bs

/-- How many numbers have so many bytes. -/
def bound : (count : Nat) → Nat
  | 0 => 1
  | count + 1 => 256 * bound count

/-- One byte of a number. -/
def digit (n i : Nat) : UInt8 := UInt8.ofNat (n >>> (8 * i))

theorem length_toBytes (count n : Nat) : (toBytes count n).length = count := by
  induction count generalizing n with
  | zero => rfl
  | succ count ih => simp [toBytes, ih]

theorem ofBytes_toBytes (count n : Nat) : ofBytes (toBytes count n) = n % bound count := by
  induction count generalizing n with
  | zero => simp [toBytes, ofBytes, bound, Nat.mod_one]
  | succ count ih =>
    have h : (UInt8.ofNat n).toNat = n % 256 := by simp
    rw [toBytes, ofBytes, ih, h, bound, Nat.mod_mul]

theorem ofBytes_lt (bs : List UInt8) : ofBytes bs < bound bs.length := by
  induction bs with
  | nil => decide
  | cons b bs ih =>
    have hb : b.toNat < 256 := b.toNat_lt
    rw [ofBytes, List.length_cons, bound]
    omega

/-- Each byte can be cut out of the number. -/
theorem digit_ofBytes (bs : List UInt8) (i : Nat) :
    digit (ofBytes bs) i = bs.getD i 0 := by
  induction bs generalizing i with
  | nil => simp [digit, ofBytes]
  | cons b bs ih =>
    have hb : b.toNat < 256 := b.toNat_lt
    cases i with
    | zero =>
      apply UInt8.toNat_inj.mp
      simp only [digit, ofBytes, Nat.mul_zero, Nat.shiftRight_zero, UInt8.toNat_ofNat',
        List.getD_cons_zero]
      omega
    | succ i =>
      have hd : (b.toNat + 256 * ofBytes bs) >>> 8 = ofBytes bs := by
        rw [Nat.shiftRight_eq_div_pow]
        omega
      have hi : 8 * (i + 1) = 8 + 8 * i := by omega
      rw [digit, ofBytes, hi, Nat.shiftRight_add, hd, List.getD_cons_succ, ← ih]
      rfl

/-- The low byte of a word. -/
def low (w : UInt16) : UInt8 := UInt8.ofNat w.toNat

/-- The high byte of a word. -/
def high (w : UInt16) : UInt8 := UInt8.ofNat (w.toNat / 256)

/-- The word with these two halves. -/
def word (lo hi : UInt8) : UInt16 := UInt16.ofNat (lo.toNat + 256 * hi.toNat)

/-- The word with its halves exchanged. -/
def swap (w : UInt16) : UInt16 := word (high w) (low w)

theorem low_word (lo hi : UInt8) : low (word lo hi) = lo := by
  have := lo.toNat_lt
  have := hi.toNat_lt
  apply UInt8.toNat_inj.mp
  simp only [low, word, UInt16.toNat_ofNat', UInt8.toNat_ofNat']
  omega

theorem high_word (lo hi : UInt8) : high (word lo hi) = hi := by
  have := lo.toNat_lt
  have := hi.toNat_lt
  apply UInt8.toNat_inj.mp
  simp only [high, word, UInt16.toNat_ofNat', UInt8.toNat_ofNat']
  omega

theorem word_low_high (w : UInt16) : word (low w) (high w) = w := by
  have := w.toNat_lt
  apply UInt16.toNat_inj.mp
  simp only [high, low, word, UInt16.toNat_ofNat', UInt8.toNat_ofNat']
  omega

theorem swap_swap (w : UInt16) : swap (swap w) = w := by
  rw [swap, swap, high_word, low_word, word_low_high]

end DimmBus.LittleEndian
