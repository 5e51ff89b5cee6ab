import Mathlib.Tactic.Ring

/- Unsigned integers as byte strings of a fixed width, in either byte order.
   Values are Nat; a value of width w is one below 256 ^ w. -/
namespace FixedBytes

def natLE : List UInt8 → Nat
  | [] => 0
  | b :: bs => b.toNat + 256 * natLE bs

def bytesLE : Nat → Nat → List UInt8
  | 0, _ => []
  | width + 1, value => UInt8.ofNat value :: bytesLE width (value / 256)

def natBE (bytes : List UInt8) : Nat := natLE bytes.reverse
def bytesBE (width value : Nat) : List UInt8 := (bytesLE width value).reverse

/-- The value whose object representation is the argument's, reversed. -/
def byteswap (width value : Nat) : Nat := natLE (bytesBE width value)

@[simp] theorem bytesLE_length (width value : Nat) : (bytesLE width value).length = width := by
  induction width generalizing value with
  | zero => rfl
  | succ width ih => simp [bytesLE, ih]

@[simp] theorem bytesBE_length (width value : Nat) : (bytesBE width value).length = width := by
  simp [bytesBE]

theorem natLE_lt (bytes : List UInt8) : natLE bytes < 256 ^ bytes.length := by
  induction bytes with
  | nil => simp [natLE]
  | cons b bs ih =>
    have digit := b.toNat_lt
    simp only [natLE, List.length_cons, Nat.pow_succ]
    omega

theorem natBE_lt (bytes : List UInt8) : natBE bytes < 256 ^ bytes.length := by
  simpa [natBE] using natLE_lt bytes.reverse

theorem natLE_bytesLE (width value : Nat) (bound : value < 256 ^ width) :
    natLE (bytesLE width value) = value := by
  induction width generalizing value with
  | zero => simp at bound; simp [bytesLE, natLE, bound]
  | succ width ih =>
    have high : value / 256 < 256 ^ width := by
      rw [Nat.pow_succ] at bound
      exact Nat.div_lt_of_lt_mul (by omega)
    simp only [bytesLE, natLE, ih _ high, UInt8.toNat_ofNat']
    omega

theorem natBE_bytesBE (width value : Nat) (bound : value < 256 ^ width) :
    natBE (bytesBE width value) = value := by
  simp [natBE, bytesBE, natLE_bytesLE width value bound]

theorem bytesLE_natLE (bytes : List UInt8) : bytesLE bytes.length (natLE bytes) = bytes := by
  induction bytes with
  | nil => rfl
  | cons b bs ih =>
    have digit := b.toNat_lt
    have high : (b.toNat + 256 * natLE bs) / 256 = natLE bs := by omega
    have low : UInt8.ofNat (b.toNat + 256 * natLE bs) = b := by
      apply UInt8.toNat_inj.mp
      rw [UInt8.toNat_ofNat']
      omega
    simp only [List.length_cons, natLE, bytesLE, high, low, ih]

theorem bytesBE_natBE (bytes : List UInt8) : bytesBE bytes.length (natBE bytes) = bytes := by
  have reversed := bytesLE_natLE bytes.reverse
  simp only [List.length_reverse] at reversed
  simp [bytesBE, natBE, reversed]

theorem byteswap_natLE (bytes : List UInt8) :
    byteswap bytes.length (natLE bytes) = natBE bytes := by
  simp [byteswap, bytesBE, natBE, bytesLE_natLE]

theorem byteswap_natBE (bytes : List UInt8) :
    byteswap bytes.length (natBE bytes) = natLE bytes := by
  rw [byteswap, bytesBE_natBE]

theorem bytesLE_byteswap (width value : Nat) :
    bytesLE width (byteswap width value) = bytesBE width value := by
  have stored := bytesLE_natLE (bytesBE width value)
  rwa [bytesBE_length] at stored

theorem natLE_append (low high : List UInt8) :
    natLE (low ++ high) = natLE low + 256 ^ low.length * natLE high := by
  induction low with
  | nil => simp [natLE]
  | cons b bs ih =>
    simp only [List.cons_append, natLE, ih, List.length_cons, Nat.pow_succ]
    ring

theorem natBE_append (high low : List UInt8) :
    natBE (high ++ low) = 256 ^ low.length * natBE high + natBE low := by
  rw [natBE, List.reverse_append, natLE_append, List.length_reverse, Nat.add_comm]
  rfl

theorem natLE_drop (count : Nat) (bytes : List UInt8) :
    natLE (bytes.drop count) = natLE bytes / 256 ^ count := by
  induction count generalizing bytes with
  | zero => simp
  | succ count ih =>
    cases bytes with
    | nil => simp [natLE]
    | cons b bs =>
      have digit := b.toNat_lt
      have high : (b.toNat + 256 * natLE bs) / 256 = natLE bs := by omega
      rw [List.drop_succ_cons, ih, natLE, Nat.pow_succ', ← Nat.div_div_eq_div_mul, high]

theorem natLE_inj {xs ys : List UInt8} (same : xs.length = ys.length)
    (equal : natLE xs = natLE ys) : xs = ys := by
  rw [← bytesLE_natLE xs, ← bytesLE_natLE ys, same, equal]

theorem natBE_inj {xs ys : List UInt8} (same : xs.length = ys.length)
    (equal : natBE xs = natBE ys) : xs = ys :=
  List.reverse_inj.mp (natLE_inj (by simpa using same) equal)

theorem natBE_zero_iff (bytes : List UInt8) :
    natBE bytes = 0 ↔ bytes = List.replicate bytes.length 0 := by
  have zeros : ∀ count, natBE (List.replicate count 0) = 0 := by
    intro count
    rw [natBE, List.reverse_replicate]
    induction count with
    | zero => rfl
    | succ count ih => simp [List.replicate_succ, natLE, ih]
  constructor
  · intro zero
    exact natBE_inj (by simp) (zero.trans (zeros _).symm)
  · intro empty
    rw [empty]
    exact zeros _

/-- The low bytes of a value read in the other order give the value, exactly if nothing is
    lost with the high bytes and the low ones read alike in both orders. -/
theorem natLE_low_iff (high low : List UInt8) :
    natLE low = natBE (high ++ low) ↔
      high = List.replicate high.length 0 ∧ low.reverse = low := by
  rw [natBE_append, ← natBE_zero_iff]
  constructor
  · intro equal
    have bound := natLE_lt low
    have zero : natBE high = 0 := by
      by_contra positive
      have := Nat.le_mul_of_pos_right (256 ^ low.length) (Nat.pos_of_ne_zero positive)
      omega
    rw [zero, Nat.mul_zero, Nat.zero_add] at equal
    exact ⟨zero, natLE_inj List.length_reverse equal.symm⟩
  · rintro ⟨zero, alike⟩
    rw [zero, Nat.mul_zero, Nat.zero_add, natBE, alike]

end FixedBytes
