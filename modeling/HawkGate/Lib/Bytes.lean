-- SUMMARY: Little-endian words in a byte buffer, byte-order swaps, and what a store leaves readable.
import Mathlib.Data.List.Basic
import Mathlib.Tactic.Linarith

/-!
# Bytes

A buffer is a list of bytes. Loads read little-endian words, the way an x86
host sees memory; a load past the end reads zeros, so callers check bounds
first. `swap16` and `swap32` convert between host and network order.
-/

abbrev Bytes := List UInt8

namespace Bytes

def load8 (d : Bytes) (off : Nat) : UInt8 := d.getD off 0

def load16 (d : Bytes) (off : Nat) : UInt16 :=
  UInt16.ofNat ((load8 d off).toNat + 256 * (load8 d (off + 1)).toNat)

def load32 (d : Bytes) (off : Nat) : UInt32 :=
  UInt32.ofNat ((load16 d off).toNat + 65536 * (load16 d (off + 2)).toNat)

/-- Overwrite the bytes from `off` on with `bs`; bytes past the end are dropped. -/
def store (d : Bytes) (off : Nat) : Bytes → Bytes
  | [] => d
  | b :: bs => store (d.set off b) (off + 1) bs

/-- The bytes of a word as they lie in memory. -/
def ofU16 (x : UInt16) : Bytes :=
  [UInt8.ofNat (x.toNat % 256), UInt8.ofNat (x.toNat / 256)]

/-- The bytes of a double word as they lie in memory. -/
def ofU32 (x : UInt32) : Bytes :=
  [UInt8.ofNat (x.toNat % 256), UInt8.ofNat (x.toNat / 256 % 256),
    UInt8.ofNat (x.toNat / 65536 % 256), UInt8.ofNat (x.toNat / 16777216)]

/-- The 32-bit word whose bytes lie in memory as `a b c d`. -/
def addrOfOctets (a b c d : UInt8) : UInt32 :=
  UInt32.ofNat (a.toNat + 256 * b.toNat + 65536 * c.toNat + 16777216 * d.toNat)

/-- `ntohs` and `htons` on a little-endian host. -/
def swap16 (x : UInt16) : UInt16 :=
  UInt16.ofNat (x.toNat % 256 * 256 + x.toNat / 256)

/-- `ntohl` and `htonl` on a little-endian host. -/
def swap32 (x : UInt32) : UInt32 :=
  UInt32.ofNat (x.toNat % 256 * 16777216 + x.toNat / 256 % 256 * 65536 +
    x.toNat / 65536 % 256 * 256 + x.toNat / 16777216)

/-! ## Byte order -/

theorem toNat_swap16 (x : UInt16) : (swap16 x).toNat = x.toNat % 256 * 256 + x.toNat / 256 := by
  have hx := x.toNat_lt
  rw [swap16, UInt16.toNat_ofNat_of_lt' (by simp only [UInt16.size]; omega)]

@[simp] theorem swap16_swap16 (x : UInt16) : swap16 (swap16 x) = x := by
  have hx := x.toNat_lt
  apply UInt16.toNat.inj
  rw [toNat_swap16, toNat_swap16]
  omega

/-- Swapping changes nothing exactly when both bytes are equal. -/
theorem swap16_eq_self_iff (x : UInt16) : swap16 x = x ↔ x.toNat % 256 = x.toNat / 256 := by
  have hx := x.toNat_lt
  rw [← UInt16.toNat_inj, toNat_swap16]
  omega

/-- The lowest byte and the rest of a number. -/
theorem byte_add_div {a m : Nat} (ha : a < 256) : (a + 256 * m) / 256 = m ∧ (a + 256 * m) % 256 = a := by
  omega

/-- A double word as four bytes, and its swap as the same bytes mirrored. -/
theorem exists_bytes_swap32 (x : UInt32) :
    ∃ a b c d, a < 256 ∧ b < 256 ∧ c < 256 ∧ d < 256 ∧
      x.toNat = a + 256 * (b + 256 * (c + 256 * d)) ∧
        (swap32 x).toNat = d + 256 * (c + 256 * (b + 256 * a)) := by
  have hx := x.toNat_lt
  refine ⟨x.toNat % 256, x.toNat / 256 % 256, x.toNat / 65536 % 256, x.toNat / 16777216,
    by omega, by omega, by omega, by omega, by omega, ?_⟩
  rw [swap32, UInt32.toNat_ofNat_of_lt' (by simp only [UInt32.size]; omega)]
  omega

@[simp] theorem swap32_swap32 (x : UInt32) : swap32 (swap32 x) = x := by
  obtain ⟨a, b, c, d, ha, hb, hc, hd, hx, hs⟩ := exists_bytes_swap32 x
  obtain ⟨e, f, g, h, he, hf, hg, hh, hs', hss⟩ := exists_bytes_swap32 (swap32 x)
  have h0 : d = e ∧ c + 256 * (b + 256 * a) = f + 256 * (g + 256 * h) := by omega
  have h1 : c = f ∧ b + 256 * a = g + 256 * h := by omega
  have h2 : b = g ∧ a = h := by omega
  apply UInt32.toNat.inj
  rw [hss, hx, h0.1, h1.1, h2.1, h2.2]

/-- A swap moves each bit to the same place in the mirrored byte. -/
theorem testBit_swap32 (x : UInt32) {i : Nat} (hi : i < 32) :
    (swap32 x).toNat.testBit i = x.toNat.testBit (8 * (3 - i / 8) + i % 8) := by
  obtain ⟨a, b, c, d, ha, hb, hc, hd, hx, hs⟩ := exists_bytes_swap32 x
  have h8 : ∀ y, y / 2 ^ (8 * 1) = y / 256 := fun y => rfl
  have h16 : ∀ y, y / 2 ^ (8 * 2) = y / 256 / 256 := fun y => (Nat.div_div_eq_div_mul y 256 256).symm
  have h24 : ∀ y, y / 2 ^ (8 * 3) = y / 256 / 256 / 256 := fun y => by
    rw [Nat.div_div_eq_div_mul, Nat.div_div_eq_div_mul]
    rfl
  have hbyte : (swap32 x).toNat / 2 ^ (8 * (i / 8)) % 256 =
      x.toNat / 2 ^ (8 * (3 - i / 8)) % 256 := by
    rw [hx, hs]
    have hcases : i / 8 = 0 ∨ i / 8 = 1 ∨ i / 8 = 2 ∨ i / 8 = 3 := by omega
    rcases hcases with h | h | h | h
    · rw [h, h24, (byte_add_div ha).1, (byte_add_div hb).1, (byte_add_div hc).1]
      omega
    · rw [h, h8, h16, (byte_add_div hd).1, (byte_add_div ha).1, (byte_add_div hb).1]
      omega
    · rw [h, h16, h8, (byte_add_div hd).1, (byte_add_div hc).1, (byte_add_div ha).1]
      omega
    · rw [h, h24, (byte_add_div hd).1, (byte_add_div hc).1, (byte_add_div hb).1]
      omega
  have hbit : ∀ y k, Nat.testBit y (8 * k + i % 8) = Nat.testBit (y / 2 ^ (8 * k) % 256) (i % 8) := by
    intro y k
    rw [show (256 : Nat) = 2 ^ 8 from rfl, Nat.testBit_mod_two_pow, Nat.testBit_div_two_pow,
      decide_eq_true (Nat.mod_lt i (by decide)), Bool.true_and, Nat.add_comm]
  rw [hbit x.toNat (3 - i / 8), ← hbyte, ← hbit]
  congr 1
  omega

/-- A swap commutes with the bitwise conjunction. -/
theorem swap32_and (x y : UInt32) : swap32 (x &&& y) = swap32 x &&& swap32 y := by
  apply UInt32.toNat.inj
  rw [UInt32.toNat_and]
  refine Nat.eq_of_testBit_eq fun i => ?_
  rw [Nat.testBit_and]
  by_cases hi : i < 32
  · rw [testBit_swap32 _ hi, testBit_swap32 _ hi, testBit_swap32 _ hi, UInt32.toNat_and,
      Nat.testBit_and]
  · have hlt : ∀ z : UInt32, z.toNat.testBit i = false := fun z =>
      Nat.testBit_lt_two_pow (lt_of_lt_of_le z.toNat_lt (Nat.pow_le_pow_right (by decide) (by omega)))
    rw [hlt, hlt, hlt, Bool.and_self]

/-! ## Loads after stores -/

theorem length_store (d : Bytes) (off : Nat) (bs : Bytes) : (store d off bs).length = d.length := by
  induction bs generalizing d off with
  | nil => rfl
  | cons b bs ih => rw [store, ih, List.length_set]

theorem load8_set_ne (d : Bytes) {off i : Nat} (b : UInt8) (h : i ≠ off) :
    load8 (d.set off b) i = load8 d i := by
  simp only [load8, List.getD_eq_getElem?_getD, List.getElem?_set_ne (Ne.symm h)]

theorem load8_set_self (d : Bytes) {off : Nat} (b : UInt8) (h : off < d.length) :
    load8 (d.set off b) off = b := by
  simp [load8, List.getD_eq_getElem?_getD, h]

/-- A store does not change a byte outside its range. -/
theorem load8_store_outside (d : Bytes) (off : Nat) (bs : Bytes) {i : Nat}
    (h : i < off ∨ off + bs.length ≤ i) : load8 (store d off bs) i = load8 d i := by
  induction bs generalizing d off with
  | nil => rfl
  | cons b bs ih =>
    simp only [List.length_cons] at h
    rw [store, ih (d.set off b) (off + 1) (by omega), load8_set_ne d b (by omega)]

/-- A store within the buffer is read back byte by byte. -/
theorem load8_store_inside (d : Bytes) (off : Nat) (bs : Bytes) {i : Nat}
    (hi : i < bs.length) (hlen : off + bs.length ≤ d.length) :
    load8 (store d off bs) (off + i) = bs.getD i 0 := by
  induction bs generalizing d off i with
  | nil => simp at hi
  | cons b bs ih =>
    simp only [List.length_cons] at hi hlen
    rw [store]
    cases i with
    | zero =>
      rw [load8_store_outside _ _ _ (by omega), Nat.add_zero, load8_set_self d b (by omega)]
      rfl
    | succ i =>
      have h := ih (d.set off b) (off + 1) (i := i) (by omega) (by rw [List.length_set]; omega)
      rw [show off + (i + 1) = off + 1 + i by omega, h]
      rfl

theorem load16_store_outside (d : Bytes) (off : Nat) (bs : Bytes) {i : Nat}
    (h : i + 2 ≤ off ∨ off + bs.length ≤ i) : load16 (store d off bs) i = load16 d i := by
  rw [load16, load16, load8_store_outside _ _ _ (by omega), load8_store_outside _ _ _ (by omega)]

theorem load32_store_outside (d : Bytes) (off : Nat) (bs : Bytes) {i : Nat}
    (h : i + 4 ≤ off ∨ off + bs.length ≤ i) : load32 (store d off bs) i = load32 d i := by
  rw [load32, load32, load16_store_outside _ _ _ (by omega), load16_store_outside _ _ _ (by omega)]

theorem load16_store_self (d : Bytes) (off : Nat) (x : UInt16) (h : off + 2 ≤ d.length) :
    load16 (store d off (ofU16 x)) off = x := by
  have hx := x.toNat_lt
  have hlen : off + (ofU16 x).length ≤ d.length := h
  have h0 := load8_store_inside d off (ofU16 x) (i := 0) (by simp [ofU16]) hlen
  have h1 := load8_store_inside d off (ofU16 x) (i := 1) (by simp [ofU16]) hlen
  rw [Nat.add_zero] at h0
  apply UInt16.toNat.inj
  rw [load16, h0, h1]
  simp only [ofU16, List.getD_cons_zero, List.getD_cons_succ, UInt8.toNat_ofNat', UInt16.toNat_ofNat']
  omega

theorem load32_store_self (d : Bytes) (off : Nat) (x : UInt32) (h : off + 4 ≤ d.length) :
    load32 (store d off (ofU32 x)) off = x := by
  have hx := x.toNat_lt
  have hlen : off + (ofU32 x).length ≤ d.length := h
  have h0 := load8_store_inside d off (ofU32 x) (i := 0) (by simp [ofU32]) hlen
  have h1 := load8_store_inside d off (ofU32 x) (i := 1) (by simp [ofU32]) hlen
  have h2 := load8_store_inside d off (ofU32 x) (i := 2) (by simp [ofU32]) hlen
  have h3 := load8_store_inside d off (ofU32 x) (i := 3) (by simp [ofU32]) hlen
  rw [Nat.add_zero] at h0
  apply UInt32.toNat.inj
  rw [load32, load16, load16, h0, h1, h2, show off + 2 + 1 = off + 3 by omega, h3]
  simp only [ofU32, List.getD_cons_zero, List.getD_cons_succ, UInt8.toNat_ofNat',
    UInt16.toNat_ofNat', UInt32.toNat_ofNat']
  omega

/-! ## Slices -/

/-- The `n` bytes from `off` on. -/
def slice (d : Bytes) (off n : Nat) : Bytes := (d.drop off).take n

theorem length_slice (d : Bytes) {off n : Nat} (h : off + n ≤ d.length) :
    (slice d off n).length = n := by
  rw [slice, List.length_take, List.length_drop]
  omega

theorem load8_slice (d : Bytes) (off : Nat) {n i : Nat} (h : i < n) :
    load8 (slice d off n) i = load8 d (off + i) := by
  simp only [load8, slice, List.getD_eq_getElem?_getD, List.getElem?_take_of_lt h,
    List.getElem?_drop]

theorem load16_slice (d : Bytes) (off : Nat) {n i : Nat} (h : i + 2 ≤ n) :
    load16 (slice d off n) i = load16 d (off + i) := by
  rw [load16, load16, load8_slice d off (by omega), load8_slice d off (by omega), Nat.add_assoc]

theorem load32_slice (d : Bytes) (off : Nat) {n i : Nat} (h : i + 4 ≤ n) :
    load32 (slice d off n) i = load32 d (off + i) := by
  rw [load32, load32, load16_slice d off (by omega), load16_slice d off (by omega), Nat.add_assoc]

theorem take_store (d : Bytes) (off : Nat) (bs : Bytes) (n : Nat) :
    (store d off bs).take n = store (d.take n) off bs := by
  induction bs generalizing d off with
  | nil => rfl
  | cons b bs ih => rw [store, store, ih, List.take_set]

theorem drop_store (d : Bytes) {off k : Nat} (bs : Bytes) (h : k ≤ off) :
    (store d off bs).drop k = store (d.drop k) (off - k) bs := by
  induction bs generalizing d off with
  | nil => rfl
  | cons b bs ih =>
    rw [store, store, ih _ (by omega), List.drop_set, if_neg (by omega), Nat.sub_add_comm h]

/-- A store that begins inside a slice is a store into the slice. -/
theorem slice_store (d : Bytes) {off k : Nat} (bs : Bytes) (n : Nat) (h : k ≤ off) :
    slice (store d off bs) k n = store (slice d k n) (off - k) bs := by
  rw [slice, drop_store d bs h, take_store, slice]

/-- A store that begins behind a buffer changes nothing. -/
theorem store_of_length_le (d : Bytes) {off : Nat} (bs : Bytes) (h : d.length ≤ off) :
    store d off bs = d := by
  induction bs generalizing d off with
  | nil => rfl
  | cons b bs ih =>
    rw [store, List.set_eq_of_length_le h, ih d (by omega)]

/-- A store outside a slice leaves it alone. -/
theorem slice_store_outside (d : Bytes) (off : Nat) (bs : Bytes) {k n : Nat}
    (h : off + bs.length ≤ k ∨ k + n ≤ off) : slice (store d off bs) k n = slice d k n := by
  rcases h with h | h
  · induction bs generalizing d off with
    | nil => rfl
    | cons b bs ih =>
      simp only [List.length_cons] at h
      rw [store, ih _ _ (by omega), slice, List.drop_set_of_lt (by omega), slice]
  · rw [slice_store d bs n (by omega)]
    refine store_of_length_le _ _ ?_
    rw [slice, List.length_take]
    omega

/-! ## Appended bytes -/

theorem load8_append (d p : Bytes) {i : Nat} (h : i < d.length) : load8 (d ++ p) i = load8 d i := by
  simp only [load8, List.getD_eq_getElem?_getD, List.getElem?_append_left h]

theorem load16_append (d p : Bytes) {i : Nat} (h : i + 2 ≤ d.length) :
    load16 (d ++ p) i = load16 d i := by
  rw [load16, load16, load8_append d p (by omega), load8_append d p (by omega)]

theorem load32_append (d p : Bytes) {i : Nat} (h : i + 4 ≤ d.length) :
    load32 (d ++ p) i = load32 d i := by
  rw [load32, load32, load16_append d p (by omega), load16_append d p (by omega)]

theorem store_append (d p : Bytes) {off : Nat} (bs : Bytes) (h : off + bs.length ≤ d.length) :
    store (d ++ p) off bs = store d off bs ++ p := by
  induction bs generalizing d off with
  | nil => rfl
  | cons b bs ih =>
    simp only [List.length_cons] at h
    rw [store, store, List.set_append_left _ _ (by omega), ih _ (by rw [List.length_set]; omega)]

end Bytes
