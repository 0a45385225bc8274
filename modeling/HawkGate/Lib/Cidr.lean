-- SUMMARY: IPv4 address blocks: leading bits in network order, the block's base address, its mask, and its text.
import HawkGate.Lib.CString

/-!
# Address blocks

An address is a word in network byte order, so its leading bits are those of the
swapped word. A block is the set of the addresses that share the leading `len`
bits of one of them.
-/

/-- A block of addresses as it is written: an address and how many of its bits count. -/
structure Cidr where
  len : Nat
  ip : UInt32
  len_le : len ≤ 32

namespace Cidr

open Bytes CString

/-- The first `len` bits of an address as a number. -/
def leadingBits (len : Nat) (ip : UInt32) : Nat := (swap32 ip).toNat / 2 ^ (32 - len)

/-- The address with every bit behind the first `len` cleared. -/
def clearHost (len : Nat) (ip : UInt32) : UInt32 :=
  swap32 (UInt32.ofNat (leadingBits len ip * 2 ^ (32 - len)))

/-- The base address of a block. -/
def net (c : Cidr) : UInt32 := clearHost c.len c.ip

/-- The address lies in the block. -/
def Contains (c : Cidr) (ip : UInt32) : Prop := leadingBits c.len c.ip = leadingBits c.len ip

/-- Two ways of writing the same block. -/
def Same (c c' : Cidr) : Prop := c.len = c'.len ∧ c.net = c'.net

/-! ## Masks -/

theorem swap32_clearHost (len : Nat) (ip : UInt32) :
    (swap32 (clearHost len ip)).toNat = leadingBits len ip * 2 ^ (32 - len) := by
  have hip := (swap32 ip).toNat_lt
  have hle : leadingBits len ip * 2 ^ (32 - len) ≤ (swap32 ip).toNat := Nat.div_mul_le_self _ _
  rw [clearHost, swap32_swap32, UInt32.toNat_ofNat_of_lt' (by simp only [UInt32.size]; omega)]

/-- Clearing the host bits keeps the leading ones. -/
theorem leadingBits_clearHost (len : Nat) (ip : UInt32) :
    leadingBits len (clearHost len ip) = leadingBits len ip := by
  rw [leadingBits, swap32_clearHost, Nat.mul_div_cancel _ (Nat.two_pow_pos _)]

theorem clearHost_zero (ip : UInt32) : clearHost 0 ip = 0 := by
  have hip := (swap32 ip).toNat_lt
  have hbits : leadingBits 0 ip = 0 := Nat.div_eq_of_lt hip
  rw [clearHost, hbits]
  rfl

theorem clearHost_full (ip : UInt32) : clearHost 32 ip = ip := by
  have hbits : leadingBits 32 ip = (swap32 ip).toNat := Nat.div_one _
  rw [clearHost, hbits]
  simp

/-- Clearing the low `k` bits of a word by a shifted mask. -/
theorem and_shifted_ones {x k : Nat} (hx : x < 2 ^ 32) :
    x &&& ((2 ^ 32 - 1) <<< k % 2 ^ 32) = x / 2 ^ k * 2 ^ k := by
  refine Nat.eq_of_testBit_eq fun i => ?_
  rw [Nat.testBit_and, Nat.testBit_mod_two_pow, Nat.testBit_shiftLeft, Nat.testBit_two_pow_sub_one,
    Nat.testBit_mul_two_pow]
  by_cases hk : k ≤ i
  · simp only [hk, decide_true, Bool.true_and, Nat.testBit_div_two_pow, Nat.sub_add_cancel hk]
    by_cases h32 : i < 32
    · have hlt : i - k < 32 := by omega
      simp [h32, hlt]
    · have hzero : x.testBit i = false :=
        Nat.testBit_lt_two_pow (lt_of_lt_of_le hx (Nat.pow_le_pow_right (by decide) (by omega)))
      simp [hzero]
  · simp [hk]

/-- The mask of a prefix length, shifted on a little-endian host and put in network order,
    clears exactly the host bits. -/
theorem and_swap32_mask {ip n : UInt32} {len : Nat} (h0 : 0 < len) (h32 : len ≤ 32)
    (hn : n.toNat = 32 - len) : ip &&& swap32 (0xFFFFFFFF <<< n) = clearHost len ip := by
  have hip := (swap32 ip).toNat_lt
  have hswap : swap32 (ip &&& swap32 (0xFFFFFFFF <<< n)) = swap32 (clearHost len ip) := by
    apply UInt32.toNat.inj
    rw [swap32_and, swap32_swap32, UInt32.toNat_and, UInt32.toNat_shiftLeft, hn,
      Nat.mod_eq_of_lt (by omega : 32 - len < 32), swap32_clearHost]
    exact and_shifted_ones hip
  rw [← swap32_swap32 (ip &&& _), hswap, swap32_swap32]

/-! ## Text -/

/-- `s` is an address, alone for the block of one address or followed by a slash and the decimal
    length of the prefix. -/
def IsText (s : CString) (c : Cidr) : Prop :=
  (inetPton s = some c.ip ∧ c.len = 32) ∨
    ∃ a t, s = a ++ '/' :: t ∧ inetPton a = some c.ip ∧ DecimalText t c.len

/-- An address holds no slash. -/
theorem not_mem_of_inetPton {a : CString} {ip : UInt32} (h : inetPton a = some ip) : '/' ∉ a := by
  intro hmem
  rcases (inetPton_some h).1 '/' hmem with hdigit | hdot
  · exact absurd hdigit (by decide)
  · exact absurd hdot (by decide)

/-- The text of a block that holds a slash. -/
theorem isText_slash {a t : CString} (ha : '/' ∉ a) (c : Cidr) :
    IsText (a ++ '/' :: t) c ↔ inetPton a = some c.ip ∧ DecimalText t c.len := by
  constructor
  · rintro (⟨hip, -⟩ | ⟨a', t', heq, hip, ht⟩)
    · exact absurd (by simp) (not_mem_of_inetPton hip)
    · have hsplit := splitFirst_append (t := t) ha
      rw [heq, splitFirst_append (not_mem_of_inetPton hip)] at hsplit
      obtain ⟨rfl, rfl⟩ := Prod.mk.inj (Option.some.inj hsplit)
      exact ⟨hip, ht⟩
  · rintro ⟨hip, ht⟩
    exact .inr ⟨a, t, rfl, hip, ht⟩

end Cidr
