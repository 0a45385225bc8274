-- SUMMARY: The Internet checksum: ones' complement sums of byte strings, and how they change when words are replaced.
import HawkGate.Lib.Bytes
import Mathlib.Data.ZMod.Basic
import Mathlib.Tactic.Ring
import Mathlib.Tactic.LinearCombination

/-!
# Internet checksum

A byte string is valid when the ones' complement sum of its network-order words,
the checksum field among them, is all ones. The sum counts modulo 65535, where
65536 is 1: swapping the bytes of every word multiplies it by 256, and replacing
a word shifts it by the difference. So a program may update a checksum with words
in host order, one changed word at a time.
-/

open Bytes

namespace InternetChecksum

/-- Sum of two words with end-around carry. -/
def add (a b : UInt16) : UInt16 :=
  UInt16.ofNat ((a.toNat + b.toNat) % 65536 + (a.toNat + b.toNat) / 65536)

/-- The word in network order with the bytes `a` and `b`. -/
def word (a b : UInt8) : UInt16 := UInt16.ofNat (256 * a.toNat + b.toNat)

/-- Ones' complement sum of the words of a byte string, padded to whole words. -/
def sum : Bytes → UInt16
  | [] => 0
  | [a] => word a 0
  | a :: b :: rest => add (word a b) (sum rest)

/-- The receiver's check. -/
def Valid (bs : Bytes) : Prop := sum bs = 65535

instance (bs : Bytes) : Decidable (Valid bs) := inferInstanceAs (Decidable (_ = _))

/-! ## Sums modulo 65535 -/

/-- A word as a residue modulo 65535. -/
def val (x : UInt16) : ZMod 65535 := (x.toNat : ZMod 65535)

theorem base_eq_one : (65536 : ZMod 65535) = 1 := by
  have h : ((65536 : ℕ) : ZMod 65535) = ((1 : ℕ) : ZMod 65535) :=
    (ZMod.natCast_eq_natCast_iff _ _ _).mpr rfl
  exact_mod_cast h

/-- The end-around carry keeps the residue. -/
theorem val_add (a b : UInt16) : val (add a b) = val a + val b := by
  have ha := a.toNat_lt
  have hb := b.toNat_lt
  have hsplit := Nat.div_add_mod (a.toNat + b.toNat) 65536
  have hcarry : (add a b).toNat = (a.toNat + b.toNat) % 65536 + (a.toNat + b.toNat) / 65536 := by
    rw [add, UInt16.toNat_ofNat_of_lt' (by simp only [UInt16.size]; omega)]
  have hcast := congrArg (Nat.cast : ℕ → ZMod 65535) hsplit
  push_cast at hcast
  rw [val, hcarry, val, val]
  push_cast
  linear_combination hcast - ((a.toNat + b.toNat) / 65536 : ℕ) * base_eq_one

theorem val_not (a : UInt16) : val (~~~a) = - val a := by
  have ha := a.toNat_lt
  have hnot : (~~~a).toNat + a.toNat = 65535 := by
    rw [UInt16.toNat_not]
    simp only [UInt16.size]
    omega
  have hcast := congrArg (Nat.cast : ℕ → ZMod 65535) hnot
  push_cast at hcast
  rw [val, val]
  linear_combination hcast + base_eq_one

theorem val_word (a b : UInt8) :
    val (word a b) = 256 * (a.toNat : ZMod 65535) + (b.toNat : ZMod 65535) := by
  have ha := a.toNat_lt
  have hb := b.toNat_lt
  rw [val, word, UInt16.toNat_ofNat_of_lt' (by simp only [UInt16.size]; omega)]
  push_cast
  rfl

/-- Only two words that are zero sum to zero. -/
theorem add_eq_zero_iff {a b : UInt16} : add a b = 0 ↔ a = 0 ∧ b = 0 := by
  have ha := a.toNat_lt
  have hb := b.toNat_lt
  rw [← UInt16.toNat_inj, ← UInt16.toNat_inj (a := a), ← UInt16.toNat_inj (a := b), add,
    UInt16.toNat_ofNat_of_lt' (by simp only [UInt16.size]; omega)]
  simp only [UInt16.toNat_zero]
  omega

theorem word_eq_zero_iff {a b : UInt8} : word a b = 0 ↔ a = 0 ∧ b = 0 := by
  have ha := a.toNat_lt
  have hb := b.toNat_lt
  rw [← UInt16.toNat_inj, ← UInt8.toNat_inj (a := a), ← UInt8.toNat_inj (a := b), word,
    UInt16.toNat_ofNat_of_lt' (by simp only [UInt16.size]; omega)]
  simp only [UInt16.toNat_zero, UInt8.toNat_zero]
  omega

theorem sum_eq_zero_iff (bs : Bytes) : sum bs = 0 ↔ ∀ b ∈ bs, b = 0 := by
  induction bs using sum.induct with
  | case1 => simp [sum]
  | case2 a => simp [sum, word_eq_zero_iff]
  | case3 a b rest ih => simp [sum, add_eq_zero_iff, word_eq_zero_iff, ih, and_assoc]

/-- The only two words with residue zero are zero and all ones. -/
theorem val_eq_zero_iff (x : UInt16) : val x = 0 ↔ x = 0 ∨ x = 65535 := by
  have hx := x.toNat_lt
  rw [val, ZMod.natCast_eq_zero_iff, ← UInt16.toNat_inj, ← UInt16.toNat_inj]
  simp only [UInt16.toNat_zero, UInt16.reduceToNat]
  omega

/-- A byte string is valid iff its sum is a multiple of 65535 and some byte is not zero. -/
theorem valid_iff (bs : Bytes) : Valid bs ↔ val (sum bs) = 0 ∧ ∃ b ∈ bs, b ≠ 0 := by
  have hzero := sum_eq_zero_iff bs
  rw [Valid, val_eq_zero_iff]
  constructor
  · intro h
    refine ⟨.inr h, ?_⟩
    by_contra hall
    push Not at hall
    rw [hzero.mpr hall] at h
    exact absurd h (by decide)
  · rintro ⟨h | h, b, hb, hne⟩
    · exact absurd (hzero.mp h b hb) hne
    · exact h

theorem exists_ne_zero_of_load8 {bs : Bytes} {i : ℕ} (h : load8 bs i ≠ 0) : ∃ b ∈ bs, b ≠ 0 := by
  rw [load8, List.getD_eq_getElem?_getD] at h
  cases hget : bs[i]? with
  | none =>
    rw [hget] at h
    exact absurd rfl h
  | some b =>
    rw [hget] at h
    exact ⟨b, List.mem_of_getElem? hget, h⟩

/-! ## Sums of parts -/

/-- What the byte at position `i` counts for. -/
def weight (i : ℕ) : ZMod 65535 := if i % 2 = 0 then 256 else 1

theorem weight_add_two (i : ℕ) : weight (i + 2) = weight i := by
  rw [weight, weight, Nat.add_mod_right]

/-- Two strings summed one behind the other, the first of whole words. -/
theorem val_sum_append (a b : Bytes) (h : a.length % 2 = 0) :
    val (sum (a ++ b)) = val (sum a) + val (sum b) := by
  induction a using sum.induct with
  | case1 => simp [sum, val]
  | case2 x => simp at h
  | case3 x y rest ih =>
    have hrest : rest.length % 2 = 0 := by
      simp only [List.length_cons] at h
      omega
    rw [List.cons_append, List.cons_append, sum, sum, val_add, val_add, ih hrest]
    ring

theorem val_sum_set (bs : Bytes) (i : ℕ) (b : UInt8) (h : i < bs.length) :
    val (sum (bs.set i b)) =
      val (sum bs) + weight i * ((b.toNat : ZMod 65535) - ((load8 bs i).toNat : ZMod 65535)) := by
  induction bs using sum.induct generalizing i with
  | case1 => simp at h
  | case2 x =>
    obtain rfl : i = 0 := by simpa using h
    simp only [List.set_cons_zero, sum, val_word, weight, load8, List.getD_cons_zero]
    norm_num
    ring
  | case3 x y rest ih =>
    rcases i with _ | _ | i
    · -- the high byte of the first word
      simp only [List.set_cons_zero, sum, val_add, val_word, weight, load8, List.getD_cons_zero]
      norm_num
      ring
    · -- its low byte
      simp only [List.set_cons_succ, List.set_cons_zero, sum, val_add, val_word, weight, load8,
        List.getD_cons_succ, List.getD_cons_zero]
      norm_num
      ring
    · have hi : i < rest.length := by
        simp only [List.length_cons] at h
        omega
      have hload : load8 (x :: y :: rest) (i + 2) = load8 rest i := rfl
      simp only [List.set_cons_succ, sum, val_add, hload, weight_add_two]
      rw [ih i hi]
      ring

/-! ## Replaced words -/

/-- The value of a word in host order: 256 times this is its share in the sum. -/
theorem val_eq_bytes (x : UInt16) :
    val x = ((x.toNat % 256 : ℕ) : ZMod 65535) + 256 * ((x.toNat / 256 : ℕ) : ZMod 65535) := by
  have h := congrArg (Nat.cast : ℕ → ZMod 65535) (Nat.mod_add_div x.toNat 256)
  push_cast at h
  exact h.symm

theorem val_load16 (d : Bytes) (off : ℕ) :
    val (load16 d off) =
      ((load8 d off).toNat : ZMod 65535) + 256 * ((load8 d (off + 1)).toNat : ZMod 65535) := by
  have h0 := (load8 d off).toNat_lt
  have h1 := (load8 d (off + 1)).toNat_lt
  rw [val, load16, UInt16.toNat_ofNat_of_lt' (by simp only [UInt16.size]; omega)]
  push_cast
  rfl

/-- Storing a word at an even offset shifts the sum by its difference to the old one. -/
theorem val_sum_store16 (bs : Bytes) {off : ℕ} (x : UInt16) (heven : off % 2 = 0)
    (h : off + 2 ≤ bs.length) :
    val (sum (store bs off (ofU16 x))) =
      val (sum bs) + 256 * (val x - val (load16 bs off)) := by
  have hx := x.toNat_lt
  have hlo : (UInt8.ofNat (x.toNat % 256)).toNat = x.toNat % 256 := by
    rw [UInt8.toNat_ofNat']
    omega
  have hhi : (UInt8.ofNat (x.toNat / 256)).toNat = x.toNat / 256 := by
    rw [UInt8.toNat_ofNat']
    omega
  have hw0 : weight off = 256 := if_pos heven
  have hw1 : weight (off + 1) = 1 := if_neg (by omega)
  rw [ofU16, store, store, store, val_sum_set _ _ _ (by rw [List.length_set]; omega),
    val_sum_set _ _ _ (by omega), load8_set_ne _ _ (by omega), hw0, hw1, hlo, hhi,
    val_eq_bytes x, val_load16]
  linear_combination (((load8 bs (off + 1)).toNat : ZMod 65535) -
    ((x.toNat / 256 : ℕ) : ZMod 65535)) * base_eq_one

/-- The share of a double word in host order. -/
def val32 (x : UInt32) : ZMod 65535 := (x.toNat : ZMod 65535)

theorem val32_eq_words (x : UInt32) :
    val32 x = val (UInt16.ofNat (x.toNat % 65536)) + val (UInt16.ofNat (x.toNat / 65536)) := by
  have hx := x.toNat_lt
  have h := congrArg (Nat.cast : ℕ → ZMod 65535) (Nat.mod_add_div x.toNat 65536)
  push_cast at h
  rw [val32, val, val, UInt16.toNat_ofNat_of_lt' (by simp only [UInt16.size]; omega),
    UInt16.toNat_ofNat_of_lt' (by simp only [UInt16.size]; omega)]
  linear_combination -h + ((x.toNat / 65536 : ℕ) : ZMod 65535) * base_eq_one

theorem val32_load32 (d : Bytes) (off : ℕ) :
    val32 (load32 d off) = val (load16 d off) + val (load16 d (off + 2)) := by
  have h0 := (load16 d off).toNat_lt
  have h1 := (load16 d (off + 2)).toNat_lt
  rw [val32, load32, UInt32.toNat_ofNat_of_lt' (by simp only [UInt32.size]; omega), val, val]
  push_cast
  linear_combination ((load16 d (off + 2)).toNat : ZMod 65535) * base_eq_one

theorem store_ofU32 (bs : Bytes) (off : ℕ) (x : UInt32) :
    store bs off (ofU32 x) =
      store (store bs off (ofU16 (UInt16.ofNat (x.toNat % 65536)))) (off + 2)
        (ofU16 (UInt16.ofNat (x.toNat / 65536))) := by
  have hx := x.toNat_lt
  have hlo : (UInt16.ofNat (x.toNat % 65536)).toNat = x.toNat % 65536 :=
    UInt16.toNat_ofNat_of_lt' (by simp only [UInt16.size]; omega)
  have hhi : (UInt16.ofNat (x.toNat / 65536)).toNat = x.toNat / 65536 :=
    UInt16.toNat_ofNat_of_lt' (by simp only [UInt16.size]; omega)
  simp only [ofU32, ofU16, store, hlo, hhi]
  rw [show x.toNat % 65536 % 256 = x.toNat % 256 by omega,
    show x.toNat % 65536 / 256 = x.toNat / 256 % 256 by omega,
    show x.toNat / 65536 / 256 = x.toNat / 16777216 by omega]

/-- Storing a double word at an even offset shifts the sum by its difference to the old one. -/
theorem val_sum_store32 (bs : Bytes) {off : ℕ} (x : UInt32) (heven : off % 2 = 0)
    (h : off + 4 ≤ bs.length) :
    val (sum (store bs off (ofU32 x))) =
      val (sum bs) + 256 * (val32 x - val32 (load32 bs off)) := by
  rw [store_ofU32, val_sum_store16 _ _ (by omega) (by rw [length_store]; omega),
    val_sum_store16 _ _ heven (by omega),
    load16_store_outside _ _ _ (Or.inr (by simp [ofU16])), val32_eq_words, val32_load32]
  ring

end InternetChecksum
