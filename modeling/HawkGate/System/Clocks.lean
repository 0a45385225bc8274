-- SUMMARY: The clocks of a host that can be suspended, and the times that the reader computes from them.
import HawkGate.Control.Reader

/-!
# Clocks

The monotonic clock stops while the host is suspended and the boot clock does
not; the wall clock is set independently. The hooks and `hgctl add` read the
monotonic clock, the reader the other two.
-/

namespace HawkGate

variable {ncpu : Nat}

/-- A time in nanoseconds as `clock_gettime` returns it. -/
def Timespec.ofNs (ns : Nat) : Timespec where
  sec := Int64.ofNat (ns / 10 ^ 9)
  nsec := Int64.ofNat (ns % 10 ^ 9)

/-- The clocks at one instant, in nanoseconds that fit 64 bits: the monotonic clock, the time that
    the host has been suspended, and the wall clock. -/
structure Clocks where
  mono : Nat
  suspended : Nat
  real : Nat
  boot_lt : mono + suspended < 2 ^ 64
  real_lt : real < 2 ^ 64

namespace Clocks

variable (c : Clocks)

def boot : Nat := c.mono + c.suspended

/-- `bpf_ktime_get_ns`. -/
def ktimeNs : UInt64 := UInt64.ofNat c.mono

def reading : ClockId → Timespec
  | .realtime => .ofNs c.real
  | .monotonic => .ofNs c.mono
  | .boottime => .ofNs c.boot

/-- An environment with these clocks in which no call fails. -/
def env : SysEnv := { SysEnv.good ⟨0, 0⟩ with clock := c.reading }

end Clocks

/-! ## Conversions -/

theorem Timespec.toNs_ofNs {ns : Nat} (h : ns < 2 ^ 64) : (Timespec.ofNs ns).toNs.toNat = ns := by
  have hns : nsecPerSec.toNat = 10 ^ 9 := rfl
  simp only [Timespec.toNs, Timespec.ofNs, UInt64.toNat_add, UInt64.toNat_mul,
    Int64.toUInt64_ofNat', UInt64.toNat_ofNat', hns]
  omega

theorem Timespec.sec_ofNs {ns : Nat} (h : ns < 2 ^ 64) :
    (Timespec.ofNs ns).sec.toInt = (ns / 10 ^ 9 : Nat) := by
  rw [Timespec.ofNs, Int64.toInt_ofNat_of_lt (by omega)]

theorem toInt_nsecPerSec (ns : UInt64) :
    (ns / nsecPerSec).toInt64.toInt = (ns.toNat / 10 ^ 9 : Nat) := by
  have hlt := ns.toNat_lt
  have hns : nsecPerSec.toNat = 10 ^ 9 := rfl
  have hdiv : (ns / nsecPerSec).toInt64 = Int64.ofNat (ns.toNat / 10 ^ 9) := by
    rw [← UInt64.toInt64_ofNat', ← hns, ← UInt64.toNat_div, UInt64.ofNat_toNat]
  rw [hdiv, Int64.toInt_ofNat_of_lt (by omega)]

/-- A sum that stays in range. -/
theorem Int64.toInt_add_of_lt {x y : Int64} (hlo : -2 ^ 63 ≤ x.toInt + y.toInt)
    (hhi : x.toInt + y.toInt < 2 ^ 63) : (x + y).toInt = x.toInt + y.toInt := by
  rw [Int64.toInt_add, Int.bmod_eq_of_le (by omega) (by omega)]

/-- A difference that stays in range. -/
theorem Int64.toInt_sub_of_lt {x y : Int64} (hlo : -2 ^ 63 ≤ x.toInt - y.toInt)
    (hhi : x.toInt - y.toInt < 2 ^ 63) : (x - y).toInt = x.toInt - y.toInt := by
  rw [Int64.toInt_sub, Int.bmod_eq_of_le (by omega) (by omega)]

/-! ## The reader's times -/

namespace Clocks

variable (c : Clocks)

theorem boot_lt_pow : c.boot < 2 ^ 64 := c.boot_lt

theorem toNat_ktimeNs : c.ktimeNs.toNat = c.mono :=
  UInt64.toNat_ofNat_of_lt' (Nat.lt_of_le_of_lt (Nat.le_add_right _ _) c.boot_lt)

/-- A reading of the boot clock, put on the wall clock. -/
theorem toInt_wallSec {ns : UInt64} (hns : ns ≠ 0) :
    (wallSec ((Timespec.ofNs c.real).sec - (Timespec.ofNs c.boot).sec) ns).toInt =
      (c.real / 10 ^ 9 : Nat) - (c.boot / 10 ^ 9 : Nat) + (ns.toNat / 10 ^ 9 : Nat) := by
  have hreal := Timespec.sec_ofNs c.real_lt
  have hboot := Timespec.sec_ofNs c.boot_lt_pow
  have hsec := toInt_nsecPerSec ns
  have hlt := ns.toNat_lt
  have hr := c.real_lt
  have hb := c.boot_lt_pow
  have hpos : 0 < ns := UInt64.pos_iff_ne_zero.mpr hns
  have hoff : ((Timespec.ofNs c.real).sec - (Timespec.ofNs c.boot).sec).toInt =
      (c.real / 10 ^ 9 : Nat) - (c.boot / 10 ^ 9 : Nat) := by
    rw [Int64.toInt_sub_of_lt, hreal, hboot]
    · rw [hreal, hboot]
      omega
    · rw [hreal, hboot]
      omega
  rw [wallSec, if_pos hpos, Int64.toInt_add_of_lt, hoff, hsec]
  · rw [hoff, hsec]
    omega
  · rw [hoff, hsec]
    omega

/-- The remaining seconds that the reader computes: the difference of two boot times in whole
    seconds, or -1 if there is no expiry or it lies before the epoch of the wall clock. -/
theorem ttlSec_resolveTimes (cs : HgClient) (lastSeenNs : UInt64) (st : HgClientStats)
    (s : HgMaps ncpu) :
    ((resolveTimes cs lastSeenNs st).run c.env s).1.ttlSec.toInt =
      if cs.expiryNs ≠ 0 ∧ c.boot / 10 ^ 9 < c.real / 10 ^ 9 + cs.expiryNs.toNat / 10 ^ 9 then
        ((cs.expiryNs.toNat / 10 ^ 9 : Nat) - (c.boot / 10 ^ 9 : Nat) : Int)
      else -1 := by
  have hrun : ((resolveTimes cs lastSeenNs st).run c.env s).1.ttlSec =
      if 0 < wallSec ((Timespec.ofNs c.real).sec - (Timespec.ofNs c.boot).sec) cs.expiryNs then
        wallSec ((Timespec.ofNs c.real).sec - (Timespec.ofNs c.boot).sec) cs.expiryNs -
          (Timespec.ofNs c.real).sec
      else -1 := rfl
  rw [hrun]
  by_cases hne : cs.expiryNs = 0
  · have hnever : ¬ (cs.expiryNs ≠ 0 ∧
        c.boot / 10 ^ 9 < c.real / 10 ^ 9 + cs.expiryNs.toNat / 10 ^ 9) := fun h => h.1 hne
    rw [if_neg hnever, hne]
    rfl
  · have hwall := c.toInt_wallSec hne
    have hreal := Timespec.sec_ofNs c.real_lt
    have hr := c.real_lt
    have hb := c.boot_lt_pow
    have hlt := cs.expiryNs.toNat_lt
    generalize wallSec _ _ = wall at hwall
    have hpos : 0 < wall ↔ 0 < wall.toInt := Int64.lt_iff_toInt_lt
    by_cases hepoch : c.boot / 10 ^ 9 < c.real / 10 ^ 9 + cs.expiryNs.toNat / 10 ^ 9
    · rw [if_pos (hpos.mpr (by omega)), if_pos ⟨hne, hepoch⟩, Int64.toInt_sub_of_lt]
      · omega
      · omega
      · omega
    · rw [if_neg (fun h => by have := hpos.mp h; omega), if_neg (fun h => hepoch h.2)]
      rfl

end Clocks

end HawkGate
