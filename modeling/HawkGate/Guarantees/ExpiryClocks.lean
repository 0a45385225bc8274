-- SUMMARY: When the reader and the ingress hook agree on whether a session has expired and how long it lasts.
import HawkGate.Control.Effects
import HawkGate.System.Clocks
import Mathlib.Algebra.Order.Group.Unbundled.Abs
import Mathlib.Data.Int.Order.Basic

/-!
# Expiry clocks

An add writes an expiry on the monotonic clock, and ingress compares it with that
clock. The reader compares it with the boot clock, which is ahead by the time the
host was suspended, and counts the instant of expiry as expired.
-/

namespace HawkGate

/-- The reader and the ingress hook treat an entry alike: one takes it for expired when the other
    does, and the reader's remaining time is within a second of the time until ingress ends the
    session, which is negative when that time is over. -/
structure SameExpiryClock (now : Clocks) (cs : HgClient) : Prop where
  verdict : ∀ {ncpu : Nat} (s : HgMaps ncpu),
    ((isExpired cs).run now.env s).1 = true ↔ cs.Expired now.ktimeNs
  remaining : cs.expiryNs ≠ 0 → ∀ {ncpu : Nat} (s : HgMaps ncpu) (lastSeenNs : UInt64)
    (st : HgClientStats),
    |((resolveTimes cs lastSeenNs st).run now.env s).1.ttlSec.toInt * 10 ^ 9 -
      ((cs.expiryNs.toNat : Int) - now.mono)| ≤ 10 ^ 9

/-! ## When it is so -/

/-- The entry does not expire, or expired before the reading of the monotonic clock, or expires
    after that of the boot clock. -/
def OutsideSuspension (now : Clocks) (cs : HgClient) : Prop :=
  cs.expiryNs = 0 ∨ cs.expiryNs.toNat < now.mono ∨ now.boot < cs.expiryNs.toNat

/-- The host was suspended for no more than what rounding to seconds makes up for; for an expiry
    before the epoch of the wall clock, it passed on the monotonic clock within the last two
    seconds. -/
def SuspensionRoundsOff (now : Clocks) (cs : HgClient) : Prop :=
  if now.boot / 10 ^ 9 < now.real / 10 ^ 9 + cs.expiryNs.toNat / 10 ^ 9 then
    now.suspended + cs.expiryNs.toNat % 10 ^ 9 ≤ 10 ^ 9 + now.boot % 10 ^ 9
  else cs.expiryNs.toNat ≤ now.mono ∧ now.mono ≤ cs.expiryNs.toNat + 2 * 10 ^ 9

theorem verdict_iff (now : Clocks) (cs : HgClient) {ncpu : Nat} (s : HgMaps ncpu) :
    (((isExpired cs).run now.env s).1 = true ↔ cs.Expired now.ktimeNs) ↔
      OutsideSuspension now cs := by
  have hboot : (now.env.clock .boottime).toNs.toNat = now.boot :=
    Timespec.toNs_ofNs now.boot_lt_pow
  have hle : now.mono ≤ now.boot := Nat.le_add_right _ _
  rw [run_isExpired, decide_eq_true_eq, HgClient.RunOut, HgClient.Expired, OutsideSuspension,
    UInt64.le_iff_toNat_le, UInt64.lt_iff_toNat_lt, hboot, now.toNat_ktimeNs]
  by_cases hne : cs.expiryNs = 0
  · simp [hne]
  · simp only [ne_eq, hne, not_false_eq_true, true_and, false_or]
    omega

theorem remaining_iff (now : Clocks) {cs : HgClient} (hne : cs.expiryNs ≠ 0) {ncpu : Nat}
    (s : HgMaps ncpu) (lastSeenNs : UInt64) (st : HgClientStats) :
    |((resolveTimes cs lastSeenNs st).run now.env s).1.ttlSec.toInt * 10 ^ 9 -
        ((cs.expiryNs.toNat : Int) - now.mono)| ≤ 10 ^ 9 ↔ SuspensionRoundsOff now cs := by
  have hboot : now.boot = now.mono + now.suspended := rfl
  rw [now.ttlSec_resolveTimes, SuspensionRoundsOff, abs_le]
  by_cases hepoch : now.boot / 10 ^ 9 < now.real / 10 ^ 9 + cs.expiryNs.toNat / 10 ^ 9
  · rw [if_pos ⟨hne, hepoch⟩, if_pos hepoch]
    omega
  · rw [if_neg fun h => hepoch h.2, if_neg hepoch]
    omega

/-- For an entry written by an add, the reader agrees with ingress exactly outside the suspension
    and where rounding makes up for it. -/
theorem sameExpiryClock_iff (a : AddArgs) (added now : Clocks) :
    SameExpiryClock now (a.client added.env) ↔
      OutsideSuspension now (a.client added.env) ∧
        ((a.client added.env).expiryNs ≠ 0 → SuspensionRoundsOff now (a.client added.env)) := by
  generalize a.client added.env = cs
  constructor
  · intro h
    let s : HgMaps 1 := .start 1 .standard 0
    let st : HgClientStats := ⟨[], 0, [], 0, 0, 0, 0, 0, 0, 0, 0, 0, 0, 0, 0, 0, 0, 0⟩
    exact ⟨(verdict_iff now cs s).mp (h.verdict s),
      fun hne => (remaining_iff now hne s 0 st).mp (h.remaining hne s 0 st)⟩
  · rintro ⟨hverdict, hremaining⟩
    exact ⟨fun s => (verdict_iff now cs s).mpr hverdict, fun hne _ s lastSeenNs st =>
      (remaining_iff now hne s lastSeenNs st).mpr (hremaining hne)⟩

/-- A session of an hour, added ten seconds after the start of the host. -/
def hourAdded : Clocks := ⟨10 ^ 10, 0, 0, by norm_num, by norm_num⟩

def hourArgs : AddArgs := ⟨none, some "192.168.99.82".toList, 3600, 0, 0, 0, 0⟩

/-- A second later, after two hours of suspension. -/
def afterSuspend : Clocks := ⟨11 * 10 ^ 9, 7200 * 10 ^ 9, 7211 * 10 ^ 9, by norm_num, by norm_num⟩

/-- The reader takes the session for expired, and for ingress it has almost an hour left. -/
theorem suspended_session_reported_expired :
    ((isExpired (hourArgs.client hourAdded.env) : Tool 1 Bool).run afterSuspend.env
        (.start 1 .standard 0)).1 = true ∧
      ¬ (hourArgs.client hourAdded.env).Expired afterSuspend.ktimeNs ∧
      ¬ SameExpiryClock afterSuspend (hourArgs.client hourAdded.env) := by
  have hreader : ((isExpired (hourArgs.client hourAdded.env) : Tool 1 Bool).run afterSuspend.env
      (.start 1 .standard 0)).1 = true := by decide +kernel
  have hingress : ¬ (hourArgs.client hourAdded.env).Expired afterSuspend.ktimeNs := by
    decide +kernel
  exact ⟨hreader, hingress, fun h => hingress ((h.verdict _).mp hreader)⟩

end HawkGate
