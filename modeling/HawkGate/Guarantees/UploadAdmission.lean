-- SUMMARY: Which upload packets the shaper ever accepts: a packet must fit the horizon on its own, idle client or not.
import HawkGate.Control.Actions
import HawkGate.Guarantees.UploadPacing

/-!
# Upload admission

The horizon check looks at the departure time of the packet itself. A packet of
an idle client departs after its own serialisation time, so it is accepted
exactly if that time fits the horizon; a packet that does not fit is dropped
whenever it is sent.
-/

namespace HawkGate

/-- A packet of `len` bytes takes at most the default horizon at `kbps` kbit/s: about 12.5 bytes
    for each kbit/s. -/
def FitsHorizon (kbps : UInt64) (len : UInt32) : Prop :=
  8000000 * len.toNat < 100000001 * kbps.toNat

instance (kbps : UInt64) (len : UInt32) : Decidable (FitsHorizon kbps len) :=
  inferInstanceAs (Decidable (_ < _))

/-- The serialisation time at an installed limit, against the horizon. -/
theorem delay_le_horizon_iff (c : UploadCall) {kbps : UInt64} (hone : 1 ≤ kbps)
    (hrate : (kbitToBps kbps).toNat = 125 * kbps.toNat) :
    c.delay (kbitToBps kbps) ≤ hgHorizonNs.toNat ↔ FitsHorizon kbps c.len := by
  have hpos : 1 ≤ kbps.toNat := UInt64.le_iff_toNat_le.mp hone
  rw [UploadCall.delay, hrate, toNat_hgHorizonNs, ← Nat.lt_succ_iff,
    Nat.div_lt_iff_lt_mul (by omega), FitsHorizon]
  omega

section
variable {rates : BoundedMap UInt32 HgRateCfg 256} {cs : HgClient} {dLimit uLimit : UInt64}

/-- At an installed limit, a packet of an idle client is accepted exactly if it fits the horizon
    on its own. -/
theorem idle_upload_accepted_iff (hcfg : rates.lookup cs.rateLimitId = some (addRateVal dLimit uLimit))
    (hone : 1 ≤ uLimit) (hrate : (kbitToBps uLimit).toNat = 125 * uLimit.toNat) {now : UInt64}
    (hidle : cs.lastUTstamp ≤ now) (len : UInt32) :
    (applyEdtShaping rates now len cs true).verdict = .ok ↔ FitsHorizon uLimit len := by
  have hpos : 1 ≤ uLimit.toNat := UInt64.le_iff_toNat_le.mp hone
  have hne : ¬ kbitToBps uLimit = 0 := by
    intro h0
    rw [h0] at hrate
    simp only [UInt64.toNat_zero] at hrate
    omega
  -- an idle client departs one serialisation time from now
  have hnext : edtNext now cs.lastUTstamp (edtDelay len (kbitToBps uLimit)) =
      now + edtDelay len (kbitToBps uLimit) := by
    rw [edtNext]
    split
    · rfl
    · next h => rw [UInt64.le_antisymm hidle (UInt64.not_lt.mp h)]
  have hsub : now + edtDelay len (kbitToBps uLimit) - now = edtDelay len (kbitToBps uLimit) := by
    rw [UInt64.add_comm, UInt64.add_sub_cancel]
  have hfits := delay_le_horizon_iff ⟨len, now⟩ hone hrate
  rw [← toNat_edtDelay, ← UInt64.le_iff_toNat_le] at hfits
  rw [← hfits, applyEdtShaping, hcfg]
  simp only [HgRateCfg.rate, HgClient.lastTstamp, addRateVal, if_true, if_neg hne, hnext, hsub,
    true_and]
  split
  · next h => simpa using h
  · next h => simpa using h

/-- A sequence of packets that are all too long for the limit never gets a packet through,
    whatever the pauses between them. -/
theorem upload_starved {calls : ℕ → UploadCall}
    (hcfg : rates.lookup cs.rateLimitId = some (addRateVal dLimit uLimit)) (hone : 1 ≤ uLimit)
    (hrate : (kbitToBps uLimit).toNat = 125 * uLimit.toNat)
    (hstart : cs.lastUTstamp.toNat < 2 ^ 63) (hnow : ∀ n, (calls n).now.toNat < 2 ^ 63)
    (hlong : ∀ n, ¬ FitsHorizon uLimit (calls n).len) (n : ℕ) :
    ¬ UploadAccepted rates cs calls n := by
  have hpos : 1 ≤ uLimit.toNat := UInt64.le_iff_toNat_le.mp hone
  have hr : 0 < (addRateVal dLimit uLimit).rateBpsU := by
    rw [UInt64.lt_iff_toNat_lt]
    show 0 < (kbitToBps uLimit).toNat
    omega
  rw [(upload_stamp_iff hcfg hr rfl hstart hnow n).1, Pacing.AdmittedAt, Pacing.Admits]
  intro hadm
  refine hlong n ((delay_le_horizon_iff (calls n) hone hrate).mp ?_)
  have hle : (calls n).now.toNat + (calls n).delay (kbitToBps uLimit) ≤
      (calls n).now.toNat + hgHorizonNs.toNat :=
    le_trans (Nat.add_le_add_right (le_max_left _ _) _) hadm
  exact Nat.le_of_add_le_add_left hle

end

/-- At 1 Mbit/s a full-size Ethernet frame of an idle client is accepted. -/
theorem idle_upload_accepted_megabit :
    (applyEdtShaping (BoundedMap.empty.put 7 (addRateVal 0 1000)) 9 1514 ⟨0, 0, 5, 7, 5, 5⟩ true).verdict
      = .ok :=
  have hcfg : (BoundedMap.empty.put 7 (addRateVal 0 1000) : BoundedMap UInt32 HgRateCfg 256).lookup 7 =
      some (addRateVal 0 1000) := by rfl
  (idle_upload_accepted_iff hcfg (by decide) (by decide) (by decide) 1514).mpr (by decide)

/-- At 64 kbit/s a packet of 1500 bytes is dropped although its client is idle. -/
theorem idle_upload_dropped_64k :
    (applyEdtShaping (BoundedMap.empty.put 7 (addRateVal 0 64)) 1000000000 1500 ⟨0, 0, 5, 7, 5, 5⟩
      true).verdict = .shot := by
  decide

end HawkGate
