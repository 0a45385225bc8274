-- SUMMARY: How far download stamps run ahead of the clock: exactly as far as the offered load, which nothing caps.
import HawkGate.Guarantees.EdtProgress
import HawkGate.Guarantees.UploadPacing

/-!
# Download backlog

A download is never refused, so its stamps are those of a pacer without a
horizon: the backlog is all that has been offered since the client was last
idle. It stays within the burst depth of the profile exactly while the offered
load conforms to the rate with that depth.
-/

namespace HawkGate

/-- One download has the data of one upload: the length and the clock reading. -/
abbrev DownloadCall := UploadCall

section
variable (rates : BoundedMap UInt32 HgRateCfg 256) (cs : HgClient) (calls : ℕ → DownloadCall)

/-- The client entry before call `n`. -/
def downloadClient : ℕ → HgClient
  | 0 => cs
  | n + 1 => (applyEdtShaping rates (calls n).now (calls n).len (downloadClient n) false).client

/-- What call `n` does. -/
def downloadOutcome (n : ℕ) : EdtOutcome :=
  applyEdtShaping rates (calls n).now (calls n).len (downloadClient rates cs calls n) false

end

/-- The arrivals that the exact pacer sees. -/
def downloadArrivals (calls : ℕ → DownloadCall) (r : UInt64) (n : ℕ) : ℕ × ℕ :=
  ((calls n).now.toNat, (calls n).delay r)

/-- The exact departure time before call `n`. -/
def downloadDepart (cs : HgClient) (calls : ℕ → DownloadCall) (r : UInt64) : ℕ → ℕ :=
  Pacing.departAt cs.lastDTstamp.toNat (downloadArrivals calls r)

/-- Up to call `n`, everything offered from the start and from each call on can be sent at rate
    `r` by `burst` after the clock of call `n`. -/
def OfferedWithin (cs : HgClient) (calls : ℕ → DownloadCall) (r burst : UInt64) (n : ℕ) : Prop :=
  cs.lastDTstamp.toNat + ∑ k ∈ Finset.range (n + 1), (calls k).delay r ≤
      (calls n).now.toNat + burst.toNat ∧
    ∀ j ≤ n, (calls j).now.toNat + ∑ k ∈ Finset.Ico j (n + 1), (calls k).delay r ≤
      (calls n).now.toNat + burst.toNat

/-- Call `n` is computed without wrap-around and gives the packet its exact departure time `t`. -/
structure DownloadExact (rates : BoundedMap UInt32 HgRateCfg 256) (cs : HgClient)
    (calls : ℕ → DownloadCall) (r : UInt64) (n : ℕ) (t : UInt64) : Prop where
  noWrap : EdtNoWrap (calls n).len r (calls n).now (downloadClient rates cs calls n).lastDTstamp
  outcome : downloadOutcome rates cs calls n =
    ⟨.ok, (downloadClient rates cs calls n).setTstamp false t, some t⟩
  exact : t.toNat = downloadDepart cs calls r (n + 1)
  notBefore : (calls n).now ≤ t

/-! ## One step over the natural numbers -/

section
variable {c : DownloadCall} {r last : UInt64}
  (hfit : Pacing.next last.toNat c.now.toNat (c.delay r) < 2 ^ 64)
include hfit

theorem toNat_edtNext_of_fits :
    (edtNext c.now last (edtDelay c.len r)).toNat =
      Pacing.next last.toNat c.now.toNat (c.delay r) := by
  rw [toNat_edtNext_mod, toNat_edtDelay, Nat.mod_eq_of_lt hfit]

theorem now_le_edtNext_of_fits : c.now ≤ edtNext c.now last (edtDelay c.len r) := by
  rw [UInt64.le_iff_toNat_le, toNat_edtNext_of_fits hfit]
  exact Pacing.now_le_next (Nat.zero_le _)

theorem edtNoWrap_of_fits : EdtNoWrap c.len r c.now last := by
  have hlen := c.len.toNat_lt
  have hnow : c.now.toNat + c.delay r ≤ Pacing.next last.toNat c.now.toNat (c.delay r) :=
    Nat.add_le_add_right (le_max_left _ _) _
  have hlast := Pacing.last_add_le_next last.toNat c.now.toNat (c.delay r)
  refine ⟨by omega, fun _ => ?_, fun _ => ?_, now_le_edtNext_of_fits hfit⟩
  · rw [toNat_edtDelay]
    omega
  · rw [toNat_edtDelay]
    omega

end

/-! ## Runs -/

section
variable {rates : BoundedMap UInt32 HgRateCfg 256} {cs : HgClient} {calls : ℕ → DownloadCall}
  {cfg : HgRateCfg}

@[simp] theorem downloadClient_rateLimitId (n : ℕ) :
    (downloadClient rates cs calls n).rateLimitId = cs.rateLimitId := by
  induction n with
  | zero => rfl
  | succ n ih => rw [downloadClient, applyEdtShaping_rateLimitId, ih]

/-- One shaping step of a download: there is no horizon check. -/
theorem downloadOutcome_eq (hcfg : rates.lookup cs.rateLimitId = some cfg) (hr : 0 < cfg.rateBpsD)
    (n : ℕ) :
    downloadOutcome rates cs calls n =
      ⟨.ok, (downloadClient rates cs calls n).setTstamp false
          (edtNext (calls n).now (downloadClient rates cs calls n).lastDTstamp
            (edtDelay (calls n).len cfg.rateBpsD)),
        some (edtNext (calls n).now (downloadClient rates cs calls n).lastDTstamp
          (edtDelay (calls n).len cfg.rateBpsD))⟩ := by
  have hr0 : ¬ cfg.rateBpsD = 0 := by
    rintro h0
    rw [h0] at hr
    exact absurd hr (by decide)
  rw [downloadOutcome, applyEdtShaping, downloadClient_rateLimitId, hcfg]
  simp [HgRateCfg.rate, HgClient.lastTstamp, hr0]

theorem downloadDepart_succ (r : UInt64) (n : ℕ) :
    downloadDepart cs calls r (n + 1) =
      Pacing.next (downloadDepart cs calls r n) (calls n).now.toNat ((calls n).delay r) := rfl

theorem downloadDepart_mono (r : UInt64) : Monotone (downloadDepart cs calls r) :=
  Pacing.departAt_mono fun _ => Nat.zero_le _

/-- As long as the exact departure times fit 64 bits, they are what the entry holds. -/
theorem downloadClient_exact (hcfg : rates.lookup cs.rateLimitId = some cfg)
    (hr : 0 < cfg.rateBpsD) {n : ℕ} (hfit : downloadDepart cs calls cfg.rateBpsD n < 2 ^ 64) :
    (downloadClient rates cs calls n).lastDTstamp.toNat =
      downloadDepart cs calls cfg.rateBpsD n := by
  induction n with
  | zero => rfl
  | succ n ih =>
    have hprev := ih (lt_of_le_of_lt (downloadDepart_mono cfg.rateBpsD (Nat.le_succ n)) hfit)
    have hstep : downloadClient rates cs calls (n + 1) = (downloadOutcome rates cs calls n).client :=
      rfl
    have hnext : Pacing.next (downloadClient rates cs calls n).lastDTstamp.toNat
        (calls n).now.toNat ((calls n).delay cfg.rateBpsD) =
          downloadDepart cs calls cfg.rateBpsD (n + 1) := by
      rw [hprev, downloadDepart_succ]
    have hstamp : (downloadClient rates cs calls (n + 1)).lastDTstamp =
        edtNext (calls n).now (downloadClient rates cs calls n).lastDTstamp
          (edtDelay (calls n).len cfg.rateBpsD) := by
      rw [hstep, downloadOutcome_eq hcfg hr, HgClient.setTstamp_lastDTstamp]
    rw [hstamp, toNat_edtNext_of_fits (by rw [hnext]; exact hfit), hnext]

/-- A download is never dropped. While the exact departure time fits 64 bits, its stamp is exact;
    the stamp is within the profile's burst depth exactly if the offered load is. -/
theorem download_backlog (hcfg : rates.lookup cs.rateLimitId = some cfg) (hr : 0 < cfg.rateBpsD)
    (n : ℕ) :
    (downloadOutcome rates cs calls n).verdict = .ok ∧
      (downloadDepart cs calls cfg.rateBpsD (n + 1) < 2 ^ 64 →
        ∃ t, DownloadExact rates cs calls cfg.rateBpsD n t ∧
          (t.toNat ≤ (calls n).now.toNat + cfg.horizonNs.toNat ↔
            OfferedWithin cs calls cfg.rateBpsD cfg.horizonNs n)) := by
  refine ⟨applyEdtShaping_download_ok .., fun hfit => ?_⟩
  have hfitn : downloadDepart cs calls cfg.rateBpsD n < 2 ^ 64 :=
    lt_of_le_of_lt (downloadDepart_mono cfg.rateBpsD (Nat.le_succ n)) hfit
  have hprev := downloadClient_exact hcfg hr hfitn
  have hnext : Pacing.next (downloadClient rates cs calls n).lastDTstamp.toNat
      (calls n).now.toNat ((calls n).delay cfg.rateBpsD) =
        downloadDepart cs calls cfg.rateBpsD (n + 1) := by
    rw [hprev, downloadDepart_succ]
  rw [← hnext] at hfit
  have hexact := (toNat_edtNext_of_fits hfit).trans hnext
  refine ⟨_, ⟨edtNoWrap_of_fits hfit, downloadOutcome_eq hcfg hr n, hexact,
    now_le_edtNext_of_fits hfit⟩, ?_⟩
  have hbound := Pacing.departAt_add_le_iff cs.lastDTstamp.toNat
    (downloadArrivals calls cfg.rateBpsD) (n + 1) 0 ((calls n).now.toNat + cfg.horizonNs.toNat)
  rw [hexact, downloadDepart, OfferedWithin]
  simp only [add_zero, downloadArrivals] at hbound
  simpa [Nat.lt_succ_iff] using hbound

end

/-- Conforming downloads at 1 Mbit/s, one full-size packet every 12 ms, stay within the burst
    depth. -/
theorem download_backlog_megabit :
    (downloadOutcome (BoundedMap.empty.put 7 (addRateVal 1000 0)) ⟨0, 0, 5, 7, 5, 5⟩
        (fun n => ⟨1500, UInt64.ofNat (12000000 * (n + 1))⟩) 1).verdict = .ok ∧
      ∃ t, DownloadExact (BoundedMap.empty.put 7 (addRateVal 1000 0)) ⟨0, 0, 5, 7, 5, 5⟩
          (fun n => ⟨1500, UInt64.ofNat (12000000 * (n + 1))⟩) 125000 1 t ∧
        (t.toNat ≤ 24000000 + 100000000 ↔
          OfferedWithin ⟨0, 0, 5, 7, 5, 5⟩ (fun n => ⟨1500, UInt64.ofNat (12000000 * (n + 1))⟩)
            125000 hgHorizonNs 1) :=
  have hcfg : (BoundedMap.empty.put 7 (addRateVal 1000 0) : BoundedMap UInt32 HgRateCfg 256).lookup
      (HgClient.mk 0 0 5 7 5 5).rateLimitId = some (addRateVal 1000 0) := by rfl
  ⟨(download_backlog hcfg (by decide) 1).1, (download_backlog hcfg (by decide) 1).2 (by decide)⟩

/-- Nine full-size packets that arrive at once for an idle client with 1 Mbit/s push its stamp
    108 ms ahead. -/
theorem download_flood_exceeds_horizon :
    ∃ t, (downloadOutcome (BoundedMap.empty.put 7 (addRateVal 1000 0)) ⟨0, 0, 5, 7, 5, 5⟩
        (fun _ => ⟨1500, 1000⟩) 8).stamp = some t ∧ 1000 + hgHorizonNs < t :=
  ⟨108001000, by decide, by decide⟩

end HawkGate
