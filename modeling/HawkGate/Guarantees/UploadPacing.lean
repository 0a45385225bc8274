-- SUMMARY: Upload shaping refines exact pacing: no 64-bit wrap, bounded lead, and rate conformance over any packet sequence.
import HawkGate.Kernel.Edt
import HawkGate.Lib.Pacing

/-!
# Upload pacing

The shaper computes with 64-bit words and clock readings that may come out of
order. For readings below `2 ^ 63` it agrees with the exact pacer of
`Lib/Pacing.lean` over the natural numbers, so the bounds proved there hold for
the stamps that packets get.
-/

namespace HawkGate

/-- One upload: the packet length and the clock reading of its CPU. -/
structure UploadCall where
  len : UInt32
  now : UInt64

/-- Serialisation time of an upload over the natural numbers. -/
def UploadCall.delay (c : UploadCall) (rate : UInt64) : ℕ :=
  c.len.toNat * 1000000000 / rate.toNat

section
variable (rates : BoundedMap UInt32 HgRateCfg 256) (cs : HgClient) (calls : ℕ → UploadCall)

/-- The client entry before call `n`. -/
def uploadClient : ℕ → HgClient
  | 0 => cs
  | n + 1 => (applyEdtShaping rates (calls n).now (calls n).len (uploadClient n) true).client

/-- What call `n` does. -/
def uploadOutcome (n : ℕ) : EdtOutcome :=
  applyEdtShaping rates (calls n).now (calls n).len (uploadClient rates cs calls n) true

/-- Call `n` is accepted. -/
def UploadAccepted (n : ℕ) : Prop := (uploadOutcome rates cs calls n).verdict = .ok

instance (n : ℕ) : Decidable (UploadAccepted rates cs calls n) :=
  inferInstanceAs (Decidable (_ = _))

end

/-- No multiplication, addition or subtraction of one shaping step leaves 64 bits. -/
structure EdtNoWrap (len : UInt32) (rate now last : UInt64) : Prop where
  mul : len.toNat * 1000000000 < 2 ^ 64
  addNow : last < now → now.toNat + (edtDelay len rate).toNat < 2 ^ 64
  addLast : ¬ last < now → last.toNat + (edtDelay len rate).toNat < 2 ^ 64
  sub : now ≤ edtNext now last (edtDelay len rate)

/-- The guarantees of upload shaping at rate `r` for a sequence of calls. -/
structure UploadConforms (rates : BoundedMap UInt32 HgRateCfg 256) (cs : HgClient)
    (calls : ℕ → UploadCall) (r : UInt64) : Prop where
  noWrap : ∀ n, EdtNoWrap (calls n).len r (calls n).now (uploadClient rates cs calls n).lastUTstamp
  /-- No packet is accepted without a stamp or stamped without being accepted. -/
  stamped : ∀ n, UploadAccepted rates cs calls n ↔
    (uploadOutcome rates cs calls n).stamp.isSome = true
  lead : ∀ n t, (uploadOutcome rates cs calls n).stamp = some t →
    (calls n).now.toNat ≤ t.toNat ∧ t.toNat ≤ (calls n).now.toNat + hgHorizonNs.toNat
  dropped : ∀ n, (uploadOutcome rates cs calls n).verdict = .shot →
    (uploadClient rates cs calls (n + 1)).lastUTstamp = (uploadClient rates cs calls n).lastUTstamp
  rate : ∀ i j ti tj, i < j → (uploadOutcome rates cs calls i).stamp = some ti →
    (uploadOutcome rates cs calls j).stamp = some tj →
    ti.toNat + ∑ k ∈ Finset.Ioc i j with UploadAccepted rates cs calls k, (calls k).delay r
      ≤ tj.toNat
  window : ∀ i j, i < j → UploadAccepted rates cs calls i → UploadAccepted rates cs calls j →
    (calls i).now.toNat + ∑ k ∈ Finset.Ioc i j with UploadAccepted rates cs calls k, (calls k).delay r
      ≤ (calls j).now.toNat + hgHorizonNs.toNat

/-! ## One step over the natural numbers -/

theorem toNat_hgHorizonNs : hgHorizonNs.toNat = 100000000 := rfl

theorem toNat_edtDelay (c : UploadCall) (rate : UInt64) :
    (edtDelay c.len rate).toNat = c.delay rate := by
  have hlen := c.len.toNat_lt
  rw [edtDelay, UInt64.toNat_div, UInt64.toNat_mul, UInt32.toNat_toUInt64]
  rw [Nat.mod_eq_of_lt (by simp only [nsecPerSec, UInt64.reduceToNat]; omega)]
  rfl

theorem UploadCall.delay_lt (c : UploadCall) (rate : UInt64) : c.delay rate < 2 ^ 62 := by
  have hlen := c.len.toNat_lt
  have hdiv : c.delay rate ≤ c.len.toNat * 1000000000 := Nat.div_le_self _ _
  omega

section
variable {c : UploadCall} {r last : UInt64}

theorem toNat_edtNext (hnow : c.now.toNat < 2 ^ 63) (hlast : last.toNat ≤ 2 ^ 63 + 100000000) :
    (edtNext c.now last (edtDelay c.len r)).toNat =
      Pacing.next last.toNat c.now.toNat (c.delay r) := by
  have hd := c.delay_lt r
  have hlt : last < c.now ↔ last.toNat < c.now.toNat := UInt64.lt_iff_toNat_lt
  rw [edtNext, Pacing.next]
  split
  · next h =>
    rw [hlt] at h
    rw [UInt64.toNat_add, toNat_edtDelay, max_eq_left (by omega), Nat.mod_eq_of_lt (by omega)]
  · next h =>
    rw [hlt] at h
    rw [UInt64.toNat_add, toNat_edtDelay, max_eq_right (by omega), Nat.mod_eq_of_lt (by omega)]

theorem edtNoWrap_of_bounds (hnow : c.now.toNat < 2 ^ 63)
    (hlast : last.toNat ≤ 2 ^ 63 + 100000000) : EdtNoWrap c.len r c.now last := by
  have hlen := c.len.toNat_lt
  have hd := c.delay_lt r
  refine ⟨by omega, fun _ => ?_, fun _ => ?_, ?_⟩
  · rw [toNat_edtDelay]
    omega
  · rw [toNat_edtDelay]
    omega
  · rw [UInt64.le_iff_toNat_le, toNat_edtNext hnow hlast]
    exact Pacing.now_le_next (Nat.zero_le _)

/-- The horizon check decides admission as the exact pacer does. -/
theorem horizon_check_iff (hnow : c.now.toNat < 2 ^ 63)
    (hlast : last.toNat ≤ 2 ^ 63 + 100000000) :
    hgHorizonNs < edtNext c.now last (edtDelay c.len r) - c.now ↔
      ¬ Pacing.Admits hgHorizonNs.toNat last.toNat c.now.toNat (c.delay r) := by
  have hsub := (edtNoWrap_of_bounds (r := r) hnow hlast).sub
  rw [UInt64.lt_iff_toNat_lt, UInt64.toNat_sub_of_le _ _ hsub, toNat_edtNext hnow hlast,
    Pacing.Admits, not_le]
  have hle : c.now.toNat ≤ Pacing.next last.toNat c.now.toNat (c.delay r) :=
    Pacing.now_le_next (Nat.zero_le _)
  omega

end

/-! ## Refinement of the exact pacer -/

section
variable {rates : BoundedMap UInt32 HgRateCfg 256} {cs : HgClient} {calls : ℕ → UploadCall}
  {cfg : HgRateCfg}

/-- The arrivals that the exact pacer sees. -/
def uploadArrivals (calls : ℕ → UploadCall) (r : UInt64) (n : ℕ) : ℕ × ℕ :=
  ((calls n).now.toNat, (calls n).delay r)

@[simp] theorem uploadClient_rateLimitId (n : ℕ) :
    (uploadClient rates cs calls n).rateLimitId = cs.rateLimitId := by
  induction n with
  | zero => rfl
  | succ n ih => rw [uploadClient, applyEdtShaping_rateLimitId, ih]

/-- One shaping step under a profile with the default horizon. -/
theorem uploadOutcome_eq (hcfg : rates.lookup cs.rateLimitId = some cfg) (hr : 0 < cfg.rateBpsU)
    (hh : cfg.horizonNs = hgHorizonNs) (n : ℕ) :
    uploadOutcome rates cs calls n =
      if hgHorizonNs < edtNext (calls n).now (uploadClient rates cs calls n).lastUTstamp
          (edtDelay (calls n).len cfg.rateBpsU) - (calls n).now then
        ⟨.shot, uploadClient rates cs calls n, none⟩
      else
        ⟨.ok, (uploadClient rates cs calls n).setTstamp true
            (edtNext (calls n).now (uploadClient rates cs calls n).lastUTstamp
              (edtDelay (calls n).len cfg.rateBpsU)),
          some (edtNext (calls n).now (uploadClient rates cs calls n).lastUTstamp
            (edtDelay (calls n).len cfg.rateBpsU))⟩ := by
  have hr0 : ¬ cfg.rateBpsU = 0 := by
    rintro h0
    rw [h0] at hr
    exact absurd hr (by decide)
  rw [uploadOutcome, applyEdtShaping, uploadClient_rateLimitId, hcfg]
  simp only [HgRateCfg.rate, HgClient.lastTstamp, if_true, if_neg hr0, hh, true_and]

/-- The shaper's state is the exact pacer's, and stays below the wrap-around. -/
theorem uploadClient_refines (hcfg : rates.lookup cs.rateLimitId = some cfg)
    (hr : 0 < cfg.rateBpsU) (hh : cfg.horizonNs = hgHorizonNs)
    (hstart : cs.lastUTstamp.toNat < 2 ^ 63) (hnow : ∀ n, (calls n).now.toNat < 2 ^ 63) (n : ℕ) :
    (uploadClient rates cs calls n).lastUTstamp.toNat =
        Pacing.lastAt hgHorizonNs.toNat cs.lastUTstamp.toNat (uploadArrivals calls cfg.rateBpsU) n ∧
      (uploadClient rates cs calls n).lastUTstamp.toNat ≤ 2 ^ 63 + 100000000 := by
  induction n with
  | zero => exact ⟨rfl, by show cs.lastUTstamp.toNat ≤ _; omega⟩
  | succ n ih =>
    obtain ⟨ih, hbound⟩ := ih
    have hcheck := horizon_check_iff (r := cfg.rateBpsU) (hnow n) hbound
    have hstep : uploadClient rates cs calls (n + 1) = (uploadOutcome rates cs calls n).client := rfl
    rw [hstep, uploadOutcome_eq hcfg hr hh n, Pacing.lastAt, Pacing.after, ← ih]
    by_cases hadm : Pacing.Admits hgHorizonNs.toNat
        (uploadClient rates cs calls n).lastUTstamp.toNat (calls n).now.toNat
        ((calls n).delay cfg.rateBpsU)
    · have hn := hnow n
      have hle : Pacing.next _ _ _ ≤ (calls n).now.toNat + hgHorizonNs.toNat := hadm
      rw [if_neg (by rw [hcheck]; exact not_not.mpr hadm), uploadArrivals, if_pos hadm]
      simp only [HgClient.setTstamp_lastUTstamp]
      rw [toNat_edtNext (hnow n) hbound]
      refine ⟨rfl, ?_⟩
      rw [toNat_hgHorizonNs] at hle
      omega
    · rw [if_pos (hcheck.mpr hadm), uploadArrivals, if_neg hadm]
      exact ⟨rfl, hbound⟩

/-- An upload is accepted exactly when it gets a stamp. -/
theorem uploadAccepted_iff_stamp (hcfg : rates.lookup cs.rateLimitId = some cfg)
    (hr : 0 < cfg.rateBpsU) (hh : cfg.horizonNs = hgHorizonNs) (n : ℕ) :
    UploadAccepted rates cs calls n ↔ (uploadOutcome rates cs calls n).stamp.isSome = true := by
  rw [UploadAccepted, uploadOutcome_eq hcfg hr hh n]
  split
  · simp
  · simp

/-- An upload is accepted exactly when the exact pacer admits it, and its stamp is
    the exact departure time. -/
theorem upload_stamp_iff (hcfg : rates.lookup cs.rateLimitId = some cfg)
    (hr : 0 < cfg.rateBpsU) (hh : cfg.horizonNs = hgHorizonNs)
    (hstart : cs.lastUTstamp.toNat < 2 ^ 63) (hnow : ∀ n, (calls n).now.toNat < 2 ^ 63) (n : ℕ) :
    (UploadAccepted rates cs calls n ↔
        Pacing.AdmittedAt hgHorizonNs.toNat cs.lastUTstamp.toNat
          (uploadArrivals calls cfg.rateBpsU) n) ∧
      ∀ t, (uploadOutcome rates cs calls n).stamp = some t →
        t.toNat = Pacing.next
          (Pacing.lastAt hgHorizonNs.toNat cs.lastUTstamp.toNat (uploadArrivals calls cfg.rateBpsU) n)
          (calls n).now.toNat ((calls n).delay cfg.rateBpsU) := by
  obtain ⟨hlast, hbound⟩ := uploadClient_refines hcfg hr hh hstart hnow n
  have hcheck := horizon_check_iff (r := cfg.rateBpsU) (hnow n) hbound
  rw [UploadAccepted, Pacing.AdmittedAt, uploadArrivals, ← hlast, uploadOutcome_eq hcfg hr hh n]
  by_cases hadm : Pacing.Admits hgHorizonNs.toNat
      (uploadClient rates cs calls n).lastUTstamp.toNat (calls n).now.toNat
      ((calls n).delay cfg.rateBpsU)
  · rw [if_neg (by rw [hcheck]; exact not_not.mpr hadm)]
    refine ⟨by simp [hadm], ?_⟩
    intro t ht
    obtain rfl := Option.some.inj ht
    exact toNat_edtNext (hnow n) hbound
  · rw [if_pos (hcheck.mpr hadm)]
    exact ⟨by simp [hadm], by simp⟩

/-- Upload shaping at any positive rate with the default horizon: nothing wraps, a packet is
    accepted exactly with a stamp, stamps lead by at most the horizon, drops charge nothing, and
    the accepted packets conform to the rate over every window. -/
theorem upload_conforms (hcfg : rates.lookup cs.rateLimitId = some cfg)
    (hr : 0 < cfg.rateBpsU) (hh : cfg.horizonNs = hgHorizonNs)
    (hstart : cs.lastUTstamp.toNat < 2 ^ 63) (hnow : ∀ n, (calls n).now.toNat < 2 ^ 63) :
    UploadConforms rates cs calls cfg.rateBpsU := by
  have hstamp := upload_stamp_iff hcfg hr hh hstart hnow
  have haccepted : ∀ n, UploadAccepted rates cs calls n ↔
      (uploadOutcome rates cs calls n).stamp.isSome = true := uploadAccepted_iff_stamp hcfg hr hh
  have hlead : ∀ n t, (uploadOutcome rates cs calls n).stamp = some t →
      (calls n).now.toNat ≤ t.toNat ∧ t.toNat ≤ (calls n).now.toNat + hgHorizonNs.toNat := by
    intro n t ht
    have hadm := (hstamp n).1.mp ((haccepted n).mpr (by rw [ht]; rfl))
    rw [(hstamp n).2 t ht]
    exact ⟨Pacing.now_le_next (Nat.zero_le _), hadm⟩
  have hsum : ∀ i j ti tj, i < j → (uploadOutcome rates cs calls i).stamp = some ti →
      (uploadOutcome rates cs calls j).stamp = some tj →
      ti.toNat + ∑ k ∈ Finset.Ioc i j with UploadAccepted rates cs calls k,
        (calls k).delay cfg.rateBpsU ≤ tj.toNat := by
    intro i j ti tj hij hi hj
    have hadmI := (hstamp i).1.mp ((haccepted i).mpr (by rw [hi]; rfl))
    have hadmJ := (hstamp j).1.mp ((haccepted j).mpr (by rw [hj]; rfl))
    rw [(hstamp i).2 ti hi, (hstamp j).2 tj hj, Finset.filter_congr fun k _ => (hstamp k).1]
    exact Pacing.next_add_sum_le_next hij hadmI hadmJ
  refine ⟨fun n => edtNoWrap_of_bounds (hnow n) (uploadClient_refines hcfg hr hh hstart hnow n).2,
    haccepted, hlead, ?_, hsum, ?_⟩
  · intro n hshot
    have hstep : uploadClient rates cs calls (n + 1) = (uploadOutcome rates cs calls n).client := rfl
    rw [hstep]
    rw [uploadOutcome_eq hcfg hr hh n] at hshot ⊢
    split at hshot
    · next hdrop => rw [if_pos hdrop]
    · cases hshot
  · intro i j hij hi hj
    obtain ⟨ti, hti⟩ := Option.isSome_iff_exists.mp ((haccepted i).mp hi)
    obtain ⟨tj, htj⟩ := Option.isSome_iff_exists.mp ((haccepted j).mp hj)
    have h := hsum i j ti tj hij hti htj
    have hlo := (hlead i ti hti).1
    have hhi := (hlead j tj htj).2
    omega

end

/-- The guarantee at a concrete profile: 1 Mbit/s, with packets that arrive out of order. -/
theorem upload_conforms_megabit :
    UploadConforms (BoundedMap.empty.put 7 ⟨0, 125000, hgHorizonNs⟩)
      ⟨0, 0, 5, 7, 5, 5⟩ (fun n => ⟨1500, if n % 2 = 0 then 1000 else 900⟩) 125000 :=
  @upload_conforms _ _ _ ⟨0, 125000, hgHorizonNs⟩ (by rfl) (by decide) rfl (by decide)
    (by intro n; dsimp only; split <;> decide)

end HawkGate
