-- SUMMARY: EDT shaping: the departure stamp of a packet and the client state it leaves behind.
import HawkGate.Kernel.Common

namespace HawkGate

/-- What a TC program returns: `TC_ACT_OK`, `TC_ACT_SHOT`, or the code of a
    successful `bpf_redirect` to an interface. -/
inductive TcAct where
  | ok
  | shot
  | redirect (ifindex : UInt32)
  deriving DecidableEq

/-- The configured rate of one direction. -/
def HgRateCfg.rate (cfg : HgRateCfg) (isUpload : Bool) : UInt64 :=
  if isUpload then cfg.rateBpsU else cfg.rateBpsD

/-- The last departure stamp of one direction. -/
def HgClient.lastTstamp (cs : HgClient) (isUpload : Bool) : UInt64 :=
  if isUpload then cs.lastUTstamp else cs.lastDTstamp

def HgClient.setTstamp (cs : HgClient) (isUpload : Bool) (t : UInt64) : HgClient :=
  if isUpload then { cs with lastUTstamp := t } else { cs with lastDTstamp := t }

/-- Serialisation time of `len` bytes at `rate` bytes per second. -/
def edtDelay (len : UInt32) (rate : UInt64) : UInt64 :=
  len.toUInt64 * nsecPerSec / rate

def edtNext (now last delay : UInt64) : UInt64 :=
  if last < now then now + delay else last + delay

/-- The outcome of shaping one packet: the verdict, the client entry after the
    update, and the stamp given to `bpf_skb_set_tstamp` if it was called. -/
structure EdtOutcome where
  verdict : TcAct
  client : HgClient
  stamp : Option UInt64

/-- Stamp a packet with its departure time. Uploads further ahead than the
    profile's horizon are dropped; downloads never are. -/
def applyEdtShaping (rates : BoundedMap UInt32 HgRateCfg 256) (now : UInt64) (len : UInt32)
    (cs : HgClient) (isUpload : Bool) : EdtOutcome :=
  match rates.lookup cs.rateLimitId with
  | none => ⟨.ok, cs, none⟩
  | some cfg =>
    let rate := cfg.rate isUpload
    if rate = 0 then ⟨.ok, cs, none⟩
    else
      let next := edtNext now (cs.lastTstamp isUpload) (edtDelay len rate)
      if isUpload ∧ cfg.horizonNs < next - now then ⟨.shot, cs, none⟩
      else ⟨.ok, cs.setTstamp isUpload next, some next⟩

/-- The rate that shaping applies to a client in one direction; 0 is no limit. -/
def appliedRate (rates : BoundedMap UInt32 HgRateCfg 256) (cs : HgClient) (isUpload : Bool) :
    UInt64 :=
  (rates.lookup cs.rateLimitId).elim 0 fun cfg => cfg.rate isUpload

/-! ## What shaping keeps -/

@[simp] theorem HgClient.setTstamp_rateLimitId (cs : HgClient) (up : Bool) (t : UInt64) :
    (cs.setTstamp up t).rateLimitId = cs.rateLimitId := by
  cases up <;> rfl

@[simp] theorem HgClient.setTstamp_lastUTstamp (cs : HgClient) (t : UInt64) :
    (cs.setTstamp true t).lastUTstamp = t := rfl

section
variable (rates : BoundedMap UInt32 HgRateCfg 256) (now : UInt64) (len : UInt32) (cs : HgClient)
  (up : Bool)

/-- Shaping changes nothing but the departure stamp of its direction. -/
theorem applyEdtShaping_client :
    (applyEdtShaping rates now len cs up).client = cs ∨
      ∃ t, (applyEdtShaping rates now len cs up).client = cs.setTstamp up t := by
  unfold applyEdtShaping
  split
  · exact Or.inl rfl
  · dsimp only
    split
    · exact Or.inl rfl
    · split
      · exact Or.inl rfl
      · exact Or.inr ⟨_, rfl⟩

@[simp] theorem applyEdtShaping_rateLimitId :
    (applyEdtShaping rates now len cs up).client.rateLimitId = cs.rateLimitId := by
  rcases applyEdtShaping_client rates now len cs up with h | ⟨t, h⟩ <;> simp [h]

/-- Only uploads can be dropped. -/
theorem applyEdtShaping_download_ok :
    (applyEdtShaping rates now len cs false).verdict = .ok := by
  unfold applyEdtShaping
  split
  · rfl
  · dsimp only
    split
    · rfl
    · rfl

/-- Shaping by the applied rate. -/
theorem applyEdtShaping_eq :
    applyEdtShaping rates now len cs up =
      if appliedRate rates cs up = 0 then ⟨.ok, cs, none⟩
      else
        let next := edtNext now (cs.lastTstamp up) (edtDelay len (appliedRate rates cs up))
        if up ∧ (rates.lookup cs.rateLimitId).elim 0 HgRateCfg.horizonNs < next - now then
          ⟨.shot, cs, none⟩
        else ⟨.ok, cs.setTstamp up next, some next⟩ := by
  unfold applyEdtShaping appliedRate
  cases rates.lookup cs.rateLimitId with
  | none => rfl
  | some cfg => rfl

/-- A download is left unstamped exactly when its direction has no rate. -/
theorem applyEdtShaping_download_stamp :
    (applyEdtShaping rates now len cs false).stamp = none ↔
      (rates.lookup cs.rateLimitId).elim 0 HgRateCfg.rateBpsD = 0 := by
  have hrate : (rates.lookup cs.rateLimitId).elim 0 HgRateCfg.rateBpsD =
      appliedRate rates cs false := rfl
  rw [applyEdtShaping_eq, hrate]
  split
  · next h => simp [h]
  · next h => simp [h]

end

end HawkGate
