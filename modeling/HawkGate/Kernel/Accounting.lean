-- SUMMARY: Traffic accounting: the packets that the authenticated path forwards, and where they are counted.
import HawkGate.Kernel.Stages
import HawkGate.Lib.Sharded
import Mathlib.Data.UInt

/-!
# Accounting

A counter of an address holds on every CPU the bytes and packets that this CPU
has forwarded for it. A packet that the authenticated path forwards is posted to
the slot of its CPU, and no other packet is.
-/

namespace HawkGate

open Bytes HawkGate.Frame Sharded

variable {ncpu : Nat}

/-- Bytes and packets, for uploads and for downloads. -/
abbrev Usage := (UInt64 × UInt64) × (UInt64 × UInt64)

def HgCounter.usage (c : HgCounter) : Usage := ((c.uBytes, c.uPackets), (c.dBytes, c.dPackets))

/-- The usage of one upload. -/
def uploadUsage (len : UInt32) : Usage := ((len.toUInt64, 1), 0)

/-- The usage of one download. -/
def downloadUsage (len : UInt32) : Usage := (0, (len.toUInt64, 1))

/-- The usage counted for an address, on every CPU. -/
abbrev HgMaps.usage (s : HgMaps ncpu) : IpAddr → Option (Fin ncpu → Usage) :=
  s.counted HgCounter.usage

/-! ## Forwarded packets -/

def IngressStage.isSession : IngressStage → Bool
  | .session _ => true
  | _ => false

def EgressStage.isSession : EgressStage → Bool
  | .session _ _ => true
  | _ => false

/-- The authenticated path of ingress forwards a packet from the address. -/
def ForwardsUpload (env : BpfEnv ncpu) (s : HgMaps ncpu) (skb : SkBuff) (ip : IpAddr) : Prop :=
  (s.ingressStage skb.data).isSession = true ∧ saddr skb.data = ip ∧
    (hgTcIngress env s skb).verdict ≠ .shot

/-- The authenticated path of egress forwards a packet to the address. -/
def ForwardsDownload (env : BpfEnv ncpu) (s : HgMaps ncpu) (skb : SkBuff) (ip : IpAddr) : Prop :=
  (s.egressStage skb.data).isSession = true ∧ daddr skb.data = ip ∧
    (hgTcEgress env s skb).verdict ≠ .shot

instance (env : BpfEnv ncpu) (s : HgMaps ncpu) (skb : SkBuff) (ip : IpAddr) :
    Decidable (ForwardsUpload env s skb ip) := inferInstanceAs (Decidable (_ ∧ _ ∧ _))

instance (env : BpfEnv ncpu) (s : HgMaps ncpu) (skb : SkBuff) (ip : IpAddr) :
    Decidable (ForwardsDownload env s skb ip) := inferInstanceAs (Decidable (_ ∧ _ ∧ _))

/-- The lengths of the packets from the address that an ingress step forwards. -/
def ingressUploads (env : BpfEnv ncpu) (s : HgMaps ncpu) (skb : SkBuff) (ip : IpAddr) :
    List UInt32 :=
  if ForwardsUpload env s skb ip then [skb.len] else []

/-- The lengths of the packets to the address that an egress step forwards. -/
def egressDownloads (env : BpfEnv ncpu) (s : HgMaps ncpu) (skb : SkBuff) (ip : IpAddr) :
    List UInt32 :=
  if ForwardsDownload env s skb ip then [skb.len] else []

/-! ## Counting -/

/-- Counting on one CPU posts to its slot. -/
theorem HgMaps.usage_modifyCounter {s : HgMaps ncpu} {cpu : Fin ncpu} {ip : IpAddr}
    {f : HgCounter → HgCounter} {d : Usage} (hf : ∀ c, (f c).usage = c.usage + d) :
    (s.modifyCounter cpu ip f).usage ip = (s.usage ip).map fun u => post u [(cpu, d)] := by
  simp only [HgMaps.counted, HgMaps.modifyCounter, BoundedMap.lookup_modify, if_true,
    Option.map_map]
  congr 1
  funext c i
  by_cases hi : i = cpu
  · subst hi
    simp [post, hf]
  · simp [post, hi]

theorem usage_countUpload (len : UInt32) (now : UInt64) (c : HgCounter) :
    (c.countUpload len now).usage = c.usage + uploadUsage len := by
  simp [HgCounter.usage, HgCounter.countUpload, uploadUsage]

theorem usage_countDownload (len : UInt32) (c : HgCounter) :
    (c.countDownload len).usage = c.usage + downloadUsage len := by
  simp [HgCounter.usage, HgCounter.countDownload, downloadUsage]

/-- What a hook does to the usage: if it forwards, it counts `d` for `a` on its CPU, and otherwise
    it counts nothing. -/
def CountsIf (forwards : Prop) (cpu : Fin ncpu) (a : IpAddr) (d : Usage) (s s' : HgMaps ncpu) :
    Prop :=
  (forwards ∧ ∃ (t : HgMaps ncpu) (f : HgCounter → HgCounter), t.usage = s.usage ∧
    s' = t.modifyCounter cpu a f ∧ ∀ c, (f c).usage = c.usage + d) ∨
  (¬ forwards ∧ s'.usage = s.usage)

/-- Such a hook posts the packet that it forwards for an address, and nothing else. -/
theorem CountsIf.posts {forwards : Prop} {cpu : Fin ncpu} {a ip : IpAddr} {len : UInt32}
    {of : UInt32 → Usage} {s s' : HgMaps ncpu} (h : CountsIf forwards cpu a (of len) s s')
    {P : Prop} [Decidable P] (hP : P ↔ forwards ∧ a = ip) :
    s'.usage ip = (s.usage ip).map fun u =>
      post u ((if P then [len] else []).map fun len => (cpu, of len)) := by
  rcases h with ⟨hforwards, t, f, ht, rfl, hf⟩ | ⟨hdrops, hkeep⟩
  · -- a packet of another address is counted, but not here
    by_cases hip : a = ip
    · subst hip
      rw [if_pos (hP.mpr ⟨hforwards, rfl⟩), HgMaps.usage_modifyCounter hf, ht]
      rfl
    · rw [if_neg fun h => hip (hP.mp h).2, ← ht, HgMaps.usage,
        HgMaps.counted_modifyCounter_ne (Ne.symm hip)]
      exact Option.map_id'.symm
  · rw [if_neg fun h => hdrops (hP.mp h).1, hkeep]
    exact Option.map_id'.symm

/-! ## Ingress -/

theorem HgMaps.uploadVerdict_ne_shot (s : HgMaps ncpu) : s.uploadVerdict ≠ .shot := by
  unfold HgMaps.uploadVerdict
  split
  · split
    · exact TcAct.noConfusion
    · exact TcAct.noConfusion
  · exact TcAct.noConfusion

theorem usage_expireClient (s : HgMaps ncpu) (env : BpfEnv ncpu) (m : HgMacKey) (ip : IpAddr) :
    (s.expireClient env m ip).usage = s.usage := by
  rw [HgMaps.expireClient, HgMaps.usage, HgMaps.counted_modifyCounter]
  · cases env.deleteClient with
    | true => rfl
    | false => rfl
  · intro c
    rfl

/-- The session stage of ingress drops a packet without counting it, or counts it. -/
theorem ingressSession_usage (env : BpfEnv ncpu) (s : HgMaps ncpu) (skb : SkBuff) (m : HgMacKey)
    (ip : IpAddr) (auth : HgClient) :
    ((ingressSession env s skb m ip auth).verdict = .shot ∧
        (ingressSession env s skb m ip auth).maps.usage = s.usage) ∨
      ((ingressSession env s skb m ip auth).verdict ≠ .shot ∧ ∃ cs,
        (ingressSession env s skb m ip auth).maps =
          (s.writeClient m cs).modifyCounter env.cpu ip
            (HgCounter.countUpload skb.len env.ktimeNs)) := by
  unfold ingressSession
  split
  · exact Or.inl ⟨rfl, usage_expireClient s env m ip⟩
  · dsimp only
    split
    · exact Or.inl ⟨rfl, rfl⟩
    · split
      · exact Or.inl ⟨rfl, rfl⟩
      · exact Or.inr ⟨HgMaps.uploadVerdict_ne_shot _, _, rfl⟩

/-- A stage without a session counts nothing. -/
theorem usage_ingressResult {st : IngressStage} (hst : st.isSession = false) (env : BpfEnv ncpu)
    (s : HgMaps ncpu) (skb : SkBuff) : (st.result env s skb).maps.usage = s.usage := by
  cases st with
  | session auth => cases hst
  | portal cfg =>
    simp only [IngressStage.result, portalGate]
    split
    · rfl
    · rfl
  | redirect cfg =>
    rcases (redirectToPortal_maps env s skb.data cfg).2 with h | ⟨k, v, h⟩
    · rw [IngressStage.result, h]
    · rw [IngressStage.result, h, HgMaps.trackFlow_frame]
      rfl
  | _ => rfl

theorem countsIf_hgTcIngress (env : BpfEnv ncpu) (s : HgMaps ncpu) (skb : SkBuff) :
    CountsIf ((s.ingressStage skb.data).isSession = true ∧ (hgTcIngress env s skb).verdict ≠ .shot)
      env.cpu (saddr skb.data) (uploadUsage skb.len) s (hgTcIngress env s skb).maps := by
  have hbind : (s.bindFrame env skb.data).usage = s.usage := s.counted_bindFrame env _ skb.data
  rw [hgTcIngress_eq_stage]
  cases s.ingressStage skb.data with
  | session auth =>
    rcases ingressSession_usage env (s.bindFrame env skb.data) skb (hSource skb.data)
      (saddr skb.data) auth with ⟨hshot, husage⟩ | ⟨hpass, cs, hmaps⟩
    · exact Or.inr ⟨fun h => h.2 hshot, husage.trans hbind⟩
    · exact Or.inl ⟨⟨rfl, hpass⟩, (s.bindFrame env skb.data).writeClient (hSource skb.data) cs, _,
        hbind, hmaps, usage_countUpload skb.len env.ktimeNs⟩
  | _ =>
    refine Or.inr ⟨fun h => Bool.false_ne_true h.1, ?_⟩
    rw [usage_ingressResult rfl, hbind]

/-- Ingress posts the packet that it forwards for an address, and nothing else. -/
theorem usage_hgTcIngress (env : BpfEnv ncpu) (s : HgMaps ncpu) (skb : SkBuff) (ip : IpAddr) :
    (hgTcIngress env s skb).maps.usage ip = (s.usage ip).map fun u =>
      post u ((ingressUploads env s skb ip).map fun len => (env.cpu, uploadUsage len)) := by
  refine (countsIf_hgTcIngress env s skb).posts ?_
  rw [ForwardsUpload, and_assoc, and_comm (a := saddr skb.data = ip)]

/-! ## Egress -/

/-- The session stage of egress drops a packet without counting it, or counts it. -/
theorem egressSession_usage (env : BpfEnv ncpu) (s : HgMaps ncpu) (skb : SkBuff) (m : HgMacKey)
    (ip : IpAddr) (auth : HgClient) :
    ((egressSession env s skb m ip auth).verdict = .shot ∧
        (egressSession env s skb m ip auth).maps.usage = s.usage) ∨
      ((egressSession env s skb m ip auth).verdict ≠ .shot ∧ ∃ cs,
        (egressSession env s skb m ip auth).maps =
          (s.writeClient m cs).modifyCounter env.cpu ip (HgCounter.countDownload skb.len)) := by
  unfold egressSession
  dsimp only
  split
  · exact Or.inl ⟨rfl, rfl⟩
  · split
    · exact Or.inl ⟨rfl, rfl⟩
    · exact Or.inr ⟨TcAct.noConfusion, _, rfl⟩

/-- A stage without a session counts nothing. -/
theorem usage_egressResult {st : EgressStage} (hst : st.isSession = false) (env : BpfEnv ncpu)
    (s : HgMaps ncpu) (skb : SkBuff) : (st.result env s skb).maps.usage = s.usage := by
  cases st with
  | session m auth => cases hst
  | snat => rw [EgressStage.result, (snatFromConntrack_maps env s skb.data).2]
  | _ => rfl

theorem countsIf_hgTcEgress (env : BpfEnv ncpu) (s : HgMaps ncpu) (skb : SkBuff) :
    CountsIf ((s.egressStage skb.data).isSession = true ∧ (hgTcEgress env s skb).verdict ≠ .shot)
      env.cpu (daddr skb.data) (downloadUsage skb.len) s (hgTcEgress env s skb).maps := by
  rw [hgTcEgress_eq_stage]
  cases s.egressStage skb.data with
  | session m auth =>
    rcases egressSession_usage env s skb m (daddr skb.data) auth with
      ⟨hshot, husage⟩ | ⟨hpass, cs, hmaps⟩
    · exact Or.inr ⟨fun h => h.2 hshot, husage⟩
    · exact Or.inl ⟨⟨rfl, hpass⟩, s.writeClient m cs, _, rfl, hmaps, usage_countDownload skb.len⟩
  | _ => exact Or.inr ⟨fun h => Bool.false_ne_true h.1, usage_egressResult rfl env s skb⟩

/-- Egress posts the packet that it forwards to an address, and nothing else. -/
theorem usage_hgTcEgress (env : BpfEnv ncpu) (s : HgMaps ncpu) (skb : SkBuff) (ip : IpAddr) :
    (hgTcEgress env s skb).maps.usage ip = (s.usage ip).map fun u =>
      post u ((egressDownloads env s skb ip).map fun len => (env.cpu, downloadUsage len)) := by
  refine (countsIf_hgTcEgress env s skb).posts ?_
  rw [ForwardsDownload, and_assoc, and_comm (a := daddr skb.data = ip)]

/-! ## Other counters -/

/-- Two states that differ in the contents of the counters only. -/
structure SameKeys (s t : HgMaps ncpu) : Prop where
  rest : t = { s with counters := t.counters }
  keys : t.counters.keys = s.counters.keys

theorem SameKeys.refl (s : HgMaps ncpu) : SameKeys s s := ⟨rfl, rfl⟩

namespace SameKeys

variable {s t : HgMaps ncpu} (h : SameKeys s t)

include h

/-- What is read from the other maps is the same. -/
theorem reads {α : Type} (f : HgMaps ncpu → α)
    (hf : ∀ s c, f { s with counters := c } = f s) : f t = f s := by
  rw [h.rest, hf]

/-- A change that leaves the counters alone. -/
theorem map (f : HgMaps ncpu → HgMaps ncpu)
    (hf : ∀ s c, f { s with counters := c } = { f s with counters := c }) :
    SameKeys (f s) (f t) := by
  have hs : f s = { f s with counters := s.counters } := hf s s.counters
  have ht : f t = { f s with counters := t.counters } := by
    rw [← hf, ← h.rest]
  constructor
  · rw [ht]
  · rw [ht, hs]
    exact h.keys

theorem isNone_lookup (ip : IpAddr) :
    (t.counters.lookup ip).isNone = (s.counters.lookup ip).isNone := by
  rw [← Option.not_isSome, ← Option.not_isSome, Bool.not_inj_iff, Bool.eq_iff_iff,
    ← BoundedMap.mem_keys_iff, ← BoundedMap.mem_keys_iff, h.keys]

theorem modifyCounter (cpu cpu' : Fin ncpu) (ip : IpAddr) (f : HgCounter → HgCounter) :
    SameKeys (s.modifyCounter cpu ip f) (t.modifyCounter cpu' ip f) := by
  constructor
  · rw [h.rest]
    rfl
  · rw [HgMaps.modifyCounter, HgMaps.modifyCounter, BoundedMap.keys_modify, BoundedMap.keys_modify,
      h.keys]

theorem writeClient (m : HgMacKey) (cs : HgClient) :
    SameKeys (s.writeClient m cs) (t.writeClient m cs) :=
  h.map (fun s => s.writeClient m cs) fun _ _ => rfl

theorem expireClient (env : BpfEnv ncpu) (cpu : Fin ncpu) (m : HgMacKey) (ip : IpAddr) :
    SameKeys (s.expireClient env m ip) (t.expireClient { env with cpu := cpu } m ip) := by
  have herase : SameKeys (if env.deleteClient then { s with clients := s.clients.erase m } else s)
      (if env.deleteClient then { t with clients := t.clients.erase m } else t) := by
    split
    · exact h.map (fun s => { s with clients := s.clients.erase m }) fun _ _ => rfl
    · exact h
  unfold HgMaps.expireClient
  exact herase.modifyCounter env.cpu cpu ip _

theorem trackFlow (env : BpfEnv ncpu) (key : HgCtKey) (val : HgCtVal) :
    SameKeys (s.trackFlow env key val) (t.trackFlow env key val) := by
  refine h.map (fun s => s.trackFlow env key val) fun s c => ?_
  unfold HgMaps.trackFlow
  split
  · rfl
  · rfl

theorem bindFrame (env : BpfEnv ncpu) (d : Bytes) :
    SameKeys (s.bindFrame env d) (t.bindFrame env d) := by
  refine h.map (fun s => s.bindFrame env d) fun s c => ?_
  simp only [HgMaps.bindFrame, HgMaps.bindClient]
  split
  · split
    · rfl
    · split
      · rfl
      · rfl
  · rfl

end SameKeys

/-- The same result, but for the contents of the counters. -/
structure SameOutcome (r r' : TcResult ncpu) : Prop where
  verdict : r'.verdict = r.verdict
  maps : SameKeys r.maps r'.maps

section
variable {s t : HgMaps ncpu} (h : SameKeys s t) (env : BpfEnv ncpu) (cpu : Fin ncpu) (skb : SkBuff)

include h

theorem SameKeys.ingressSession (m : HgMacKey) (ip : IpAddr) (auth : HgClient) :
    SameOutcome (ingressSession env s skb m ip auth)
      (ingressSession { env with cpu := cpu } t skb m ip auth) := by
  have hrates : t.rates = s.rates := h.reads HgMaps.rates fun _ _ => rfl
  have hverdict : t.uploadVerdict = s.uploadVerdict := h.reads HgMaps.uploadVerdict fun _ _ => rfl
  unfold HawkGate.ingressSession
  dsimp only
  split
  · exact ⟨rfl, h.expireClient env cpu m ip⟩
  · rw [hrates]
    generalize applyEdtShaping s.rates env.edtKtimeNs skb.len auth true = edt
    have hw := h.writeClient m edt.client
    rw [hw.isNone_lookup]
    split
    · exact ⟨rfl, hw⟩
    · split
      · exact ⟨rfl, hw⟩
      · exact ⟨hverdict, hw.modifyCounter _ _ _ _⟩

theorem SameKeys.egressSession (m : HgMacKey) (ip : IpAddr) (auth : HgClient) :
    SameOutcome (egressSession env s skb m ip auth)
      (egressSession { env with cpu := cpu } t skb m ip auth) := by
  have hrates : t.rates = s.rates := h.reads HgMaps.rates fun _ _ => rfl
  unfold HawkGate.egressSession
  dsimp only
  rw [hrates]
  generalize applyEdtShaping s.rates env.edtKtimeNs skb.len auth false = edt
  have hw := h.writeClient m edt.client
  rw [hw.isNone_lookup]
  split
  · exact ⟨rfl, hw⟩
  · split
    · exact ⟨rfl, hw⟩
    · exact ⟨rfl, hw.modifyCounter _ _ _ _⟩

theorem SameKeys.ingressResult (st : IngressStage) :
    SameOutcome (st.result env s skb) (st.result { env with cpu := cpu } t skb) := by
  cases st with
  | session auth => exact h.ingressSession env cpu skb _ _ auth
  | portal cfg =>
    simp only [IngressStage.result, portalGate]
    split
    · exact ⟨rfl, h⟩
    · exact ⟨rfl, h⟩
  | redirect cfg =>
    obtain ⟨v, d', w, -, hrun⟩ := exists_redirect env skb.data cfg
    have hcpu : redirectToPortal { env with cpu := cpu } t skb.data cfg =
        redirectToPortal env t skb.data cfg := rfl
    rw [IngressStage.result, IngressStage.result, hcpu, hrun, hrun]
    cases w with
    | none => exact ⟨rfl, h⟩
    | some kv => exact ⟨rfl, h.trackFlow env kv.1 kv.2⟩
  | _ => exact ⟨rfl, h⟩

theorem SameKeys.egressResult (st : EgressStage) :
    SameOutcome (st.result env s skb) (st.result { env with cpu := cpu } t skb) := by
  cases st with
  | session m auth => exact h.egressSession env cpu skb m _ auth
  | snat =>
    have hct : t.conntrack = s.conntrack := h.reads HgMaps.conntrack fun _ _ => rfl
    obtain ⟨v, d', hrun⟩ := exists_snat env skb.data (s.conntrack.lookup (ctReplyKeyOf skb.data))
    have hcpu : snatFromConntrack { env with cpu := cpu } t skb.data =
        snatFromConntrack env t skb.data := rfl
    rw [EgressStage.result, EgressStage.result, hcpu, hrun s rfl, hrun t (by rw [hct])]
    exact ⟨rfl, h⟩
  | _ => exact ⟨rfl, h⟩

/-- On another CPU and with other counts ingress does the same. -/
theorem SameKeys.hgTcIngress :
    SameOutcome (hgTcIngress env s skb) (hgTcIngress { env with cpu := cpu } t skb) := by
  have hstage : t.ingressStage skb.data = s.ingressStage skb.data :=
    h.reads (fun s => s.ingressStage skb.data) fun _ _ => rfl
  rw [hgTcIngress_eq_stage, hgTcIngress_eq_stage, hstage]
  exact (h.bindFrame env skb.data).ingressResult env cpu skb _

/-- On another CPU and with other counts egress does the same. -/
theorem SameKeys.hgTcEgress :
    SameOutcome (hgTcEgress env s skb) (hgTcEgress { env with cpu := cpu } t skb) := by
  have hstage : t.egressStage skb.data = s.egressStage skb.data :=
    h.reads (fun s => s.egressStage skb.data) fun _ _ => rfl
  rw [hgTcEgress_eq_stage, hgTcEgress_eq_stage, hstage]
  exact h.egressResult env cpu skb _

theorem SameKeys.ingressUploads (ip : IpAddr) :
    ingressUploads { env with cpu := cpu } t skb ip = ingressUploads env s skb ip := by
  have hstage : t.ingressStage skb.data = s.ingressStage skb.data :=
    h.reads (fun s => s.ingressStage skb.data) fun _ _ => rfl
  refine if_congr ?_ rfl rfl
  rw [ForwardsUpload, ForwardsUpload, hstage, (h.hgTcIngress env cpu skb).verdict]

theorem SameKeys.egressDownloads (ip : IpAddr) :
    egressDownloads { env with cpu := cpu } t skb ip = egressDownloads env s skb ip := by
  have hstage : t.egressStage skb.data = s.egressStage skb.data :=
    h.reads (fun s => s.egressStage skb.data) fun _ _ => rfl
  refine if_congr ?_ rfl rfl
  rw [ForwardsDownload, ForwardsDownload, hstage, (h.hgTcEgress env cpu skb).verdict]

end

end HawkGate
