-- SUMMARY: The two TC hooks, `hg_tc_ingress` and `hg_tc_egress`, with their policy stages.
import HawkGate.Kernel.Portal

/-!
# The TC hooks

Each hook classifies the frame and then applies its policy stages in order. A
stage that is shared or long is a definition of its own, so that a lemma can
say what the stage does.
-/

namespace HawkGate

open Bytes HawkGate.Frame

variable {ncpu : Nat}

/-- Return a verdict for an unchanged, unstamped frame. -/
def TcResult.done (v : TcAct) (d : Bytes) (s : HgMaps ncpu) : TcResult ncpu := ⟨v, d, none, s⟩

/-! ## Pre-auth stages -/

/-- Five probes of the protocol allow-list, from exact to wide. -/
def protoAllowed (proto : BoundedMap HgAllowKey UInt8 64) (k : HgAllowKey) : Bool :=
  (proto.lookup k).isSome
    || (proto.lookup { k with proto := 0 }).isSome
    || (proto.lookup { k with sPort := 0 }).isSome
    || (proto.lookup { k with dPort := 0 }).isSome
    || (proto.lookup { k with sPort := 0, dPort := 0 }).isSome

/-- Steps 6 and 7 of the ingress policy: allow-list, walled garden, redirection. -/
def ingressPreauth (env : BpfEnv ncpu) (s : HgMaps ncpu) (d : Bytes) (key : HgAllowKey) :
    TcResult ncpu :=
  if protoAllowed s.proto key then .done .ok d s
  else if s.wgCovers (daddr d) then .done .ok d s
  else if key.proto ≠ ipprotoTcp ∨ key.dPort ≠ 80 then .done .shot d s
  else
    match s.portalCfg with
    | none => .done .ok d s
    | some cfg => redirectToPortal env s d cfg

/-- Steps 5 and 6 of the egress policy: allow-list and walled garden. -/
def egressPreauth (s : HgMaps ncpu) (d : Bytes) (key : HgAllowKey) : TcResult ncpu :=
  if protoAllowed s.proto key then .done .ok d s
  else if s.wgCovers (saddr d) then .done .ok d s
  else .done .shot d s

/-! ## Binding -/

/-- Step 3 of the ingress policy: record the sender's address in both binding
    maps, unless the forward map already has it. -/
def HgMaps.bindClient (s : HgMaps ncpu) (env : BpfEnv ncpu) (m : HgMacKey) (ip : IpAddr) :
    HgMaps ncpu :=
  if s.macIp.lookup m = some ip then s
  else
    { s with
      macIp := if env.updateMacIp then s.macIp.put m ip else s.macIp
      ipMac := if env.updateIpMac then s.ipMac.put ip m else s.ipMac }

section
variable (s : HgMaps ncpu) (env : BpfEnv ncpu) (m : HgMacKey) (ip : IpAddr)

/-- Binding writes nothing but the two binding maps. -/
theorem HgMaps.bindClient_frame :
    s.bindClient env m ip =
      { s with
        macIp := (s.bindClient env m ip).macIp
        ipMac := (s.bindClient env m ip).ipMac } := by
  unfold HgMaps.bindClient
  split <;> rfl

@[simp] theorem HgMaps.bindClient_clients : (s.bindClient env m ip).clients = s.clients := by
  rw [HgMaps.bindClient_frame]

@[simp] theorem HgMaps.bindClient_counters : (s.bindClient env m ip).counters = s.counters := by
  rw [HgMaps.bindClient_frame]

@[simp] theorem HgMaps.bindClient_rates : (s.bindClient env m ip).rates = s.rates := by
  rw [HgMaps.bindClient_frame]

@[simp] theorem HgMaps.bindClient_proto : (s.bindClient env m ip).proto = s.proto := by
  rw [HgMaps.bindClient_frame]

@[simp] theorem HgMaps.bindClient_portalCfg : (s.bindClient env m ip).portalCfg = s.portalCfg := by
  rw [HgMaps.bindClient_frame]

@[simp] theorem HgMaps.bindClient_bypass : (s.bindClient env m ip).bypass = s.bypass := by
  rw [HgMaps.bindClient_frame]

@[simp] theorem HgMaps.bindClient_conntrack : (s.bindClient env m ip).conntrack = s.conntrack := by
  rw [HgMaps.bindClient_frame]

@[simp] theorem HgMaps.bindClient_wgCovers (a : IpAddr) :
    (s.bindClient env m ip).wgCovers a = s.wgCovers a := by
  rw [HgMaps.bindClient_frame]
  rfl

end

/-- The portal owns the destination of the frame. -/
def HgMaps.toPortal (s : HgMaps ncpu) (d : Bytes) : Option HgPortalCfg :=
  s.portalCfg.filter fun cfg => daddr d = cfg.portalIp

/-- The portal owns the source of the frame. -/
def HgMaps.fromPortal (s : HgMaps ncpu) (d : Bytes) : Bool :=
  s.portalCfg.any fun cfg => saddr d = cfg.portalIp

/-- Step 4 of the ingress policy, for a frame to the portal. The port is read
    behind an IP header without options. -/
def portalGate (d : Bytes) (s : HgMaps ncpu) (cfg : HgPortalCfg) : TcResult ncpu :=
  let l4 := ethHLen + ipHLen
  if protocol d = ipprotoTcp ∧ l4 + tcpHLen ≤ d.length ∧ load16 d (l4 + 2) = cfg.portalPort then
    .done .ok d s
  else .done .shot d s

/-! ## Sessions -/

/-- Change the counter of one CPU. -/
def HgMaps.modifyCounter (s : HgMaps ncpu) (cpu : Fin ncpu) (ip : IpAddr)
    (f : HgCounter → HgCounter) : HgMaps ncpu :=
  { s with counters := s.counters.modify ip fun c => Function.update c cpu (f (c cpu)) }

/-- Write a client entry back in place. -/
def HgMaps.writeClient (s : HgMaps ncpu) (m : HgMacKey) (cs : HgClient) : HgMaps ncpu :=
  { s with clients := s.clients.modify m fun _ => cs }

def HgCounter.countUpload (len : UInt32) (now : UInt64) (c : HgCounter) : HgCounter :=
  { c with uPackets := c.uPackets + 1, uBytes := c.uBytes + len.toUInt64, lastSeen := now }

def HgCounter.countDownload (len : UInt32) (c : HgCounter) : HgCounter :=
  { c with dPackets := c.dPackets + 1, dBytes := c.dBytes + len.toUInt64 }

/-- The expiry branch of ingress: drop the session and mark the counter of the
    packet's address on this CPU. -/
def HgMaps.expireClient (s : HgMaps ncpu) (env : BpfEnv ncpu) (m : HgMacKey) (ip : IpAddr) :
    HgMaps ncpu :=
  let s₁ := if env.deleteClient then { s with clients := s.clients.erase m } else s
  s₁.modifyCounter env.cpu ip fun c => { c with state := ClientStatus.expire.code }

/-- The verdict of a forwarded upload: to the IFB if one is configured. -/
def HgMaps.uploadVerdict (s : HgMaps ncpu) : TcAct :=
  match s.ifbIdx with
  | some i => if i ≠ 0 then .redirect i else .ok
  | none => .ok

/-- Step 5 of the ingress policy: expiry, shaping, accounting. -/
def ingressSession (env : BpfEnv ncpu) (s : HgMaps ncpu) (skb : SkBuff) (m : HgMacKey)
    (ip : IpAddr) (auth : HgClient) : TcResult ncpu :=
  if auth.Expired env.ktimeNs then .done .shot skb.data (s.expireClient env m ip)
  else
    let edt := applyEdtShaping s.rates env.edtKtimeNs skb.len auth true
    let s₁ := s.writeClient m edt.client
    if edt.verdict = .shot then ⟨.shot, skb.data, edt.stamp, s₁⟩
    else if (s₁.counters.lookup ip).isNone then ⟨.shot, skb.data, edt.stamp, s₁⟩
    else
      ⟨s₁.uploadVerdict, skb.data, edt.stamp,
        s₁.modifyCounter env.cpu ip (HgCounter.countUpload skb.len env.ktimeNs)⟩

/-- Step 4 of the egress policy: shaping and accounting. -/
def egressSession (env : BpfEnv ncpu) (s : HgMaps ncpu) (skb : SkBuff) (m : HgMacKey)
    (ip : IpAddr) (auth : HgClient) : TcResult ncpu :=
  let edt := applyEdtShaping s.rates env.edtKtimeNs skb.len auth false
  let s₁ := s.writeClient m edt.client
  if edt.verdict = .shot then ⟨.shot, skb.data, edt.stamp, s₁⟩
  else if (s₁.counters.lookup ip).isNone then ⟨.shot, skb.data, edt.stamp, s₁⟩
  else ⟨.ok, skb.data, edt.stamp, s₁.modifyCounter env.cpu ip (HgCounter.countDownload skb.len)⟩

/-! ## The hooks -/

/-- Steps 4 to 7 of the ingress policy, after the binding step. -/
def ingressPolicy (env : BpfEnv ncpu) (s : HgMaps ncpu) (skb : SkBuff) (key : HgAllowKey) :
    TcResult ncpu :=
  match s.toPortal skb.data with
  | some cfg => portalGate skb.data s cfg
  | none =>
    match s.clients.lookup (hSource skb.data) with
    | some auth => ingressSession env s skb (hSource skb.data) (saddr skb.data) auth
    | none => ingressPreauth env s skb.data key

def hgTcIngress (env : BpfEnv ncpu) (s : HgMaps ncpu) (skb : SkBuff) : TcResult ncpu :=
  match filterProto skb.data with
  | .l2Only p => .done (if (s.l2Allow.lookup p).isSome then .ok else .shot) skb.data s
  | .invalid => .done .shot skb.data s
  | .l3Ok key =>
    if (s.bypass.lookup (saddr skb.data)).isSome then .done .ok skb.data s
    else ingressPolicy env (s.bindClient env (hSource skb.data) (saddr skb.data)) skb key

/-- The session that the egress hook finds for a destination. -/
def HgMaps.sessionOf (s : HgMaps ncpu) (ip : IpAddr) : Option (HgMacKey × HgClient) :=
  (s.ipMac.lookup ip).bind fun m => (s.clients.lookup m).map fun cs => (m, cs)

/-- Steps 3 to 6 of the egress policy. -/
def egressPolicy (env : BpfEnv ncpu) (s : HgMaps ncpu) (skb : SkBuff) (key : HgAllowKey) :
    TcResult ncpu :=
  if (s.bypass.lookup (daddr skb.data)).isSome then .done .ok skb.data s
  else
    match s.sessionOf (daddr skb.data) with
    | some (m, auth) => egressSession env s skb m (daddr skb.data) auth
    | none => egressPreauth s skb.data key

def hgTcEgress (env : BpfEnv ncpu) (s : HgMaps ncpu) (skb : SkBuff) : TcResult ncpu :=
  match filterProto skb.data with
  | .l2Only p => .done (if (s.l2Allow.lookup p).isSome then .ok else .shot) skb.data s
  | .invalid => .done .shot skb.data s
  | .l3Ok key =>
    if s.fromPortal skb.data then snatFromConntrack env s skb.data
    else egressPolicy env s skb key

/-! ## Which stage decides -/

@[simp] theorem HgMaps.bindClient_toPortal (s : HgMaps ncpu) (env : BpfEnv ncpu) (m : HgMacKey)
    (ip : IpAddr) (d : Bytes) : (s.bindClient env m ip).toPortal d = s.toPortal d := by
  rw [HgMaps.toPortal, HgMaps.bindClient_portalCfg, HgMaps.toPortal]

theorem HgMaps.toPortal_eq_none {s : HgMaps ncpu} {d : Bytes}
    (h : ∀ cfg, s.portalCfg = some cfg → daddr d ≠ cfg.portalIp) : s.toPortal d = none := by
  rw [HgMaps.toPortal]
  cases hcfg : s.portalCfg with
  | none => rfl
  | some cfg => simp [h cfg hcfg]

section
variable {env : BpfEnv ncpu} {s : HgMaps ncpu} {skb : SkBuff} {key : HgAllowKey}

theorem hgTcIngress_invalid (h : filterProto skb.data = .invalid) :
    hgTcIngress env s skb = .done .shot skb.data s := by
  rw [hgTcIngress, h]

/-- Past the bypass check, the policy runs on the maps after the binding step. -/
theorem hgTcIngress_l3Ok (h : filterProto skb.data = .l3Ok key)
    (hsrc : s.bypass.lookup (saddr skb.data) = none) :
    hgTcIngress env s skb =
      ingressPolicy env (s.bindClient env (hSource skb.data) (saddr skb.data)) skb key := by
  rw [hgTcIngress, h]
  simp only [hsrc, Option.isSome_none, Bool.false_eq_true, if_false]

/-- A client entry decides for every frame that is not for the portal. -/
theorem hgTcIngress_session {auth : HgClient} (h : filterProto skb.data = .l3Ok key)
    (hsrc : s.bypass.lookup (saddr skb.data) = none) (hdst : s.toPortal skb.data = none)
    (hauth : s.clients.lookup (hSource skb.data) = some auth) :
    hgTcIngress env s skb =
      ingressSession env (s.bindClient env (hSource skb.data) (saddr skb.data)) skb
        (hSource skb.data) (saddr skb.data) auth := by
  rw [hgTcIngress_l3Ok h hsrc, ingressPolicy, HgMaps.bindClient_toPortal, hdst,
    HgMaps.bindClient_clients, hauth]

/-- A frame from the portal is translated back and nothing else. -/
theorem hgTcEgress_fromPortal (h : filterProto skb.data = .l3Ok key)
    (hsrc : s.fromPortal skb.data = true) :
    hgTcEgress env s skb = snatFromConntrack env s skb.data := by
  rw [hgTcEgress, h]
  simp only [hsrc, if_true]

/-- Without a client entry the pre-auth stages decide. -/
theorem hgTcIngress_preauth (h : filterProto skb.data = .l3Ok key)
    (hsrc : s.bypass.lookup (saddr skb.data) = none) (hdst : s.toPortal skb.data = none)
    (hauth : s.clients.lookup (hSource skb.data) = none) :
    hgTcIngress env s skb =
      ingressPreauth env (s.bindClient env (hSource skb.data) (saddr skb.data)) skb.data key := by
  rw [hgTcIngress_l3Ok h hsrc, ingressPolicy, HgMaps.bindClient_toPortal, hdst,
    HgMaps.bindClient_clients, hauth]

end

end HawkGate
