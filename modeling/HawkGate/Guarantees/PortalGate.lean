-- SUMMARY: What reaches the portal's own address: the gate on its port, and the pre-auth protocols that the gate cuts off.
import HawkGate.Kernel.Hooks

/-!
# The portal gate

A frame to the portal's address is decided before sessions and pre-auth lists
are looked at. Only TCP to the portal's port passes, but the gate reads that port
behind an IP header without options, while the classification of the frame finds
it behind the header that the frame states.
-/

namespace HawkGate

open Bytes HawkGate.Frame

variable {ncpu : Nat}

/-! ## The port behind IP options -/

/-- Where the gate reads the destination port. -/
def gatePortOff : Nat := ethHLen + ipHLen + 2

/-- A complete TCP frame to the portal's address from a source that is not bypassed. -/
structure PortalFrame (s : HgMaps ncpu) (d : Bytes) (cfg : HgPortalCfg) : Prop where
  portal : s.portalCfg = some cfg
  version : (load8 d ethHLen).toNat / 16 = 4
  complete : CompleteTcp d
  dst : daddr d = cfg.portalIp
  notBypassed : s.bypass.lookup (saddr d) = none

/-- Ingress passes the frame if its TCP header names the portal's port, and drops it otherwise. -/
def GateExact (env : BpfEnv ncpu) (s : HgMaps ncpu) (skb : SkBuff) (cfg : HgPortalCfg) : Prop :=
  ((hgTcIngress env s skb).verdict = .ok ↔ dest skb.data = cfg.portalPort) ∧
    (dest skb.data ≠ cfg.portalPort → (hgTcIngress env s skb).verdict = .shot)

theorem HgMaps.toPortal_eq_some {s : HgMaps ncpu} {d : Bytes} {cfg : HgPortalCfg}
    (hcfg : s.portalCfg = some cfg) (hdst : daddr d = cfg.portalIp) :
    s.toPortal d = some cfg := by
  rw [HgMaps.toPortal, hcfg]
  simpa using hdst

/-- The gate decides every classified frame to the portal's address. -/
theorem hgTcIngress_toPortal {env : BpfEnv ncpu} {s : HgMaps ncpu} {skb : SkBuff}
    {key : HgAllowKey} {cfg : HgPortalCfg} (h : filterProto skb.data = .l3Ok key)
    (hsrc : s.bypass.lookup (saddr skb.data) = none) (hcfg : s.portalCfg = some cfg)
    (hdst : daddr skb.data = cfg.portalIp) :
    hgTcIngress env s skb =
      portalGate skb.data (s.bindClient env (hSource skb.data) (saddr skb.data)) cfg := by
  rw [hgTcIngress_l3Ok h hsrc, ingressPolicy, HgMaps.bindClient_toPortal,
    HgMaps.toPortal_eq_some hcfg hdst]

/-- The gate passes a complete TCP frame exactly if the word it reads is the portal's port. -/
theorem PortalFrame.verdict {env : BpfEnv ncpu} {s : HgMaps ncpu} {skb : SkBuff}
    {cfg : HgPortalCfg} (h : PortalFrame s skb.data cfg) :
    (hgTcIngress env s skb).verdict =
      if load16 skb.data gatePortOff = cfg.portalPort then .ok else .shot := by
  obtain ⟨key, hkey⟩ := h.complete.exists_l3Ok
  have hlen := h.complete.length_ge
  have hroom : ethHLen + ipHLen + tcpHLen ≤ skb.data.length := hlen
  rw [hgTcIngress_toPortal hkey h.notBypassed h.portal h.dst]
  have hoff : ethHLen + ipHLen + 2 = gatePortOff := rfl
  simp only [portalGate, h.complete.tcp, hroom, true_and, hoff]
  split
  · rfl
  · rfl

/-- The gate enforces the portal's port exactly when the word it reads and the destination port
    of the frame are both that port or both another one. -/
theorem gate_exact_iff {env : BpfEnv ncpu} {s : HgMaps ncpu} {skb : SkBuff} {cfg : HgPortalCfg}
    (h : PortalFrame s skb.data cfg) :
    GateExact env s skb cfg ↔
      (load16 skb.data gatePortOff = cfg.portalPort ↔ dest skb.data = cfg.portalPort) := by
  rw [GateExact, h.verdict]
  by_cases hword : load16 skb.data gatePortOff = cfg.portalPort
  · simp [hword]
  · simp [hword]

/-- Without options the gate reads the destination port. -/
theorem load16_gatePortOff {d : Bytes} (h : ihl d = 5) : load16 d gatePortOff = dest d := by
  simp only [dest, l4Off, h, gatePortOff, ethHLen, ipHLen]

/-- A TCP frame from `saddr` to `daddr` with one word of IP options. -/
def optionFrame (m : HgMacKey) (saddr daddr : IpAddr) (option : UInt32) (sPort dPort : UInt16) :
    Bytes :=
  List.replicate 6 0 ++ m.mac.toList ++ [0x08, 0x00]
    ++ [0x46, 0, 0, 44, 0, 0, 0, 0, 64, 6, 0, 0] ++ ofU32 saddr ++ ofU32 daddr ++ ofU32 option
    ++ ofU16 (swap16 sPort) ++ ofU16 (swap16 dPort)
    ++ [0, 0, 0, 0, 0, 0, 0, 0, 0x50, 0x10, 0, 0, 0, 0, 0, 0]

/-- The gate is exact for a frame without options. -/
theorem gate_exact_without_options :
    GateExact (.good 0 0) (.start 1 .standard 0)
      ⟨tcpFrame (localMac 1) (addrOfOctets 192 168 99 82) (addrOfOctets 192 168 99 1) 40000 2050,
        54⟩ .standard :=
  (gate_exact_iff ⟨rfl, by decide, ⟨by decide, by decide, by decide, by decide⟩, by decide,
    by decide⟩).mpr (by decide)

/-- A client reaches port 22 of the gateway with option bytes that hold the portal's port. -/
theorem gate_passes_option_bytes :
    let skb : SkBuff :=
      ⟨optionFrame (localMac 1) (addrOfOctets 192 168 99 82) (addrOfOctets 192 168 99 1)
        0x02080101 40000 22, 58⟩
    PortalFrame (.start 1 .standard 0) skb.data .standard ∧
      dest skb.data = swap16 22 ∧
      (hgTcIngress (.good 0 0) (.start 1 .standard 0) skb).verdict = .ok ∧
      ¬ GateExact (.good 0 0) (.start 1 .standard 0) skb .standard := by
  intro skb
  have hframe : PortalFrame (.start 1 .standard 0) skb.data .standard :=
    ⟨rfl, by decide, ⟨by decide, by decide, by decide, by decide⟩, by decide, by decide⟩
  refine ⟨hframe, by decide, by decide, fun hexact => ?_⟩
  exact absurd (hexact.1.mp (by decide)) (by decide)

/-! ## Pre-auth protocols of the gateway -/

/-- A UDP frame from `m` without IP options or payload; the ports are in host order. -/
def udpFrame (m : HgMacKey) (saddr daddr : IpAddr) (sPort dPort : UInt16) : Bytes :=
  List.replicate 6 0 ++ m.mac.toList ++ [0x08, 0x00]
    ++ [0x45, 0, 0, 28, 0, 0, 0, 0, 64, 17, 0, 0] ++ ofU32 saddr ++ ofU32 daddr
    ++ ofU16 (swap16 sPort) ++ ofU16 (swap16 dPort) ++ [0, 8, 0, 0]

/-- A classified frame of a client without an entry that an installed rule allows. -/
structure PreauthFrame (s : HgMaps ncpu) (d : Bytes) (cfg : HgPortalCfg) : Prop where
  portal : s.portalCfg = some cfg
  unknown : s.clients.lookup (hSource d) = none
  allowed : ∃ key, filterProto d = .l3Ok key ∧ protoAllowed s.proto key = true

/-- Away from the portal's address the allow-list decides for such a frame, and a bypassed
    source passes in any case. -/
theorem PreauthFrame.verdict_ok {s : HgMaps ncpu} {skb : SkBuff} {cfg : HgPortalCfg}
    (h : PreauthFrame s skb.data cfg) (env : BpfEnv ncpu)
    (haway : daddr skb.data ≠ cfg.portalIp ∨ (s.bypass.lookup (saddr skb.data)).isSome = true) :
    (hgTcIngress env s skb).verdict = .ok := by
  obtain ⟨key, hkey, hallow⟩ := h.allowed
  cases hsrc : s.bypass.lookup (saddr skb.data) with
  | some b =>
    rw [hgTcIngress, hkey]
    simp [hsrc, TcResult.done]
  | none =>
    have hdst : daddr skb.data ≠ cfg.portalIp := by simpa [hsrc] using haway
    have hportal : s.toPortal skb.data = none := by
      apply HgMaps.toPortal_eq_none
      intro c hc
      obtain rfl := Option.some.inj (h.portal.symm.trans hc)
      exact hdst
    rw [hgTcIngress_preauth hkey hsrc hportal h.unknown, ingressPreauth, HgMaps.bindClient_proto,
      if_pos hallow]
    rfl

/-- A pre-auth protocol works for a client before login with every destination but the portal's
    address. There the gate decides first: it drops what is not TCP, and lets TCP without
    options through to the portal's port alone. -/
theorem preauth_passes_off_portal {s : HgMaps ncpu} {skb : SkBuff} {cfg : HgPortalCfg}
    (h : PreauthFrame s skb.data cfg) (env : BpfEnv ncpu) :
    (daddr skb.data ≠ cfg.portalIp ∨ (s.bypass.lookup (saddr skb.data)).isSome = true →
        (hgTcIngress env s skb).verdict = .ok) ∧
      (daddr skb.data = cfg.portalIp → s.bypass.lookup (saddr skb.data) = none →
        (protocol skb.data ≠ ipprotoTcp → (hgTcIngress env s skb).verdict = .shot) ∧
        (protocol skb.data = ipprotoTcp → ihl skb.data = 5 →
          (hgTcIngress env s skb).verdict =
            if dest skb.data = cfg.portalPort then .ok else .shot)) := by
  refine ⟨h.verdict_ok env, fun hdst hsrc => ?_⟩
  obtain ⟨key, hkey, -⟩ := h.allowed
  rw [hgTcIngress_toPortal hkey hsrc h.portal hdst]
  constructor
  · intro htcp
    simp only [portalGate, htcp, false_and, if_false]
    rfl
  · intro htcp hihl
    have hroom : ethHLen + ipHLen + tcpHLen ≤ skb.data.length := by
      have hlen := (filterProto_l3Ok_tcp hkey htcp).1
      simpa [l4Off, hihl, ethHLen, ipHLen] using hlen
    have hoff : ethHLen + ipHLen + 2 = gatePortOff := rfl
    simp only [portalGate, htcp, hroom, true_and, hoff, load16_gatePortOff hihl]
    split
    · rfl
    · rfl

/-- The maps of a fresh gateway on which DNS queries are allowed. -/
def dnsAllowed : HgMaps 1 :=
  { HgMaps.start 1 .standard 0 with proto := BoundedMap.empty.put ⟨ipprotoUdp, 0, 53⟩ 1 }

/-- A DNS query to a name server elsewhere passes before login. -/
theorem preauth_passes_dns_query :
    let skb : SkBuff :=
      ⟨udpFrame (localMac 1) (addrOfOctets 192 168 99 82) (addrOfOctets 9 9 9 9) 40000 53, 42⟩
    (hgTcIngress (.good 0 0) dnsAllowed skb).verdict = .ok := by
  intro skb
  have hframe : PreauthFrame dnsAllowed skb.data .standard :=
    ⟨rfl, by decide, ⟨⟨ipprotoUdp, 40000, 53⟩, by decide, by decide⟩⟩
  exact (preauth_passes_off_portal hframe (.good 0 0)).1 (Or.inl (by decide))

/-- The same query to the name server on the gateway itself is dropped. -/
theorem preauth_dropped_at_gateway :
    let skb : SkBuff :=
      ⟨udpFrame (localMac 1) (addrOfOctets 192 168 99 82) (addrOfOctets 192 168 99 1) 40000 53,
        42⟩
    PreauthFrame dnsAllowed skb.data .standard ∧
      (hgTcIngress (.good 0 0) dnsAllowed skb).verdict = .shot := by
  refine ⟨⟨rfl, by decide, ⟨⟨ipprotoUdp, 40000, 53⟩, by decide, by decide⟩⟩, by decide⟩

end HawkGate
