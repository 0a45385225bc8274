-- SUMMARY: Redirection to the portal (DNAT), its reversal on replies (SNAT), and the BPF helpers they use.
import HawkGate.Kernel.Edt
import HawkGate.Kernel.Frame

/-!
# Portal NAT

`redirect_to_portal` and `snat_from_conntrack`. The outcome of every BPF helper
is an input, so that error paths are part of the model.
-/

namespace HawkGate

open Bytes HawkGate.Frame

variable {ncpu : Nat}

/-! ## Helpers -/

/-- What the kernel supplies to one run of a TC program: the CPU, the clock
    readings in program order, and whether each helper succeeds. -/
structure BpfEnv (ncpu : Nat) where
  cpu : Fin ncpu
  /-- `bpf_ktime_get_ns` at the session check. -/
  ktimeNs : UInt64
  /-- `bpf_ktime_get_ns` in the shaper. -/
  edtKtimeNs : UInt64
  /-- `bpf_ktime_get_boot_ns`. -/
  bootNs : UInt64
  updateMacIp : Bool
  updateIpMac : Bool
  deleteClient : Bool
  pullData : Bool
  l3Csum : Bool
  storeAddr : Bool
  l4CsumAddr : Bool
  l4CsumPort : Bool
  storePort : Bool
  updateConntrack : Bool
  /-- The conntrack entries that the LRU map drops to make room. -/
  evicted : List HgCtKey

/-- An environment in which no helper fails, with every clock at `now`. -/
def BpfEnv.good (cpu : Fin ncpu) (now : UInt64) : BpfEnv ncpu where
  cpu := cpu
  ktimeNs := now
  edtKtimeNs := now
  bootNs := now
  updateMacIp := true
  updateIpMac := true
  deleteClient := true
  pullData := true
  l3Csum := true
  storeAddr := true
  l4CsumAddr := true
  l4CsumPort := true
  storePort := true
  updateConntrack := true
  evicted := []

/-- What a TC program leaves behind: its verdict, the frame, the departure stamp
    if one was set, and the maps. -/
structure TcResult (ncpu : Nat) where
  verdict : TcAct
  data : Bytes
  stamp : Option UInt64
  maps : HgMaps ncpu

/-- One's complement sum of two 16-bit words. -/
def onesAdd (a b : UInt16) : UInt16 :=
  UInt16.ofNat ((a.toNat + b.toNat) % 65536 + (a.toNat + b.toNat) / 65536)

/-- Incremental checksum update for one changed word. -/
def csumReplace2 (sum old new : UInt16) : UInt16 :=
  ~~~(onesAdd (onesAdd (~~~sum) (~~~old)) new)

/-- Incremental checksum update for a changed double word. -/
def csumReplace4 (sum : UInt16) (old new : UInt32) : UInt16 :=
  csumReplace2 (csumReplace2 sum (UInt16.ofNat (old.toNat % 65536)) (UInt16.ofNat (new.toNat % 65536)))
    (UInt16.ofNat (old.toNat / 65536)) (UInt16.ofNat (new.toNat / 65536))

/-- A helper that rewrites the frame when it succeeds. -/
def rewrite (ok : Bool) (d : Bytes) (off : Nat) (bs : Bytes) : Bytes :=
  if ok then store d off bs else d

@[simp] theorem length_rewrite (ok : Bool) (d : Bytes) (off : Nat) (bs : Bytes) :
    (rewrite ok d off bs).length = d.length := by
  unfold rewrite
  split
  · exact length_store d off bs
  · rfl

theorem load8_rewrite_outside (ok : Bool) (d : Bytes) (off : Nat) (bs : Bytes) {i : Nat}
    (h : i < off ∨ off + bs.length ≤ i) : load8 (rewrite ok d off bs) i = load8 d i := by
  unfold rewrite
  split
  · exact load8_store_outside d off bs h
  · rfl

/-- A rewrite that ends behind the version byte leaves the L4 offset where it is. -/
theorem l4Off_rewrite (ok : Bool) (d : Bytes) {off : Nat} (bs : Bytes) (h : ethHLen < off) :
    l4Off (rewrite ok d off bs) = l4Off d := by
  simp only [l4Off, ihl, load8_rewrite_outside ok d off bs (Or.inl h)]

theorem load16_rewrite_outside (ok : Bool) (d : Bytes) (off : Nat) (bs : Bytes) {i : Nat}
    (h : i + 2 ≤ off ∨ off + bs.length ≤ i) : load16 (rewrite ok d off bs) i = load16 d i := by
  unfold rewrite
  split
  · exact load16_store_outside d off bs h
  · rfl

theorem load32_rewrite_outside (ok : Bool) (d : Bytes) (off : Nat) (bs : Bytes) {i : Nat}
    (h : i + 4 ≤ off ∨ off + bs.length ≤ i) : load32 (rewrite ok d off bs) i = load32 d i := by
  unfold rewrite
  split
  · exact load32_store_outside d off bs h
  · rfl

/-! ## Recording a flow -/

/-- Store a conntrack entry after the LRU map has dropped `env.evicted`. -/
def HgMaps.trackFlow (s : HgMaps ncpu) (env : BpfEnv ncpu) (key : HgCtKey) (val : HgCtVal) :
    HgMaps ncpu :=
  if env.updateConntrack then
    { s with conntrack := (env.evicted.foldl BoundedMap.erase s.conntrack).put key val }
  else s

/-- A recorded flow can be found under its key. -/
theorem HgMaps.lookup_trackFlow {s : HgMaps ncpu} {env : BpfEnv ncpu} {key : HgCtKey}
    {val : HgCtVal} (hupd : env.updateConntrack = true)
    (hroom : (env.evicted.foldl BoundedMap.erase s.conntrack).HasRoom key) :
    (s.trackFlow env key val).conntrack.lookup key = some val := by
  rw [HgMaps.trackFlow, if_pos hupd]
  exact BoundedMap.lookup_put_self _ _ hroom

/-! ## DNAT -/

/-- Offsets of the rewritten fields. -/
def ipCheckOff : Nat := ethHLen + 10
def ipSaddrOff : Nat := ethHLen + 12
def ipDaddrOff : Nat := ethHLen + 16
/-- The conntrack key of a frame on its way to the portal. -/
def ctKeyOf (d : Bytes) : HgCtKey := ⟨saddr d, source d⟩

/-- The conntrack key of a frame on its way back. -/
def ctReplyKeyOf (d : Bytes) : HgCtKey := ⟨daddr d, dest d⟩

/-- The IP part of the DNAT: fix the checksum, then write the new destination. -/
def dnatIp (env : BpfEnv ncpu) (d : Bytes) (cfg : HgPortalCfg) : Bytes :=
  let d₁ := rewrite env.l3Csum d ipCheckOff
    (ofU16 (csumReplace4 (load16 d ipCheckOff) (daddr d) cfg.portalIp))
  rewrite env.storeAddr d₁ ipDaddrOff (ofU32 cfg.portalIp)

/-- The TCP part of the DNAT of a frame with L4 offset `off` whose destination
    was `oldIp` and `oldPort`. -/
def dnatTcp (env : BpfEnv ncpu) (d : Bytes) (off : Nat) (oldIp : IpAddr) (oldPort : UInt16)
    (cfg : HgPortalCfg) : Bytes :=
  let d₁ := rewrite env.l4CsumAddr d (off + 16)
    (ofU16 (csumReplace4 (load16 d (off + 16)) oldIp cfg.portalIp))
  let d₂ := rewrite env.l4CsumPort d₁ (off + 16)
    (ofU16 (csumReplace2 (load16 d₁ (off + 16)) oldPort cfg.portalPort))
  rewrite env.storePort d₂ (off + 2) (ofU16 cfg.portalPort)

def redirectToPortal (env : BpfEnv ncpu) (s : HgMaps ncpu) (d : Bytes) (cfg : HgPortalCfg) :
    TcResult ncpu :=
  if env.pullData = false then ⟨.ok, d, none, s⟩
  else if d.length < ethHLen then ⟨.shot, d, none, s⟩
  else if ethProto d ≠ ethPIp then ⟨.ok, d, none, s⟩
  else if d.length < ethHLen + ipHLen then ⟨.shot, d, none, s⟩
  else if ihl d < 5 then ⟨.shot, d, none, s⟩
  else if d.length < l4Off d then ⟨.shot, d, none, s⟩
  else
    let d₁ := dnatIp env d cfg
    if protocol d = ipprotoTcp then
      if d₁.length < l4Off d + tcpHLen then ⟨.shot, d₁, none, s⟩
      else
        let oldPort := load16 d₁ (l4Off d + 2)
        let key : HgCtKey := ⟨saddr d, load16 d₁ (l4Off d)⟩
        let val : HgCtVal := ⟨daddr d, oldPort, env.bootNs⟩
        ⟨.ok, dnatTcp env d₁ (l4Off d) (daddr d) oldPort cfg, none, s.trackFlow env key val⟩
    else ⟨.ok, d₁, none, s⟩

/-! ## SNAT -/

/-- Give a reply the source address and port of a conntrack entry. -/
def snatRewrite (env : BpfEnv ncpu) (d : Bytes) (val : HgCtVal) : Bytes :=
  let off := l4Off d
  let oldSaddr := saddr d
  let oldSport := source d
  let d₁ := rewrite env.l3Csum d ipCheckOff
    (ofU16 (csumReplace4 (load16 d ipCheckOff) oldSaddr val.origDstIp))
  let d₂ := rewrite env.storeAddr d₁ ipSaddrOff (ofU32 val.origDstIp)
  let d₃ := rewrite env.l4CsumAddr d₂ (off + 16)
    (ofU16 (csumReplace4 (load16 d₂ (off + 16)) oldSaddr val.origDstIp))
  let d₄ := rewrite env.l4CsumPort d₃ (off + 16)
    (ofU16 (csumReplace2 (load16 d₃ (off + 16)) oldSport val.origDstPort))
  rewrite env.storePort d₄ off (ofU16 val.origDstPort)

def snatFromConntrack (env : BpfEnv ncpu) (s : HgMaps ncpu) (d : Bytes) : TcResult ncpu :=
  if env.pullData = false then ⟨.ok, d, none, s⟩
  else if d.length < ethHLen then ⟨.shot, d, none, s⟩
  else if ethProto d ≠ ethPIp then ⟨.ok, d, none, s⟩
  else if d.length < ethHLen + ipHLen then ⟨.shot, d, none, s⟩
  else if ihl d < 5 then ⟨.shot, d, none, s⟩
  else if d.length < l4Off d then ⟨.shot, d, none, s⟩
  else if protocol d = ipprotoTcp then
    if d.length < l4Off d + tcpHLen then ⟨.shot, d, none, s⟩
    else
      match s.conntrack.lookup (ctReplyKeyOf d) with
      | none => ⟨.ok, d, none, s⟩
      | some val =>
        if hgCtTimeoutNs < env.bootNs - val.createdNs then ⟨.ok, d, none, s⟩
        else ⟨.ok, snatRewrite env d val, none, s⟩
  else ⟨.ok, d, none, s⟩

/-! ## Complete frames -/

/-- An IPv4 frame whose TCP header lies completely behind a complete IP header. -/
structure CompleteTcp (d : Bytes) : Prop where
  eth : ethProto d = ethPIp
  tcp : protocol d = ipprotoTcp
  ihl : 5 ≤ Frame.ihl d
  room : l4Off d + tcpHLen ≤ d.length

/-- A frame classified as TCP is complete once its header length is legal. -/
theorem completeTcp_of_l3Ok {d : Bytes} {key : HgAllowKey} (h : filterProto d = .l3Ok key)
    (hproto : key.proto = ipprotoTcp) (hihl : 5 ≤ Frame.ihl d) : CompleteTcp d := by
  obtain ⟨heth, -, hkey⟩ := filterProto_l3Ok h
  have htcp : protocol d = ipprotoTcp := hkey ▸ hproto
  exact ⟨heth, htcp, hihl, (filterProto_l3Ok_tcp h htcp).1⟩

/-- A complete TCP frame is classified as IP. -/
theorem CompleteTcp.exists_l3Ok {d : Bytes} (h : CompleteTcp d) : ∃ key, filterProto d = .l3Ok key := by
  have hihl := h.ihl
  have hroom := h.room
  have hlen : 54 ≤ d.length := by
    simp only [l4Off, ethHLen, tcpHLen] at hroom
    omega
  have hudp : ¬ protocol d = ipprotoUdp := by rw [h.tcp]; decide
  rw [filterProto, if_neg (by simp only [ethHLen]; omega), if_neg (not_not.mpr h.eth),
    if_neg (by simp only [ethHLen, ipHLen]; omega), parseUdpTcp, if_neg hudp, if_pos h.tcp,
    if_neg (by omega)]
  exact ⟨_, rfl⟩

theorem CompleteTcp.l4Off_ge {d : Bytes} (h : CompleteTcp d) : 34 ≤ l4Off d := by
  have := h.ihl
  simp only [l4Off, ethHLen]
  omega

theorem CompleteTcp.length_ge {d : Bytes} (h : CompleteTcp d) : 54 ≤ d.length := by
  have h1 := h.l4Off_ge
  have h2 := h.room
  simp only [tcpHLen] at h2
  omega

@[simp] theorem length_dnatIp (env : BpfEnv ncpu) (d : Bytes) (cfg : HgPortalCfg) :
    (dnatIp env d cfg).length = d.length := by
  simp [dnatIp]

/-- The IP part of the DNAT leaves every word behind the IP header alone. -/
theorem load16_dnatIp (env : BpfEnv ncpu) (d : Bytes) (cfg : HgPortalCfg) {i : Nat} (h : 34 ≤ i) :
    load16 (dnatIp env d cfg) i = load16 d i := by
  rw [dnatIp, load16_rewrite_outside _ _ _ _ (by simp [ofU32, ipDaddrOff, ethHLen]; omega),
    load16_rewrite_outside _ _ _ _ (by simp [ofU16, ipCheckOff, ethHLen]; omega)]

/-- The frame that leaves the DNAT of `d`. -/
def dnatFrame (env : BpfEnv ncpu) (d : Bytes) (cfg : HgPortalCfg) : Bytes :=
  dnatTcp env (dnatIp env d cfg) (l4Off d) (daddr d) (dest d) cfg

/-- The frame passes the checks that both helpers begin with. -/
structure HeadersOk (env : BpfEnv ncpu) (d : Bytes) : Prop where
  pull : env.pullData = true
  eth : ethHLen ≤ d.length
  proto : ethProto d = ethPIp
  ip : ethHLen + ipHLen ≤ d.length
  ihl : 5 ≤ Frame.ihl d
  options : l4Off d ≤ d.length

theorem CompleteTcp.headersOk {env : BpfEnv ncpu} {d : Bytes} (h : CompleteTcp d)
    (hpull : env.pullData = true) : HeadersOk env d := by
  have hlen := h.length_ge
  have hroom := h.room
  refine ⟨hpull, ?_, h.eth, ?_, h.ihl, ?_⟩
  · simp only [ethHLen]
    omega
  · simp only [ethHLen, ipHLen]
    omega
  · omega

/-- A frame that fails a check is passed or dropped as it is by both helpers. -/
theorem headersOk_or (env : BpfEnv ncpu) (d : Bytes) :
    HeadersOk env d ∨
      ∃ v, (∀ (s : HgMaps ncpu) (cfg : HgPortalCfg),
          redirectToPortal env s d cfg = ⟨v, d, none, s⟩) ∧
        ∀ s : HgMaps ncpu, snatFromConntrack env s d = ⟨v, d, none, s⟩ := by
  unfold redirectToPortal snatFromConntrack
  by_cases hpull : env.pullData = false
  · exact .inr ⟨.ok, fun s cfg => by rw [if_pos hpull], fun s => by rw [if_pos hpull]⟩
  by_cases heth : d.length < ethHLen
  · exact .inr ⟨.shot, by simp [hpull, heth], by simp [hpull, heth]⟩
  by_cases hproto : ethProto d ≠ ethPIp
  · exact .inr ⟨.ok, by simp [hpull, heth, hproto], by simp [hpull, heth, hproto]⟩
  by_cases hip : d.length < ethHLen + ipHLen
  · exact .inr ⟨.shot, by simp [hpull, heth, hproto, hip], by simp [hpull, heth, hproto, hip]⟩
  by_cases hihl : ihl d < 5
  · exact .inr ⟨.shot, by simp [hpull, heth, hproto, hip, hihl],
      by simp [hpull, heth, hproto, hip, hihl]⟩
  by_cases hl4 : d.length < l4Off d
  · exact .inr ⟨.shot, by simp [hpull, heth, hproto, hip, hihl, hl4],
      by simp [hpull, heth, hproto, hip, hihl, hl4]⟩
  exact .inl ⟨by simpa using hpull, Nat.le_of_not_lt heth, not_not.mp hproto, Nat.le_of_not_lt hip,
    Nat.le_of_not_lt hihl, Nat.le_of_not_lt hl4⟩

section
variable {env : BpfEnv ncpu} {d : Bytes} (h : HeadersOk env d)
include h

theorem HeadersOk.redirectToPortal_eq (s : HgMaps ncpu) (cfg : HgPortalCfg) :
    redirectToPortal env s d cfg =
      if protocol d = ipprotoTcp then
        if d.length < l4Off d + tcpHLen then ⟨.shot, dnatIp env d cfg, none, s⟩
        else
          let d₁ := dnatIp env d cfg
          ⟨.ok, dnatTcp env d₁ (l4Off d) (daddr d) (load16 d₁ (l4Off d + 2)) cfg, none,
            s.trackFlow env ⟨saddr d, load16 d₁ (l4Off d)⟩
              ⟨daddr d, load16 d₁ (l4Off d + 2), env.bootNs⟩⟩
      else ⟨.ok, dnatIp env d cfg, none, s⟩ := by
  rw [redirectToPortal, if_neg (by simp [h.pull]), if_neg (Nat.not_lt.mpr h.eth),
    if_neg (not_not.mpr h.proto), if_neg (Nat.not_lt.mpr h.ip), if_neg (Nat.not_lt.mpr h.ihl),
    if_neg (Nat.not_lt.mpr h.options)]
  simp only [length_dnatIp]

theorem HeadersOk.snatFromConntrack_eq (s : HgMaps ncpu) :
    snatFromConntrack env s d =
      if protocol d = ipprotoTcp then
        if d.length < l4Off d + tcpHLen then ⟨.shot, d, none, s⟩
        else
          match s.conntrack.lookup (ctReplyKeyOf d) with
          | none => ⟨.ok, d, none, s⟩
          | some val =>
            if hgCtTimeoutNs < env.bootNs - val.createdNs then ⟨.ok, d, none, s⟩
            else ⟨.ok, snatRewrite env d val, none, s⟩
      else ⟨.ok, d, none, s⟩ := by
  rw [snatFromConntrack, if_neg (by simp [h.pull]), if_neg (Nat.not_lt.mpr h.eth),
    if_neg (not_not.mpr h.proto), if_neg (Nat.not_lt.mpr h.ip), if_neg (Nat.not_lt.mpr h.ihl),
    if_neg (Nat.not_lt.mpr h.options)]

end

/-- Redirecting a complete TCP frame records its flow and rewrites its destination. -/
theorem redirectToPortal_complete {env : BpfEnv ncpu} {s : HgMaps ncpu} {d : Bytes}
    {cfg : HgPortalCfg} (hpull : env.pullData = true) (h : CompleteTcp d) :
    redirectToPortal env s d cfg =
      ⟨.ok, dnatFrame env d cfg, none, s.trackFlow env (ctKeyOf d) ⟨daddr d, dest d, env.bootNs⟩⟩ := by
  have hoff := h.l4Off_ge
  rw [(h.headersOk hpull).redirectToPortal_eq, if_pos h.tcp, if_neg (Nat.not_lt.mpr h.room)]
  dsimp only
  rw [load16_dnatIp _ _ _ hoff, load16_dnatIp _ _ _ (by omega)]
  rfl

/-- A frame whose header length field is below the minimum is dropped and records no flow. -/
theorem redirectToPortal_short_ihl {env : BpfEnv ncpu} (s : HgMaps ncpu) {d : Bytes}
    (cfg : HgPortalCfg) (hpull : env.pullData = true) (heth : ethProto d = ethPIp)
    (hihl : ihl d < 5) :
    (redirectToPortal env s d cfg).verdict = .shot ∧ (redirectToPortal env s d cfg).maps = s := by
  simp only [redirectToPortal, hpull, Bool.true_eq_false, if_false, heth, ne_eq, not_true_eq_false,
    hihl, if_true]
  split
  · exact ⟨rfl, rfl⟩
  · split
    · exact ⟨rfl, rfl⟩
    · exact ⟨rfl, rfl⟩

theorem l4Off_dnatFrame (env : BpfEnv ncpu) {d : Bytes} (cfg : HgPortalCfg)
    (hoff : 34 ≤ l4Off d) : l4Off (dnatFrame env d cfg) = l4Off d := by
  simp only [dnatFrame, dnatTcp, dnatIp]
  rw [l4Off_rewrite _ _ _ (by simp only [ethHLen]; omega),
    l4Off_rewrite _ _ _ (by simp only [ethHLen]; omega),
    l4Off_rewrite _ _ _ (by simp only [ethHLen]; omega),
    l4Off_rewrite _ _ _ (by simp only [ethHLen, ipDaddrOff]; omega),
    l4Off_rewrite _ _ _ (by simp only [ethHLen, ipCheckOff]; omega)]

/-- The destination address behind the DNAT. -/
theorem CompleteTcp.daddr_dnatFrame {d : Bytes} (h : CompleteTcp d) (env : BpfEnv ncpu)
    (cfg : HgPortalCfg) :
    daddr (dnatFrame env d cfg) = if env.storeAddr then cfg.portalIp else daddr d := by
  have hoff := h.l4Off_ge
  have hlen := h.length_ge
  simp only [daddr, dnatFrame, dnatTcp, ethHLen]
  rw [load32_rewrite_outside _ _ _ _ (by omega), load32_rewrite_outside _ _ _ _ (by omega),
    load32_rewrite_outside _ _ _ _ (by omega), dnatIp]
  cases env.storeAddr with
  | true =>
    rw [rewrite, if_pos rfl, if_pos rfl]
    exact load32_store_self _ _ _ (by rw [length_rewrite, ipDaddrOff, ethHLen]; omega)
  | false =>
    rw [rewrite, if_neg Bool.false_ne_true, if_neg Bool.false_ne_true]
    exact load32_rewrite_outside _ _ _ _ (by simp [ofU16, ipCheckOff, ethHLen])

/-- The destination port behind the DNAT. -/
theorem CompleteTcp.dest_dnatFrame {d : Bytes} (h : CompleteTcp d) (env : BpfEnv ncpu)
    (cfg : HgPortalCfg) :
    dest (dnatFrame env d cfg) = if env.storePort then cfg.portalPort else dest d := by
  have hoff := h.l4Off_ge
  have hroom := h.room
  rw [dest, l4Off_dnatFrame env cfg hoff, dnatFrame, dnatTcp]
  cases env.storePort with
  | true =>
    rw [rewrite, if_pos rfl, if_pos rfl]
    refine load16_store_self _ _ _ ?_
    rw [length_rewrite, length_rewrite, length_dnatIp]
    simp only [tcpHLen] at hroom
    omega
  | false =>
    rw [rewrite, if_neg Bool.false_ne_true, if_neg Bool.false_ne_true,
      load16_rewrite_outside _ _ _ _ (by omega), load16_rewrite_outside _ _ _ _ (by omega),
      load16_dnatIp _ _ _ (by omega)]
    rfl

theorem l4Off_snatRewrite (env : BpfEnv ncpu) {d : Bytes} (val : HgCtVal) (hoff : 34 ≤ l4Off d) :
    l4Off (snatRewrite env d val) = l4Off d := by
  simp only [snatRewrite]
  rw [l4Off_rewrite _ _ _ (by simp only [ethHLen]; omega),
    l4Off_rewrite _ _ _ (by simp only [ethHLen]; omega),
    l4Off_rewrite _ _ _ (by simp only [ethHLen]; omega),
    l4Off_rewrite _ _ _ (by simp only [ethHLen, ipSaddrOff]; omega),
    l4Off_rewrite _ _ _ (by simp only [ethHLen, ipCheckOff]; omega)]

/-- The source address behind the SNAT. -/
theorem CompleteTcp.saddr_snatRewrite {d : Bytes} (h : CompleteTcp d) (env : BpfEnv ncpu)
    (val : HgCtVal) :
    saddr (snatRewrite env d val) = if env.storeAddr then val.origDstIp else saddr d := by
  have hoff := h.l4Off_ge
  have hlen := h.length_ge
  simp only [saddr, snatRewrite, ethHLen]
  rw [load32_rewrite_outside _ _ _ _ (by omega), load32_rewrite_outside _ _ _ _ (by omega),
    load32_rewrite_outside _ _ _ _ (by omega)]
  cases env.storeAddr with
  | true =>
    rw [rewrite, if_pos rfl, if_pos rfl]
    exact load32_store_self _ _ _ (by rw [length_rewrite, ipSaddrOff, ethHLen]; omega)
  | false =>
    rw [rewrite, if_neg Bool.false_ne_true, if_neg Bool.false_ne_true]
    exact load32_rewrite_outside _ _ _ _ (by simp [ofU16, ipCheckOff, ethHLen])

/-- The source port behind the SNAT. -/
theorem CompleteTcp.source_snatRewrite {d : Bytes} (h : CompleteTcp d) (env : BpfEnv ncpu)
    (val : HgCtVal) :
    source (snatRewrite env d val) = if env.storePort then val.origDstPort else source d := by
  have hoff := h.l4Off_ge
  have hroom := h.room
  rw [source, l4Off_snatRewrite env val hoff, snatRewrite]
  cases env.storePort with
  | true =>
    rw [rewrite, if_pos rfl, if_pos rfl]
    refine load16_store_self _ _ _ ?_
    simp only [length_rewrite]
    simp only [tcpHLen] at hroom
    omega
  | false =>
    rw [rewrite, if_neg Bool.false_ne_true, if_neg Bool.false_ne_true,
      load16_rewrite_outside _ _ _ _ (by omega), load16_rewrite_outside _ _ _ _ (by omega),
      load16_rewrite_outside _ _ _ _ (by simp [ofU32, ipSaddrOff, ethHLen]; omega),
      load16_rewrite_outside _ _ _ _ (by simp [ofU16, ipCheckOff, ethHLen]; omega)]
    rfl

/-- The reply to a complete TCP frame is rewritten from a live conntrack entry only. -/
theorem snatFromConntrack_complete {env : BpfEnv ncpu} {s : HgMaps ncpu} {d : Bytes}
    (hpull : env.pullData = true) (h : CompleteTcp d) :
    snatFromConntrack env s d =
      match s.conntrack.lookup (ctReplyKeyOf d) with
      | none => ⟨.ok, d, none, s⟩
      | some val =>
        if hgCtTimeoutNs < env.bootNs - val.createdNs then ⟨.ok, d, none, s⟩
        else ⟨.ok, snatRewrite env d val, none, s⟩ := by
  rw [(h.headersOk hpull).snatFromConntrack_eq, if_pos h.tcp, if_neg (Nat.not_lt.mpr h.room)]

end HawkGate
