-- SUMMARY: When the portal's replies carry the source their connection expects, over runs of redirected and direct connections.
import HawkGate.Lib.WriteLog
import HawkGate.System.Host

/-!
# NAT transparency

Conntrack remembers, for each client address and port, the destination of the
latest frame that was redirected from there, and every reply of the portal to
that address and port is translated by it. A connection sees the source it
expects exactly if that latest frame was its own, or, for a connection to the
portal itself, if there is none that has not timed out.
-/

namespace HawkGate

open Bytes HawkGate.Frame CString Transition

variable {ncpu : Nat}

/-! ## Connections -/

/-- A TCP connection that the portal answers: redirected from the destination that the
    client asked for, or opened to the portal itself. -/
inductive Connection where
  | redirected (client : HgCtKey) (dstIp : IpAddr) (dstPort : UInt16)
  | direct (client : HgCtKey)

def Connection.client : Connection → HgCtKey
  | .redirected client _ _ => client
  | .direct client => client

inductive NatEvent (ncpu : Nat) where
  | host (e : HostEvent ncpu)
  /-- A frame of the portal on a connection, at the egress hook. -/
  | reply (env : BpfEnv ncpu) (skb : SkBuff) (c : Connection)

/-- A host with the flows of the redirected frames so far, newest first. -/
structure NatHost (ncpu : Nat) where
  maps : HgMaps ncpu
  redirects : WriteLog HgCtKey HgCtVal

/-- The flow of the frame that this event redirects, if it does. -/
def HgMaps.flowOf (s : HgMaps ncpu) : NatEvent ncpu → Option (HgCtKey × HgCtVal)
  | .host (.ingress env skb) => s.redirectOf env skb.data
  | _ => none

def NatHost.step (st : NatHost ncpu) (e : NatEvent ncpu) : NatHost ncpu where
  maps :=
    match e with
    | .host e => st.maps.step e
    | .reply env skb _ => (hgTcEgress env st.maps skb).maps
  redirects := (st.maps.flowOf e).toList ++ st.redirects

/-! ## The guarantee -/

/-- The frame of the log belongs to the redirected connection. -/
def onConnection (client : HgCtKey) (dstIp : IpAddr) (dstPort : UInt16) (w : HgCtKey × HgCtVal) :
    Bool :=
  w.1 = client ∧ w.2.origDstIp = dstIp ∧ w.2.origDstPort = dstPort

theorem onConnection_iff {client : HgCtKey} {dstIp : IpAddr} {dstPort : UInt16}
    {w : HgCtKey × HgCtVal} :
    onConnection client dstIp dstPort w = true ↔
      w.1 = client ∧ w.2.origDstIp = dstIp ∧ w.2.origDstPort = dstPort :=
  decide_eq_true_iff

/-- The latest redirected frame of the connection is at most the timeout old. -/
def RecentlyRedirected (redirects : WriteLog HgCtKey HgCtVal) (client : HgCtKey) (dstIp : IpAddr)
    (dstPort : UInt16) (now : UInt64) : Prop :=
  ∃ w, redirects.find? (onConnection client dstIp dstPort) = some w ∧ w.2.createdNs ≤ now ∧
    now - w.2.createdNs ≤ hgCtTimeoutNs

/-- A reply leaves with the source that its connection expects: the original destination of
    a redirected connection that is not idle for longer than the timeout, and its own source
    on a direct connection. -/
def ReplyTransparent (st : NatHost ncpu) : NatEvent ncpu → Prop
  | .host _ => True
  | .reply env skb (.redirected client dstIp dstPort) =>
    RecentlyRedirected st.redirects client dstIp dstPort env.bootNs →
      (hgTcEgress env st.maps skb).verdict = .ok ∧
        saddr (hgTcEgress env st.maps skb).data = dstIp ∧
        source (hgTcEgress env st.maps skb).data = dstPort
  | .reply env skb (.direct _) =>
    (hgTcEgress env st.maps skb).verdict = .ok ∧
      saddr (hgTcEgress env st.maps skb).data = saddr skb.data ∧
      source (hgTcEgress env st.maps skb).data = source skb.data

/-- The latest redirected frame from the client's address and port is on the connection of the
    reply. On a direct connection there is none, or its entry has timed out. -/
def ReplyUnambiguous (st : NatHost ncpu) : NatEvent ncpu → Prop
  | .host _ => True
  | .reply env _ (.redirected client dstIp dstPort) =>
    RecentlyRedirected st.redirects client dstIp dstPort env.bootNs →
      ∃ t, WriteLog.latest st.redirects client = some ⟨dstIp, dstPort, t⟩
  | .reply env _ (.direct client) =>
    ∀ v, WriteLog.latest st.redirects client = some v → hgCtTimeoutNs < env.bootNs - v.createdNs

/-- The helpers that the translation depends on succeed, and nothing is evicted. -/
structure BpfEnv.NatHelpersOk (env : BpfEnv ncpu) : Prop where
  pull : env.pullData = true
  addr : env.storeAddr = true
  port : env.storePort = true
  track : env.updateConntrack = true
  evicted : env.evicted = []

/-- A complete TCP frame of the portal to the client of the connection. -/
structure IsReply (s : HgMaps ncpu) (d : Bytes) (c : Connection) : Prop where
  complete : CompleteTcp d
  client : ctReplyKeyOf d = c.client
  portal : ∃ cfg, s.portalCfg = some cfg ∧ saddr d = cfg.portalIp ∧ source d = cfg.portalPort

/-- The events of a run: packets whose helpers succeed, redirections that find room in
    conntrack, replies of the portal, and commands other than `map-del`. -/
def NatAssumptions (st : NatHost ncpu) : NatEvent ncpu → Prop
  | .host (.ingress env skb) =>
    env.NatHelpersOk ∧
      ∀ w, st.maps.redirectOf env skb.data = some w → st.maps.conntrack.HasRoom w.1
  | .host (.egress _ _) | .host (.add _ _) | .host (.del _ _) => True
  | .host (.mapDel _ _) => False
  | .reply env skb c => env.NatHelpersOk ∧ IsReply st.maps skb.data c

/-! ## Conntrack is the latest redirections -/

/-- Conntrack holds the latest redirected frame of each client address and port, and none of
    them was for the portal. -/
structure NatHost.Tracked (st : NatHost ncpu) : Prop where
  conntrack : ∀ k, st.maps.conntrack.lookup k = WriteLog.latest st.redirects k
  foreign : ∀ cfg, st.maps.portalCfg = some cfg → ∀ w ∈ st.redirects,
    w.2.origDstIp ≠ cfg.portalIp

theorem redirectOf_foreign {s : HgMaps ncpu} {env : BpfEnv ncpu} {d : Bytes}
    {w : HgCtKey × HgCtVal} (h : s.redirectOf env d = some w) {cfg : HgPortalCfg}
    (hcfg : s.portalCfg = some cfg) : w.2.origDstIp ≠ cfg.portalIp := by
  unfold HgMaps.redirectOf at h
  split at h
  · split at h
    · cases h
    · next hstage =>
      split at h
      · cases h
      · split at h
        · cases h
        · split at h
          · cases h
          · obtain rfl := Option.some.inj h
            intro heq
            have hto : s.toPortal d = some cfg := by
              rw [HgMaps.toPortal, hcfg]
              simpa using heq
            exact hstage (Or.inr (Or.inl (by rw [hto]; rfl)))
  · cases h

@[simp] theorem portalCfg_step (s : HgMaps ncpu) (e : HostEvent ncpu) :
    (s.step e).portalCfg = s.portalCfg := by
  cases e with
  | ingress env skb => exact portalCfg_hgTcIngress env s skb
  | egress env skb => exact portalCfg_hgTcEgress env s skb
  | add env opts =>
    rw [HgMaps.step_add]
    cases addEffect env s opts <;> rfl
  | del env opts =>
    rw [HgMaps.step_del]
    cases delVictim s env opts <;> rfl
  | mapDel env opts => rw [HgMaps.step_mapDel]

/-- An event that redirects nothing and leaves conntrack alone keeps it tracked. -/
theorem NatHost.Tracked.of_same {st st' : NatHost ncpu} (h : st.Tracked)
    (hconntrack : st'.maps.conntrack = st.maps.conntrack)
    (hcfg : st'.maps.portalCfg = st.maps.portalCfg) (hlog : st'.redirects = st.redirects) :
    st'.Tracked := by
  constructor
  · intro k
    rw [hconntrack, hlog]
    exact h.conntrack k
  · rw [hcfg, hlog]
    exact h.foreign

/-- A redirected frame is tracked as the latest of its client address and port. -/
theorem tracked_ingress {st : NatHost ncpu} (h : st.Tracked) {env : BpfEnv ncpu} {skb : SkBuff}
    (hok : env.NatHelpersOk)
    (hroom : ∀ w, st.maps.redirectOf env skb.data = some w → st.maps.conntrack.HasRoom w.1) :
    (st.step (.host (.ingress env skb))).Tracked := by
  constructor
  · intro k
    simp only [NatHost.step, HgMaps.step, HgMaps.flowOf, conntrack_hgTcIngress hok.pull]
    cases hflow : st.maps.redirectOf env skb.data with
    | none => exact h.conntrack k
    | some w =>
      have hput := hroom w hflow
      simp only [Option.elim_some, HgMaps.conntrack_trackFlow, hok.track, hok.evicted, if_true,
        List.foldl_nil, BoundedMap.lookup_put, hput, and_true, Option.toList_some,
        List.singleton_append, WriteLog.latest_cons, h.conntrack]
  · intro cfg hcfg w hw
    simp only [NatHost.step, portalCfg_step] at hcfg
    simp only [NatHost.step, HgMaps.flowOf, List.mem_append, Option.mem_toList] at hw
    rcases hw with hw | hw
    · exact redirectOf_foreign hw hcfg
    · exact h.foreign cfg hcfg w hw

/-- Every event of a run keeps conntrack tracked. -/
theorem tracked_step {st : NatHost ncpu} {e : NatEvent ncpu} (h : st.Tracked)
    (he : NatAssumptions st e) : (st.step e).Tracked := by
  cases e with
  | reply env skb c =>
    exact h.of_same (conntrack_hgTcEgress env st.maps skb) (portalCfg_hgTcEgress env st.maps skb) rfl
  | host e =>
    have hcfg := portalCfg_step st.maps e
    cases e with
    | ingress env skb => exact tracked_ingress h he.1 he.2
    | egress env skb => exact h.of_same (conntrack_hgTcEgress env st.maps skb) hcfg rfl
    | add env opts =>
      refine h.of_same ?_ hcfg rfl
      simp only [NatHost.step, HgMaps.step_add]
      cases addEffect env st.maps opts <;> rfl
    | del env opts =>
      refine h.of_same ?_ hcfg rfl
      simp only [NatHost.step, HgMaps.step_del]
      cases delVictim st.maps env opts <;> rfl
    | mapDel env opts => exact he.elim

/-! ## Replies -/

/-- A reply is translated by the entry of its client address and port, unless that has
    timed out. -/
theorem hgTcEgress_reply {env : BpfEnv ncpu} {s : HgMaps ncpu} {skb : SkBuff} {c : Connection}
    (hok : env.NatHelpersOk) (hreply : IsReply s skb.data c) :
    hgTcEgress env s skb =
      match s.conntrack.lookup c.client with
      | none => ⟨.ok, skb.data, none, s⟩
      | some val =>
        if hgCtTimeoutNs < env.bootNs - val.createdNs then ⟨.ok, skb.data, none, s⟩
        else ⟨.ok, snatRewrite env skb.data val, none, s⟩ := by
  obtain ⟨key, hkey⟩ := hreply.complete.exists_l3Ok
  obtain ⟨cfg, hcfg, hsrc, -⟩ := hreply.portal
  have hfrom : s.fromPortal skb.data = true := by simp [HgMaps.fromPortal, hcfg, hsrc]
  have hsnat := @snatFromConntrack_complete _ _ s _ hok.pull hreply.complete
  rw [hreply.client] at hsnat
  exact (hgTcEgress_fromPortal hkey hfrom).trans hsnat

section
variable {st : NatHost ncpu} {env : BpfEnv ncpu} {skb : SkBuff} {client : HgCtKey}

/-- A reply on a redirected connection comes from its original destination exactly if the
    latest frame redirected from the client's address and port was on it. -/
theorem replyTransparent_redirected_iff {dstIp : IpAddr} {dstPort : UInt16} (h : st.Tracked)
    (hok : env.NatHelpersOk)
    (hreply : IsReply st.maps skb.data (.redirected client dstIp dstPort)) :
    ReplyTransparent st (.reply env skb (.redirected client dstIp dstPort)) ↔
      ReplyUnambiguous st (.reply env skb (.redirected client dstIp dstPort)) := by
  obtain ⟨cfg, hcfg, hsrc, -⟩ := hreply.portal
  have hout := hgTcEgress_reply hok hreply
  rw [h.conntrack, Connection.client] at hout
  have hkey : ∀ w, onConnection client dstIp dstPort w = true → w.1 = client :=
    fun w hw => (onConnection_iff.mp hw).1
  refine forall_congr' fun hrecent => ?_
  obtain ⟨w, hfind, -, hage⟩ := hrecent
  constructor
  · rintro ⟨-, haddr, hport⟩
    have hmem := List.mem_of_find?_eq_some hfind
    obtain ⟨rfl, hip, -⟩ := onConnection_iff.mp (List.find?_some hfind)
    obtain ⟨v, hv⟩ := WriteLog.exists_latest_of_mem hmem
    rw [hout, hv] at haddr hport
    dsimp only at haddr hport
    split at haddr
    · -- an entry that has timed out leaves the source of the portal
      exact absurd (hip.trans (haddr.symm.trans hsrc)) (h.foreign cfg hcfg w hmem)
    · next hfresh =>
      rw [if_neg hfresh] at hport
      rw [hreply.complete.saddr_snatRewrite, if_pos hok.addr] at haddr
      rw [hreply.complete.source_snatRewrite, if_pos hok.port] at hport
      exact ⟨v.createdNs, by rw [hv, ← haddr, ← hport]⟩
  · rintro ⟨t, ht⟩
    have hown := WriteLog.find?_of_latest hkey ht (onConnection_iff.mpr ⟨rfl, rfl, rfl⟩)
    obtain rfl := Option.some.inj (hfind.symm.trans hown)
    rw [hout, ht]
    dsimp only
    rw [if_neg (UInt64.not_lt.mpr hage)]
    refine ⟨rfl, ?_, ?_⟩
    · rw [hreply.complete.saddr_snatRewrite, if_pos hok.addr]
    · rw [hreply.complete.source_snatRewrite, if_pos hok.port]

/-- A reply on a direct connection keeps its source exactly if no frame was redirected from the
    client's address and port within the timeout. -/
theorem replyTransparent_direct_iff (h : st.Tracked) (hok : env.NatHelpersOk)
    (hreply : IsReply st.maps skb.data (.direct client)) :
    ReplyTransparent st (.reply env skb (.direct client)) ↔
      ReplyUnambiguous st (.reply env skb (.direct client)) := by
  obtain ⟨cfg, hcfg, hsrc, -⟩ := hreply.portal
  have hout := hgTcEgress_reply hok hreply
  rw [h.conntrack, Connection.client] at hout
  constructor
  · rintro ⟨-, haddr, -⟩ v hv
    refine Classical.byContradiction fun hfresh => ?_
    rw [hout, hv] at haddr
    dsimp only at haddr
    rw [if_neg hfresh, hreply.complete.saddr_snatRewrite, if_pos hok.addr, hsrc] at haddr
    exact h.foreign cfg hcfg _ (WriteLog.mem_of_latest hv) haddr
  · intro hstale
    have hdata : hgTcEgress env st.maps skb = ⟨.ok, skb.data, none, st.maps⟩ := by
      rw [hout]
      cases hv : WriteLog.latest st.redirects client with
      | none => rfl
      | some v => exact if_pos (hstale v hv)
    rw [ReplyTransparent, hdata]
    exact ⟨rfl, rfl, rfl⟩

end

theorem replyTransparent_iff {st : NatHost ncpu} {e : NatEvent ncpu} (h : st.Tracked)
    (he : NatAssumptions st e) : ReplyTransparent st e ↔ ReplyUnambiguous st e := by
  cases e with
  | host e => exact Iff.rfl
  | reply env skb c =>
    cases c with
    | redirected client dstIp dstPort => exact replyTransparent_redirected_iff h he.1 he.2
    | direct client => exact replyTransparent_direct_iff h he.1 he.2

/-- From an empty conntrack, every reply carries the source that its connection expects exactly
    if no reply finds another connection's frame as the latest one redirected from its client's
    address and port. -/
theorem reply_transparent_iff {st : NatHost ncpu}
    (hconntrack : ∀ k, st.maps.conntrack.lookup k = none) (hredirects : st.redirects = [])
    {es : List (NatEvent ncpu)} (hrun : Always NatHost.step NatAssumptions st es) :
    Always NatHost.step ReplyTransparent st es ↔ Always NatHost.step ReplyUnambiguous st es := by
  have hinit : st.Tracked := by
    refine ⟨fun k => ?_, fun cfg _ w hw => ?_⟩
    · rw [hconntrack, hredirects, WriteLog.latest_nil]
    · rw [hredirects] at hw
      cases hw
  exact always_congr (fun st e h he => tracked_step h he) (fun st e h he => replyTransparent_iff h he)
    hinit hrun

/-- The client of the examples sends a TCP frame from port 40000. -/
def frameFromClient (daddr : IpAddr) (dPort : UInt16) (now : UInt64) : NatEvent 1 :=
  .host (.ingress (.good ⟨0, Nat.one_pos⟩ now)
    ⟨tcpFrame (localMac 1) (addrOfOctets 192 168 99 82) daddr 40000 dPort, 54⟩)

/-- The portal answers it. -/
def portalReply (c : Connection) (now : UInt64) : NatEvent 1 :=
  .reply (.good ⟨0, Nat.one_pos⟩ now) ⟨tcpFrame (localMac 9) (addrOfOctets 192 168 99 1)
    (addrOfOctets 192 168 99 82) 2050 40000, 54⟩ c

/-- The reply to a redirected request comes from the server that the client asked. -/
theorem reply_transparent_first_request :
    Always NatHost.step ReplyTransparent (⟨.start 1 .standard 0, []⟩ : NatHost 1)
      [frameFromClient (addrOfOctets 93 184 216 34) 80 0,
        portalReply (.redirected ⟨addrOfOctets 192 168 99 82, swap16 40000⟩
          (addrOfOctets 93 184 216 34) (swap16 80)) 1000] := by
  have hassume : Always NatHost.step NatAssumptions (⟨.start 1 .standard 0, []⟩ : NatHost 1)
      [frameFromClient (addrOfOctets 93 184 216 34) 80 0,
        portalReply (.redirected ⟨addrOfOctets 192 168 99 82, swap16 40000⟩
          (addrOfOctets 93 184 216 34) (swap16 80)) 1000] :=
    ⟨⟨⟨rfl, rfl, rfl, rfl, rfl⟩, fun _ _ => Or.inr (by decide)⟩, ⟨⟨rfl, rfl, rfl, rfl, rfl⟩,
      ⟨⟨by decide, by decide, by decide, by decide⟩, by decide, ⟨.standard, by decide +kernel⟩⟩⟩,
      trivial⟩
  refine (reply_transparent_iff (fun _ => rfl) rfl hassume).mpr ⟨trivial, fun _ => ⟨0, ?_⟩, trivial⟩
  decide +kernel

/-- The client reuses the port of a redirected request for a connection to the portal, and
    the portal's reply leaves with the source of the server. -/
theorem reply_rewritten_after_port_reuse :
    let es := [frameFromClient (addrOfOctets 93 184 216 34) 80 0,
      frameFromClient (addrOfOctets 192 168 99 1) 2050 1000,
      portalReply (.direct ⟨addrOfOctets 192 168 99 82, swap16 40000⟩) 2000]
    Always NatHost.step NatAssumptions (⟨.start 1 .standard 0, []⟩ : NatHost 1) es ∧
      ¬ Always NatHost.step ReplyTransparent (⟨.start 1 .standard 0, []⟩ : NatHost 1) es := by
  intro es
  refine ⟨⟨⟨⟨rfl, rfl, rfl, rfl, rfl⟩, fun _ _ => Or.inr (by decide)⟩,
    ⟨⟨rfl, rfl, rfl, rfl, rfl⟩, fun _ _ => Or.inr (by decide +kernel)⟩,
    ⟨⟨rfl, rfl, rfl, rfl, rfl⟩, ⟨⟨by decide, by decide, by decide, by decide⟩, by decide,
      ⟨.standard, by decide +kernel⟩⟩⟩, trivial⟩, fun h => ?_⟩
  obtain ⟨-, haddr, -⟩ := h.2.2.1
  revert haddr
  decide +kernel

end HawkGate
