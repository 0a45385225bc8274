-- SUMMARY: When ingress lets a frame without a session through: allow-list, walled garden, or a redirection that succeeded.
import HawkGate.Kernel.Hooks

/-!
# Ingress enforcement

A frame from a client without a session must be dropped, allowed by the
pre-auth lists, or sent to the portal. The redirection returns `TC_ACT_OK`
whether or not its helpers succeed, so the guarantee depends on the helpers that
write the destination.
-/

namespace HawkGate

open Bytes HawkGate.Frame

variable {ncpu : Nat}

/-- A frame that ingress must not let through for the sake of its sender or destination. -/
structure IngressUntrusted (env : BpfEnv ncpu) (s : HgMaps ncpu) (skb : SkBuff)
    (cfg : HgPortalCfg) : Prop where
  portal : s.portalCfg = some cfg
  ipv4 : ethProto skb.data = ethPIp
  notBypassed : s.bypass.lookup (saddr skb.data) = none
  notToPortal : daddr skb.data ≠ cfg.portalIp
  noSession : ∀ auth, s.clients.lookup (hSource skb.data) = some auth → auth.Expired env.ktimeNs

/-- Ingress drops the frame, or the pre-auth lists allow it, or it leaves for the portal. -/
def IngressFailsClosed (env : BpfEnv ncpu) (s : HgMaps ncpu) (skb : SkBuff) (cfg : HgPortalCfg) :
    Prop :=
  (hgTcIngress env s skb).verdict ≠ .shot →
    (∃ key, filterProto skb.data = .l3Ok key ∧ protoAllowed s.proto key = true) ∨
      s.wgCovers (daddr skb.data) = true ∨
      (daddr (hgTcIngress env s skb).data = cfg.portalIp ∧
        dest (hgTcIngress env s skb).data = cfg.portalPort)

/-- An HTTP frame of an unknown client that the pre-auth lists do not allow. -/
structure NeedsRedirect (s : HgMaps ncpu) (d : Bytes) : Prop where
  unknown : s.clients.lookup (hSource d) = none
  http : ∃ key, filterProto d = .l3Ok key ∧ protoAllowed s.proto key = false ∧
    key.proto = ipprotoTcp ∧ key.dPort = 80
  outside : s.wgCovers (daddr d) = false

/-- The helpers that a redirection depends on. A frame with a malformed header
    length is dropped; a port that already is the portal's need not be written. -/
structure RedirectHelpersOk (env : BpfEnv ncpu) (cfg : HgPortalCfg) (d : Bytes) : Prop where
  pull : env.pullData = true
  write : ihl d < 5 ∨
    env.storeAddr = true ∧ (env.storePort = true ∨ cfg.portalPort = swap16 80)

/-! ## The redirection -/

/-- The redirected frame reaches the portal, or is dropped, exactly when the helpers it
    depends on succeed. -/
theorem redirectToPortal_closed_iff (env : BpfEnv ncpu) (s : HgMaps ncpu) {d : Bytes}
    {cfg : HgPortalCfg} {key : HgAllowKey} (h : filterProto d = .l3Ok key)
    (hproto : key.proto = ipprotoTcp) (hport : key.dPort = 80) (hdst : daddr d ≠ cfg.portalIp) :
    ((redirectToPortal env s d cfg).verdict ≠ .shot →
      daddr (redirectToPortal env s d cfg).data = cfg.portalIp ∧
        dest (redirectToPortal env s d cfg).data = cfg.portalPort) ↔
      RedirectHelpersOk env cfg d := by
  obtain ⟨heth, -, hkey⟩ := filterProto_l3Ok h
  cases hpull : env.pullData with
  | false =>
    -- the frame passes with the destination it came with
    have hout : redirectToPortal env s d cfg = ⟨.ok, d, none, s⟩ := by
      rw [redirectToPortal, if_pos hpull]
    rw [hout]
    constructor
    · intro hclosed
      exact absurd (hclosed (by simp)).1 hdst
    · intro hok
      have := hok.pull
      simp [hpull] at this
  | true =>
    by_cases hihl : ihl d < 5
    · have hshot := (redirectToPortal_short_ihl s cfg hpull heth hihl).1
      exact ⟨fun _ => ⟨hpull, Or.inl hihl⟩, fun _ hne => absurd hshot hne⟩
    · have hd : CompleteTcp d := completeTcp_of_l3Ok h hproto (Nat.le_of_not_lt hihl)
      have hdest : dest d = swap16 80 := by
        rw [← hport, (filterProto_l3Ok_tcp h (hkey ▸ hproto)).2.2, swap16_swap16]
      rw [redirectToPortal_complete hpull hd]
      dsimp only
      rw [hd.daddr_dnatFrame, hd.dest_dnatFrame, hdest]
      constructor
      · intro hclosed
        obtain ⟨haddr, hp⟩ := hclosed (by simp)
        refine ⟨hpull, Or.inr ?_⟩
        split at haddr
        · next hs =>
          refine ⟨hs, ?_⟩
          split at hp
          · next hs => exact Or.inl hs
          · exact Or.inr hp.symm
        · exact absurd haddr hdst
      · intro hok _
        rcases hok.write with hlt | ⟨haddr, hp⟩
        · exact absurd hlt hihl
        · rw [if_pos haddr]
          rcases hp with hp | hp
          · rw [if_pos hp]
            exact ⟨rfl, rfl⟩
          · rw [hp]
            simp

/-! ## The hook -/

/-- For an untrusted frame, ingress fails closed exactly when the frame needs no redirection or the helpers that the
    redirection depends on succeed. -/
theorem ingress_fails_closed_iff {env : BpfEnv ncpu} {s : HgMaps ncpu} {skb : SkBuff}
    {cfg : HgPortalCfg} (hu : IngressUntrusted env s skb cfg) :
    IngressFailsClosed env s skb cfg ↔
      (NeedsRedirect s skb.data → RedirectHelpersOk env cfg skb.data) := by
  obtain ⟨hcfg, heth, hsrc, hdst, hdead⟩ := hu
  have hportal : s.toPortal skb.data = none := by
    apply HgMaps.toPortal_eq_none
    intro c hc
    obtain rfl := Option.some.inj (hcfg.symm.trans hc)
    exact hdst
  unfold IngressFailsClosed
  cases h : filterProto skb.data with
  | l2Only p => exact absurd h (filterProto_ne_l2Only heth)
  | invalid =>
    rw [hgTcIngress_invalid h]
    refine ⟨?_, fun _ hne => absurd rfl hne⟩
    rintro - ⟨-, ⟨key, hkey, -⟩, -⟩
    rw [h] at hkey
    cases hkey
  | l3Ok key =>
    cases hauth : s.clients.lookup (hSource skb.data) with
    | some auth =>
      rw [hgTcIngress_session h hsrc hportal hauth, ingressSession, if_pos (hdead auth hauth)]
      refine ⟨?_, fun _ hne => absurd rfl hne⟩
      rintro - ⟨hunknown, -, -⟩
      rw [hauth] at hunknown
      cases hunknown
    | none =>
      have hneeds : NeedsRedirect s skb.data ↔ protoAllowed s.proto key = false ∧
          s.wgCovers (daddr skb.data) = false ∧ key.proto = ipprotoTcp ∧ key.dPort = 80 := by
        constructor
        · rintro ⟨-, ⟨key', hkey', hallow, hproto, hport⟩, hwg⟩
          obtain rfl := ProtoResult.l3Ok.inj (h.symm.trans hkey')
          exact ⟨hallow, hwg, hproto, hport⟩
        · rintro ⟨hallow, hwg, hproto, hport⟩
          exact ⟨hauth, ⟨key, h, hallow, hproto, hport⟩, hwg⟩
      rw [hgTcIngress_preauth h hsrc hportal hauth, hneeds, ingressPreauth]
      simp only [HgMaps.bindClient_proto, HgMaps.bindClient_wgCovers, HgMaps.bindClient_portalCfg,
        hcfg]
      cases hallow : protoAllowed s.proto key with
      | true => simp [hallow]
      | false =>
        cases hwg : s.wgCovers (daddr skb.data) with
        | true => simp
        | false =>
          by_cases hhttp : key.proto = ipprotoTcp ∧ key.dPort = 80
          · have hred := redirectToPortal_closed_iff env
              (s.bindClient env (hSource skb.data) (saddr skb.data)) h hhttp.1 hhttp.2 hdst
            simpa [hallow, hhttp.1, hhttp.2] using hred
          · have hor : key.proto ≠ ipprotoTcp ∨ key.dPort ≠ 80 := by
              by_cases hp : key.proto = ipprotoTcp
              · exact Or.inr fun h80 => hhttp ⟨hp, h80⟩
              · exact Or.inl hp
            simp [hor, hhttp, TcResult.done]

/-- With working helpers, a first HTTP request ends at the portal. -/
theorem ingress_fails_closed_first_request :
    IngressFailsClosed (.good 0 0) (.start 1 .standard 0)
      ⟨tcpFrame (localMac 1) (addrOfOctets 192 168 99 82) (addrOfOctets 93 184 216 34) 40000 80,
        54⟩ .standard :=
  (ingress_fails_closed_iff ⟨rfl, by decide, rfl, by decide, by rintro _ ⟨⟩⟩).mpr
    fun _ => ⟨rfl, Or.inr ⟨rfl, Or.inl rfl⟩⟩

/-- When `bpf_skb_pull_data` fails, the same request leaves for the address it was sent to. -/
theorem ingress_leaks_when_pull_fails :
    let env : BpfEnv 1 := { BpfEnv.good 0 0 with pullData := false }
    let skb : SkBuff :=
      ⟨tcpFrame (localMac 1) (addrOfOctets 192 168 99 82) (addrOfOctets 93 184 216 34) 40000 80,
        54⟩
    IngressUntrusted env (.start 1 .standard 0) skb .standard ∧
      (hgTcIngress env (.start 1 .standard 0) skb).verdict = .ok ∧
      ¬ IngressFailsClosed env (.start 1 .standard 0) skb .standard := by
  refine ⟨⟨rfl, by decide, rfl, by decide, by rintro _ ⟨⟩⟩, by decide, fun hclosed => ?_⟩
  rcases hclosed (by decide) with ⟨key, hkey, hallow⟩ | hwg | ⟨haddr, -⟩
  · have hfilter : filterProto (tcpFrame (localMac 1) (addrOfOctets 192 168 99 82)
        (addrOfOctets 93 184 216 34) 40000 80) = .l3Ok ⟨6, 40000, 80⟩ := by decide
    obtain rfl := ProtoResult.l3Ok.inj (hfilter.symm.trans hkey)
    exact absurd hallow (by decide)
  · exact absurd hwg (by decide)
  · exact absurd haddr (by decide)

end HawkGate
