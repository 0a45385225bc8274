-- SUMMARY: Every frame that a hook lets through has a cause: the portal, HTTP to be redirected, or a granted permission.
import HawkGate.Guarantees.AllowList
import HawkGate.Guarantees.IngressEnforcement
import HawkGate.Guarantees.Provenance

/-!
# Admission

The decisions of the hooks in terms of the permissions. A frame that a hook does
not drop belongs to the portal, is HTTP that the redirection handles, or is
covered by a permission; and in a run of the gateway that permission has a cause.
-/

namespace HawkGate

open Bytes HawkGate.Frame Transition

variable {ncpu : Nat}

/-- The frame has a complete IP header and, for TCP and UDP, ports. -/
def IsIpv4 (d : Bytes) : Prop := ∃ key, filterProto d = .l3Ok key

/-- A frame that a client sends is covered by the permission. -/
def Permission.CoversUpload (d : Bytes) : Permission → Prop
  | .etherType p => filterProto d = .l2Only p
  | .bypass ip => IsIpv4 d ∧ saddr d = ip
  | .session m => IsIpv4 d ∧ hSource d = m
  | .rule r => ∃ key, filterProto d = .l3Ok key ∧ r.Matches key
  | .garden k => IsIpv4 d ∧ prefixAgree k.prefixlen k.ip (daddr d) = true

/-- A frame for a client is covered by the permission, where `bound` is the table of the clients'
    addresses. -/
def Permission.CoversDownload (bound : BoundedMap IpAddr HgMacKey 4096) (d : Bytes) :
    Permission → Prop
  | .etherType p => filterProto d = .l2Only p
  | .bypass ip => IsIpv4 d ∧ daddr d = ip
  | .session m => IsIpv4 d ∧ bound.lookup (daddr d) = some m
  | .rule r => ∃ key, filterProto d = .l3Ok key ∧ r.Matches key
  | .garden k => IsIpv4 d ∧ prefixAgree k.prefixlen k.ip (saddr d) = true

/-! ## The lists -/

theorem exists_rule_of_protoAllowed {proto : BoundedMap HgAllowKey UInt8 64} {k : HgAllowKey}
    (h : protoAllowed proto k = true) : ∃ r, (proto.lookup r).isSome = true ∧ r.Matches k := by
  simp only [protoAllowed, Bool.or_eq_true] at h
  rcases h with (((h | h) | h) | h) | h
  · exact ⟨_, h, .inl rfl, .inl rfl, .inl rfl⟩
  · exact ⟨_, h, .inr rfl, .inl rfl, .inl rfl⟩
  · exact ⟨_, h, .inl rfl, .inr rfl, .inl rfl⟩
  · exact ⟨_, h, .inl rfl, .inl rfl, .inr rfl⟩
  · exact ⟨_, h, .inl rfl, .inr rfl, .inr rfl⟩

theorem exists_block_of_wgCovers {s : HgMaps ncpu} {ip : IpAddr} (h : s.wgCovers ip = true) :
    ∃ k, (s.walledGarden.lookup k).isSome = true ∧ prefixAgree k.prefixlen k.ip ip = true := by
  obtain ⟨e, he, hagree⟩ := List.any_eq_true.mp h
  refine ⟨e.1, ?_, hagree⟩
  rw [← BoundedMap.mem_keys_iff]
  exact List.mem_map_of_mem he

/-! ## The hooks -/

section
variable (env : BpfEnv ncpu) (s : HgMaps ncpu) (skb : SkBuff)

/-- The frame is HTTP, and it leaves for the portal if the helpers of the redirection succeed. -/
structure HttpToPortal (cfg : HgPortalCfg) : Prop where
  http : ∃ key, filterProto skb.data = .l3Ok key ∧ key.proto = ipprotoTcp ∧ key.dPort = 80
  redirected : RedirectHelpersOk env cfg skb.data →
    daddr (hgTcIngress env s skb).data = cfg.portalIp ∧
      dest (hgTcIngress env s skb).data = cfg.portalPort

/-- An upload that is not dropped is for the portal, or HTTP that is redirected to it, or covered by
    a permission. -/
theorem upload_covered {cfg : HgPortalCfg} (hcfg : s.portalCfg = some cfg)
    (hout : (hgTcIngress env s skb).verdict ≠ .shot) :
    daddr skb.data = cfg.portalIp ∨ HttpToPortal env s skb cfg ∨
      ∃ p, p.CoversUpload skb.data ∧ s.permits p = true := by
  have h := hout
  unfold hgTcIngress at h
  cases hkey : filterProto skb.data with
  | invalid =>
    rw [hkey] at h
    exact absurd rfl h
  | l2Only p =>
    rw [hkey] at h
    refine Or.inr (Or.inr ⟨.etherType p, hkey, ?_⟩)
    by_contra hnone
    exact h (if_neg hnone)
  | l3Ok key =>
    have hip : IsIpv4 skb.data := ⟨key, hkey⟩
    rw [hkey] at h
    dsimp only at h
    by_cases hbypass : (s.bypass.lookup (saddr skb.data)).isSome = true
    · exact Or.inr (Or.inr ⟨.bypass _, ⟨hip, rfl⟩, hbypass⟩)
    · have hsrc : s.bypass.lookup (saddr skb.data) = none := by simpa using hbypass
      rw [if_neg hbypass, ingressPolicy, HgMaps.bindClient_toPortal, HgMaps.bindClient_clients] at h
      cases hto : s.toPortal skb.data with
      | some cfg' =>
        obtain ⟨hcfg', hdst⟩ := Option.filter_eq_some_iff.mp hto
        obtain rfl := Option.some.inj (hcfg.symm.trans hcfg')
        exact Or.inl (of_decide_eq_true hdst)
      | none =>
        rw [hto] at h
        cases hauth : s.clients.lookup (hSource skb.data) with
        | some auth =>
          refine Or.inr (Or.inr ⟨.session _, ⟨hip, rfl⟩, ?_⟩)
          rw [HgMaps.permits, hauth]
          rfl
        | none =>
          rw [hauth] at h
          dsimp only at h
          unfold ingressPreauth at h
          rw [HgMaps.bindClient_proto, HgMaps.bindClient_wgCovers] at h
          by_cases hrule : protoAllowed s.proto key = true
          · obtain ⟨r, hr, hmatch⟩ := exists_rule_of_protoAllowed hrule
            exact Or.inr (Or.inr ⟨.rule r, ⟨key, hkey, hmatch⟩, hr⟩)
          · rw [if_neg hrule] at h
            by_cases hgarden : s.wgCovers (daddr skb.data) = true
            · obtain ⟨k, hk, hagree⟩ := exists_block_of_wgCovers hgarden
              exact Or.inr (Or.inr ⟨.garden k, ⟨hip, hagree⟩, hk⟩)
            · rw [if_neg hgarden] at h
              by_cases hhttp : key.proto ≠ ipprotoTcp ∨ key.dPort ≠ 80
              · rw [if_pos hhttp] at h
                exact absurd rfl h
              · obtain ⟨htcp, hport⟩ := not_or.mp hhttp
                have hdst : daddr skb.data ≠ cfg.portalIp := by
                  intro heq
                  simp [HgMaps.toPortal, hcfg, heq] at hto
                -- the rest of the hook is the redirection
                have hredirect : hgTcIngress env s skb = redirectToPortal env
                    (s.bindClient env (hSource skb.data) (saddr skb.data)) skb.data cfg := by
                  rw [hgTcIngress_preauth hkey hsrc hto hauth, ingressPreauth,
                    HgMaps.bindClient_proto, if_neg hrule, HgMaps.bindClient_wgCovers,
                    if_neg hgarden, if_neg hhttp, HgMaps.bindClient_portalCfg, hcfg]
                refine Or.inr (Or.inl ⟨⟨key, hkey, not_not.mp htcp, not_not.mp hport⟩, ?_⟩)
                intro hhelpers
                rw [hredirect] at hout ⊢
                exact (redirectToPortal_closed_iff env _ hkey (not_not.mp htcp)
                  (not_not.mp hport) hdst).mpr hhelpers hout

/-- A download that is not dropped comes from the portal or is covered by a permission. -/
theorem download_covered (h : (hgTcEgress env s skb).verdict ≠ .shot) :
    (∃ cfg, s.portalCfg = some cfg ∧ saddr skb.data = cfg.portalIp) ∨
      ∃ p, p.CoversDownload s.ipMac skb.data ∧ s.permits p = true := by
  unfold hgTcEgress at h
  cases hkey : filterProto skb.data with
  | invalid =>
    rw [hkey] at h
    exact absurd rfl h
  | l2Only p =>
    rw [hkey] at h
    refine Or.inr ⟨.etherType p, hkey, ?_⟩
    by_contra hnone
    exact h (if_neg hnone)
  | l3Ok key =>
    have hip : IsIpv4 skb.data := ⟨key, hkey⟩
    rw [hkey] at h
    dsimp only at h
    by_cases hfrom : s.fromPortal skb.data = true
    · cases hcfg : s.portalCfg with
      | none => simp [HgMaps.fromPortal, hcfg] at hfrom
      | some cfg => exact Or.inl ⟨cfg, rfl, by simpa [HgMaps.fromPortal, hcfg] using hfrom⟩
    · rw [if_neg hfrom, egressPolicy] at h
      by_cases hbypass : (s.bypass.lookup (daddr skb.data)).isSome = true
      · exact Or.inr ⟨.bypass _, ⟨hip, rfl⟩, hbypass⟩
      · rw [if_neg hbypass] at h
        cases hsession : s.sessionOf (daddr skb.data) with
        | some ma =>
          obtain ⟨m, hbound, hm⟩ := Option.bind_eq_some_iff.mp hsession
          obtain ⟨cs, hcs, -⟩ := Option.map_eq_some_iff.mp hm
          refine Or.inr ⟨.session m, ⟨hip, hbound⟩, ?_⟩
          rw [HgMaps.permits, hcs]
          rfl
        | none =>
          rw [hsession] at h
          dsimp only at h
          unfold egressPreauth at h
          by_cases hrule : protoAllowed s.proto key = true
          · obtain ⟨r, hr, hmatch⟩ := exists_rule_of_protoAllowed hrule
            exact Or.inr ⟨.rule r, ⟨key, hkey, hmatch⟩, hr⟩
          · rw [if_neg hrule] at h
            by_cases hgarden : s.wgCovers (saddr skb.data) = true
            · obtain ⟨k, hk, hagree⟩ := exists_block_of_wgCovers hgarden
              exact Or.inr ⟨.garden k, ⟨hip, hagree⟩, hk⟩
            · rw [if_neg hgarden] at h
              exact absurd rfl h

end

/-! ## Runs -/

/-- No event changes the portal. -/
theorem portalCfg_gatewayStep (g : Gateway ncpu) (e : GatewayEvent ncpu) :
    (g.step e).maps.portalCfg = g.maps.portalCfg := by
  cases e with
  | start party => rfl
  | ingress env skb => exact portalCfg_hgTcIngress env g.maps skb
  | egress env skb => exact portalCfg_hgTcEgress env g.maps skb
  | call i env =>
    rw [Gateway.step]
    cases g.running[i]? with
    | none => rfl
    | some rp =>
      obtain ⟨party, rest⟩ := rp
      cases rest with
      | ret a => rfl
      | call op k =>
        cases op with
        | map op => cases op <;> rfl
        | list op => cases op <;> rfl
        | host op => rfl

theorem portalCfg_run (g : Gateway ncpu) (es : List (GatewayEvent ncpu)) :
    (run Gateway.step g es).maps.portalCfg = g.maps.portalCfg := by
  induction es generalizing g with
  | nil => rfl
  | cons e es ih => rw [run_cons, ih, portalCfg_gatewayStep]

/-- Whatever a gateway lets through after any run has a cause in the run: the frame is the
    portal's, or HTTP that leaves for the portal if the helpers of the redirection succeed, or
    covered by a permission that an authorised party granted and that was not revoked since. -/
theorem admission_justified (portal : HgPortalCfg) (ifb : UInt32) (es : List (GatewayEvent ncpu))
    (env : BpfEnv ncpu) (skb : SkBuff) :
    let s := (run Gateway.step (.start ncpu portal ifb) es).maps
    ((hgTcIngress env s skb).verdict ≠ .shot →
      daddr skb.data = portal.portalIp ∨ HttpToPortal env s skb portal ∨
        ∃ p, p.CoversUpload skb.data ∧ Granted (.start ncpu portal ifb) es p) ∧
    ((hgTcEgress env s skb).verdict ≠ .shot →
      saddr skb.data = portal.portalIp ∨
        ∃ p, p.CoversDownload s.ipMac skb.data ∧ Granted (.start ncpu portal ifb) es p) := by
  intro s
  have hportal : s.portalCfg = some portal := portalCfg_run (.start ncpu portal ifb) es
  constructor
  · intro h
    rcases upload_covered env s skb hportal h with hdst | hhttp | ⟨p, hp, hheld⟩
    · exact Or.inl hdst
    · exact Or.inr (Or.inl hhttp)
    · exact Or.inr (Or.inr ⟨p, hp, (permits_iff_granted portal ifb es p).mp hheld⟩)
  · intro h
    rcases download_covered env s skb h with ⟨cfg, hcfg, hsrc⟩ | ⟨p, hp, hheld⟩
    · rw [hportal] at hcfg
      exact Or.inl (Option.some.inj hcfg ▸ hsrc)
    · exact Or.inr ⟨p, hp, (permits_iff_granted portal ifb es p).mp hheld⟩

end HawkGate
