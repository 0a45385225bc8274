-- SUMMARY: The policy stages of the two hooks: which stage decides a frame, and what each stage returns.
import HawkGate.Kernel.Effects

/-!
# Policy stages

Each hook is a sequence of stages, and one of them decides the frame. Which one
that is depends on few of the maps, so comparing two runs of a hook is comparing
the stages first and the results of one stage then.
-/

namespace HawkGate

open Bytes HawkGate.Frame

variable {ncpu : Nat}

/-! ## Ingress -/

/-- The stage of `hg_tc_ingress` that decides a frame. -/
inductive IngressStage where
  /-- Classification, or the EtherType allow-list. -/
  | filter (v : TcAct)
  | bypass
  /-- Step 4. -/
  | portal (cfg : HgPortalCfg)
  /-- Step 5. -/
  | session (auth : HgClient)
  /-- Step 6. -/
  | allowList
  /-- Step 6a. -/
  | walledGarden
  /-- Step 7 for a frame that is not HTTP. -/
  | notHttp
  /-- Step 7 without a configured portal. -/
  | noPortal
  | redirect (cfg : HgPortalCfg)

/-- Steps 6 and 7. -/
def HgMaps.ingressPreauthStage (s : HgMaps ncpu) (d : Bytes) (key : HgAllowKey) : IngressStage :=
  if protoAllowed s.proto key then .allowList
  else if s.wgCovers (daddr d) then .walledGarden
  else if key.proto ≠ ipprotoTcp ∨ key.dPort ≠ 80 then .notHttp
  else
    match s.portalCfg with
    | none => .noPortal
    | some cfg => .redirect cfg

def HgMaps.ingressStage (s : HgMaps ncpu) (d : Bytes) : IngressStage :=
  match filterProto d with
  | .l2Only p => .filter (if (s.l2Allow.lookup p).isSome then .ok else .shot)
  | .invalid => .filter .shot
  | .l3Ok key =>
    if (s.bypass.lookup (saddr d)).isSome then .bypass
    else
      match s.toPortal d with
      | some cfg => .portal cfg
      | none =>
        match s.clients.lookup (hSource d) with
        | some auth => .session auth
        | none => s.ingressPreauthStage d key

/-- What a stage returns, given the maps after the binding step. -/
def IngressStage.result (env : BpfEnv ncpu) (s : HgMaps ncpu) (skb : SkBuff) :
    IngressStage → TcResult ncpu
  | .filter v => .done v skb.data s
  | .bypass | .allowList | .walledGarden | .noPortal => .done .ok skb.data s
  | .portal cfg => portalGate skb.data s cfg
  | .session auth => ingressSession env s skb (hSource skb.data) (saddr skb.data) auth
  | .notHttp => .done .shot skb.data s
  | .redirect cfg => redirectToPortal env s skb.data cfg

theorem ingressPreauth_eq_stage (env : BpfEnv ncpu) (s : HgMaps ncpu) (skb : SkBuff)
    (key : HgAllowKey) :
    ingressPreauth env s skb.data key =
      (s.ingressPreauthStage skb.data key).result env s skb := by
  unfold ingressPreauth HgMaps.ingressPreauthStage
  split
  · rfl
  · split
    · rfl
    · split
      · rfl
      · cases s.portalCfg with
        | none => rfl
        | some cfg => rfl

theorem HgMaps.ingressPreauthStage_bindClient (s : HgMaps ncpu) (env : BpfEnv ncpu)
    (m : HgMacKey) (ip : IpAddr) (d : Bytes) (key : HgAllowKey) :
    (s.bindClient env m ip).ingressPreauthStage d key = s.ingressPreauthStage d key := by
  simp only [HgMaps.ingressPreauthStage, HgMaps.bindClient_proto, HgMaps.bindClient_wgCovers,
    HgMaps.bindClient_portalCfg]

/-- Ingress binds the sender and returns what the deciding stage does. -/
theorem hgTcIngress_eq_stage (env : BpfEnv ncpu) (s : HgMaps ncpu) (skb : SkBuff) :
    hgTcIngress env s skb =
      (s.ingressStage skb.data).result env (s.bindFrame env skb.data) skb := by
  unfold hgTcIngress HgMaps.ingressStage HgMaps.bindFrame
  cases filterProto skb.data with
  | l2Only p => rfl
  | invalid => rfl
  | l3Ok key =>
    dsimp only
    split
    · rfl
    · rw [ingressPolicy, HgMaps.bindClient_toPortal, HgMaps.bindClient_clients]
      cases s.toPortal skb.data with
      | some cfg => rfl
      | none =>
        cases s.clients.lookup (hSource skb.data) with
        | some auth => rfl
        | none => rw [ingressPreauth_eq_stage, HgMaps.ingressPreauthStage_bindClient]

/-- Without a client entry the pre-auth stages are reached. -/
theorem HgMaps.ingressStage_preauth {s : HgMaps ncpu} {d : Bytes} {key : HgAllowKey}
    (hkey : filterProto d = .l3Ok key) (hsrc : s.bypass.lookup (saddr d) = none)
    (hdst : s.toPortal d = none) (hauth : s.clients.lookup (hSource d) = none) :
    s.ingressStage d = s.ingressPreauthStage d key := by
  rw [HgMaps.ingressStage, hkey]
  simp only [hsrc, hdst, hauth, Option.isSome_none, Bool.false_eq_true, if_false]

/-- Every stage after the filter sees a classified frame. -/
theorem HgMaps.l3Ok_of_ingressStage {s : HgMaps ncpu} {d : Bytes}
    (h : ∀ v, s.ingressStage d ≠ .filter v) : ∃ key, filterProto d = .l3Ok key := by
  rw [HgMaps.ingressStage] at h
  cases hkey : filterProto d with
  | l3Ok key => exact ⟨key, rfl⟩
  | l2Only p =>
    rw [hkey] at h
    exact absurd rfl (h _)
  | invalid =>
    rw [hkey] at h
    exact absurd rfl (h _)

/-- The client whose session ingress ends with this frame. -/
def HgMaps.endedSession (s : HgMaps ncpu) (env : BpfEnv ncpu) (d : Bytes) : Option HgMacKey :=
  match s.ingressStage d with
  | .session auth =>
    if auth.Expired env.ktimeNs ∧ env.deleteClient = true then some (hSource d) else none
  | _ => none

theorem HgMaps.eq_of_endedSession {s : HgMaps ncpu} {env : BpfEnv ncpu} {d : Bytes} {m : HgMacKey}
    (h : s.endedSession env d = some m) : m = hSource d := by
  unfold HgMaps.endedSession at h
  split at h
  · split at h
    · exact (Option.some.inj h).symm
    · cases h
  · cases h

/-- Ingress creates no client entry, and removes one if it ends the session. -/
theorem isSome_clients_hgTcIngress (env : BpfEnv ncpu) (s : HgMaps ncpu) (skb : SkBuff)
    (k : HgMacKey) :
    ((hgTcIngress env s skb).maps.clients.lookup k).isSome =
      (if s.endedSession env skb.data = some k then none else s.clients.lookup k).isSome := by
  rw [hgTcIngress_eq_stage, HgMaps.endedSession]
  cases s.ingressStage skb.data with
  | session auth =>
    simp only [IngressStage.result, ingressSession]
    by_cases hexp : auth.Expired env.ktimeNs
    · by_cases hdel : env.deleteClient = true
      · simp [hexp, hdel, TcResult.done, HgMaps.expireClient, HgMaps.modifyCounter,
          BoundedMap.lookup_erase, eq_comm]
      · simp [hexp, hdel, TcResult.done, HgMaps.expireClient, HgMaps.modifyCounter]
    · have hwrite : ∀ cs, (((s.bindFrame env skb.data).writeClient (hSource skb.data) cs).clients.lookup
          k).isSome = (s.clients.lookup k).isSome := by
        intro cs
        rw [HgMaps.writeClient, BoundedMap.lookup_modify, HgMaps.bindFrame_clients]
        split
        · next h => rw [Option.isSome_map, h]
        · rfl
      simp only [hexp, false_and, if_false, reduceCtorEq]
      split
      · exact hwrite _
      · split
        · exact hwrite _
        · exact hwrite _
  | portal cfg =>
    simp only [IngressStage.result, portalGate]
    split
    · simp [TcResult.done]
    · simp [TcResult.done]
  | redirect cfg =>
    rcases (redirectToPortal_maps env (s.bindFrame env skb.data) skb.data cfg).2 with h | ⟨j, v, h⟩
    · simp [IngressStage.result, h]
    · simp only [IngressStage.result, h]
      rw [HgMaps.trackFlow_frame]
      simp
  | filter v => simp [IngressStage.result, TcResult.done]
  | bypass => simp [IngressStage.result, TcResult.done]
  | allowList => simp [IngressStage.result, TcResult.done]
  | walledGarden => simp [IngressStage.result, TcResult.done]
  | notHttp => simp [IngressStage.result, TcResult.done]
  | noPortal => simp [IngressStage.result, TcResult.done]

/-! ## Egress -/

/-- The stage of `hg_tc_egress` that decides a frame. -/
inductive EgressStage where
  /-- Classification, or the EtherType allow-list. -/
  | filter (v : TcAct)
  /-- Step 2, for a frame from the portal. -/
  | snat
  | bypass
  /-- Step 4. -/
  | session (m : HgMacKey) (auth : HgClient)
  /-- Step 5. -/
  | allowList
  /-- Step 6. -/
  | walledGarden
  | blocked

def HgMaps.egressStage (s : HgMaps ncpu) (d : Bytes) : EgressStage :=
  match filterProto d with
  | .l2Only p => .filter (if (s.l2Allow.lookup p).isSome then .ok else .shot)
  | .invalid => .filter .shot
  | .l3Ok key =>
    if s.fromPortal d then .snat
    else if (s.bypass.lookup (daddr d)).isSome then .bypass
    else
      match s.sessionOf (daddr d) with
      | some (m, auth) => .session m auth
      | none =>
        if protoAllowed s.proto key then .allowList
        else if s.wgCovers (saddr d) then .walledGarden
        else .blocked

def EgressStage.result (env : BpfEnv ncpu) (s : HgMaps ncpu) (skb : SkBuff) :
    EgressStage → TcResult ncpu
  | .filter v => .done v skb.data s
  | .snat => snatFromConntrack env s skb.data
  | .bypass | .allowList | .walledGarden => .done .ok skb.data s
  | .session m auth => egressSession env s skb m (daddr skb.data) auth
  | .blocked => .done .shot skb.data s

theorem hgTcEgress_eq_stage (env : BpfEnv ncpu) (s : HgMaps ncpu) (skb : SkBuff) :
    hgTcEgress env s skb = (s.egressStage skb.data).result env s skb := by
  unfold hgTcEgress HgMaps.egressStage
  cases filterProto skb.data with
  | l2Only p => rfl
  | invalid => rfl
  | l3Ok key =>
    dsimp only
    split
    · rfl
    · unfold egressPolicy
      split
      · rfl
      · cases s.sessionOf (daddr skb.data) with
        | some ma => rfl
        | none =>
          simp only [egressPreauth]
          split
          · rfl
          · split
            · rfl
            · rfl

/-- The session stage of egress runs for the client that the destination is bound to. -/
theorem HgMaps.ipMac_of_egressStage {s : HgMaps ncpu} {d : Bytes} {m : HgMacKey} {auth : HgClient}
    (h : s.egressStage d = .session m auth) : s.ipMac.lookup (daddr d) = some m := by
  unfold HgMaps.egressStage at h
  split at h
  · cases h
  · cases h
  · split at h
    · cases h
    · split at h
      · cases h
      · split at h
        · next m' auth' hof =>
          obtain ⟨rfl, rfl⟩ := EgressStage.session.inj h
          obtain ⟨k, hbound, hk⟩ := Option.bind_eq_some_iff.mp hof
          obtain ⟨cs, -, heq⟩ := Option.map_eq_some_iff.mp hk
          rw [hbound, (Prod.mk.inj heq).1]
        · split at h
          · cases h
          · split at h
            · cases h
            · cases h

end HawkGate
