-- SUMMARY: What one packet can change: session data, counters, bindings and conntrack, for each hook.
import HawkGate.Kernel.Hooks

/-!
# Effects of the hooks

One inversion lemma for each hook says which stage decided a packet and what it
left. The lemmas after it read off, map by map, what a packet can change.
-/

namespace HawkGate

open Bytes HawkGate.Frame

variable {ncpu : Nat}

/-! ## Session data -/

/-- A client entry without its departure stamps, which every packet may move. -/
def HgClient.session (cs : HgClient) : HgClient := { cs with lastUTstamp := 0, lastDTstamp := 0 }

/-- The session data stored for a client. -/
def HgMaps.session (s : HgMaps ncpu) (m : HgMacKey) : Option HgClient :=
  (s.clients.lookup m).map HgClient.session

@[simp] theorem HgClient.session_setTstamp (cs : HgClient) (up : Bool) (t : UInt64) :
    (cs.setTstamp up t).session = cs.session := by
  cases up <;> rfl

@[simp] theorem applyEdtShaping_session (rates : BoundedMap UInt32 HgRateCfg 256) (now : UInt64)
    (len : UInt32) (cs : HgClient) (up : Bool) :
    (applyEdtShaping rates now len cs up).client.session = cs.session := by
  rcases applyEdtShaping_client rates now len cs up with h | ⟨t, h⟩ <;> simp [h]

/-- Writing back an entry with the same session data changes no session data. -/
theorem HgMaps.session_writeClient {s : HgMaps ncpu} {m : HgMacKey} {auth cs : HgClient}
    (hauth : s.clients.lookup m = some auth) (hcs : cs.session = auth.session) (k : HgMacKey) :
    (s.writeClient m cs).session k = s.session k := by
  simp only [HgMaps.session, HgMaps.writeClient, BoundedMap.lookup_modify]
  split
  · next h =>
    subst h
    simp [hauth, hcs]
  · rfl

/-- Two states with the same session data for a client have entries that agree on it. -/
theorem HgMaps.exists_lookup_of_session {s t : HgMaps ncpu} {k : HgMacKey} {cs : HgClient}
    (h : t.session k = s.session k) (hcs : t.clients.lookup k = some cs) :
    ∃ cs', s.clients.lookup k = some cs' ∧ cs'.session = cs.session := by
  rw [HgMaps.session, HgMaps.session, hcs] at h
  exact Option.map_eq_some_iff.mp h.symm

theorem HgClient.rateLimitId_of_session {cs cs' : HgClient} (h : cs.session = cs'.session) :
    cs.rateLimitId = cs'.rateLimitId := by
  have hid : cs.session.rateLimitId = cs'.session.rateLimitId := by rw [h]
  exact hid

/-! ## Accounting -/

/-- What a projection sees of the counter of an address, on every CPU. -/
def HgMaps.counted {γ : Type} (s : HgMaps ncpu) (g : HgCounter → γ) (a : IpAddr) :
    Option (Fin ncpu → γ) :=
  (s.counters.lookup a).map fun c cpu => g (c cpu)

/-- A counter without its state flag. -/
def HgCounter.traffic (c : HgCounter) : HgCounter := { c with state := 0 }

/-- The traffic counted for an address. -/
abbrev HgMaps.traffic (s : HgMaps ncpu) : IpAddr → Option (Fin ncpu → HgCounter) :=
  s.counted HgCounter.traffic

/-- The state flags of an address. -/
abbrev HgMaps.states (s : HgMaps ncpu) : IpAddr → Option (Fin ncpu → UInt32) :=
  s.counted HgCounter.state

theorem HgMaps.counted_modifyCounter {γ : Type} {s : HgMaps ncpu} {g : HgCounter → γ}
    {cpu : Fin ncpu} {ip : IpAddr} {f : HgCounter → HgCounter} (hf : ∀ c, g (f c) = g c) :
    (s.modifyCounter cpu ip f).counted g = s.counted g := by
  funext a
  simp only [HgMaps.counted, HgMaps.modifyCounter, BoundedMap.lookup_modify]
  split
  · next h =>
    subst h
    rw [Option.map_map]
    congr 1
    funext c i
    by_cases hi : i = cpu
    · subst hi
      simp [hf]
    · simp [hi]
  · rfl

theorem HgMaps.counted_modifyCounter_ne {γ : Type} {s : HgMaps ncpu} {g : HgCounter → γ}
    {cpu : Fin ncpu} {ip a : IpAddr} {f : HgCounter → HgCounter} (h : a ≠ ip) :
    (s.modifyCounter cpu ip f).counted g a = s.counted g a := by
  simp only [HgMaps.counted, HgMaps.modifyCounter, BoundedMap.lookup_modify, if_neg h]

/-- Counting a download is visible in the traffic. -/
theorem HgMaps.traffic_countDownload_ne {s : HgMaps ncpu} {ip : IpAddr} {c : Fin ncpu → HgCounter}
    (hc : s.counters.lookup ip = some c) (cpu : Fin ncpu) (len : UInt32) :
    (s.modifyCounter cpu ip (HgCounter.countDownload len)).traffic ≠ s.traffic := by
  intro h
  have hip := congrFun h ip
  simp only [HgMaps.counted, HgMaps.modifyCounter, BoundedMap.lookup_modify, if_true, hc,
    Option.map_some, Option.some.injEq] at hip
  have hcpu := congrFun hip cpu
  simp only [Function.update_self, HgCounter.traffic, HgCounter.countDownload] at hcpu
  have hpackets : (c cpu).dPackets + 1 = (c cpu).dPackets := congrArg HgCounter.dPackets hcpu
  have hnat := congrArg UInt64.toNat hpackets
  simp only [UInt64.toNat_add, UInt64.reduceToNat] at hnat
  have hlt := (c cpu).dPackets.toNat_lt
  omega

/-- The expiry branch only marks the counter. -/
theorem traffic_expireClient (s : HgMaps ncpu) (env : BpfEnv ncpu) (m : HgMacKey) (ip : IpAddr) :
    (s.expireClient env m ip).traffic = s.traffic := by
  rw [HgMaps.expireClient, HgMaps.traffic, HgMaps.counted_modifyCounter]
  · cases env.deleteClient <;> rfl
  · intro c
    rfl

theorem traffic_bindClient (s : HgMaps ncpu) (env : BpfEnv ncpu) (m : HgMacKey) (ip : IpAddr) :
    (s.bindClient env m ip).traffic = s.traffic := by
  funext a
  simp [HgMaps.counted]

/-! ## Stages without a session -/

/-- What a redirection returns and which flow it records, if any, depends on the frame alone. -/
theorem exists_redirect (env : BpfEnv ncpu) (d : Bytes) (cfg : HgPortalCfg) :
    ∃ v d' w, (∀ kv : HgCtKey × HgCtVal, w = some kv → kv.1.clientIp = saddr d) ∧
      ∀ s : HgMaps ncpu, redirectToPortal env s d cfg =
        ⟨v, d', none, w.elim s fun kv => s.trackFlow env kv.1 kv.2⟩ := by
  have hnone : ∀ kv : HgCtKey × HgCtVal, none = some kv → kv.1.clientIp = saddr d := by
    intro kv hkv
    cases hkv
  rcases headersOk_or env d with hok | ⟨v, hred, -⟩
  · by_cases htcp : protocol d = ipprotoTcp
    · by_cases hroom : d.length < l4Off d + tcpHLen
      · refine ⟨.shot, dnatIp env d cfg, none, hnone, fun s => ?_⟩
        rw [hok.redirectToPortal_eq, if_pos htcp, if_pos hroom]
        rfl
      · let d₁ := dnatIp env d cfg
        let flow : HgCtKey × HgCtVal :=
          (⟨saddr d, load16 d₁ (l4Off d)⟩, ⟨daddr d, load16 d₁ (l4Off d + 2), env.bootNs⟩)
        refine ⟨.ok, dnatTcp env d₁ (l4Off d) (daddr d) (load16 d₁ (l4Off d + 2)) cfg, some flow,
          fun kv hkv => ?_, fun s => ?_⟩
        · obtain rfl := Option.some.inj hkv
          rfl
        · rw [hok.redirectToPortal_eq, if_pos htcp, if_neg hroom]
          rfl
    · refine ⟨.ok, dnatIp env d cfg, none, hnone, fun s => ?_⟩
      rw [hok.redirectToPortal_eq, if_neg htcp]
      rfl
  · exact ⟨v, d, none, hnone, fun s => hred s cfg⟩

theorem redirectToPortal_maps (env : BpfEnv ncpu) (s : HgMaps ncpu) (d : Bytes)
    (cfg : HgPortalCfg) :
    (redirectToPortal env s d cfg).stamp = none ∧
      ((redirectToPortal env s d cfg).maps = s ∨
        ∃ key val, (redirectToPortal env s d cfg).maps = s.trackFlow env key val) := by
  obtain ⟨v, d', w, -, hrun⟩ := exists_redirect env d cfg
  rw [hrun]
  cases w with
  | none => exact ⟨rfl, Or.inl rfl⟩
  | some kv => exact ⟨rfl, Or.inr ⟨kv.1, kv.2, rfl⟩⟩

/-- What the reversal of a redirection returns depends on the frame and its conntrack entry. -/
theorem exists_snat (env : BpfEnv ncpu) (d : Bytes) (ct : Option HgCtVal) :
    ∃ v d', ∀ s : HgMaps ncpu, s.conntrack.lookup (ctReplyKeyOf d) = ct →
      snatFromConntrack env s d = ⟨v, d', none, s⟩ := by
  rcases headersOk_or env d with hok | ⟨v, -, hsnat⟩
  · by_cases htcp : protocol d = ipprotoTcp
    · by_cases hroom : d.length < l4Off d + tcpHLen
      · refine ⟨.shot, d, fun s _ => ?_⟩
        rw [hok.snatFromConntrack_eq, if_pos htcp, if_pos hroom]
      · cases ct with
        | none =>
          refine ⟨.ok, d, fun s hct => ?_⟩
          rw [hok.snatFromConntrack_eq, if_pos htcp, if_neg hroom, hct]
        | some val =>
          by_cases hold : hgCtTimeoutNs < env.bootNs - val.createdNs
          · refine ⟨.ok, d, fun s hct => ?_⟩
            rw [hok.snatFromConntrack_eq, if_pos htcp, if_neg hroom, hct]
            exact if_pos hold
          · refine ⟨.ok, snatRewrite env d val, fun s hct => ?_⟩
            rw [hok.snatFromConntrack_eq, if_pos htcp, if_neg hroom, hct]
            exact if_neg hold
    · refine ⟨.ok, d, fun s _ => ?_⟩
      rw [hok.snatFromConntrack_eq, if_neg htcp]
  · exact ⟨v, d, fun s _ => hsnat s⟩

theorem snatFromConntrack_maps (env : BpfEnv ncpu) (s : HgMaps ncpu) (d : Bytes) :
    (snatFromConntrack env s d).stamp = none ∧ (snatFromConntrack env s d).maps = s := by
  obtain ⟨v, d', hrun⟩ := exists_snat env d (s.conntrack.lookup (ctReplyKeyOf d))
  rw [hrun s rfl]
  exact ⟨rfl, rfl⟩

theorem ingressPreauth_maps (env : BpfEnv ncpu) (s : HgMaps ncpu) (d : Bytes) (key : HgAllowKey) :
    (ingressPreauth env s d key).stamp = none ∧
      ((ingressPreauth env s d key).maps = s ∨
        ∃ k v, (ingressPreauth env s d key).maps = s.trackFlow env k v) := by
  unfold ingressPreauth
  split
  · exact ⟨rfl, Or.inl rfl⟩
  · split
    · exact ⟨rfl, Or.inl rfl⟩
    · split
      · exact ⟨rfl, Or.inl rfl⟩
      · split
        · exact ⟨rfl, Or.inl rfl⟩
        · exact redirectToPortal_maps env s d _

/-! ## Ingress -/

/-- The maps after the binding step of ingress, if the frame gets that far. -/
def HgMaps.bindFrame (s : HgMaps ncpu) (env : BpfEnv ncpu) (d : Bytes) : HgMaps ncpu :=
  match filterProto d with
  | .l3Ok _ =>
    if (s.bypass.lookup (saddr d)).isSome then s else s.bindClient env (hSource d) (saddr d)
  | _ => s

/-- What ingress can do with a packet: decide it before the binding step, decide it
    without a session, or run the session stage. -/
inductive IngressStep (env : BpfEnv ncpu) (s : HgMaps ncpu) (skb : SkBuff) : TcResult ncpu → Prop
  | early (v : TcAct) (hbind : s.bindFrame env skb.data = s) :
    IngressStep env s skb (.done v skb.data s)
  | noSession (key : HgAllowKey) (r : TcResult ncpu) (hkey : filterProto skb.data = .l3Ok key)
    (hsrc : s.bypass.lookup (saddr skb.data) = none) (hstamp : r.stamp = none)
    (hmaps : r.maps = s.bindFrame env skb.data ∨
      ∃ k v, r.maps = (s.bindFrame env skb.data).trackFlow env k v) :
    IngressStep env s skb r
  | session (key : HgAllowKey) (auth : HgClient) (hkey : filterProto skb.data = .l3Ok key)
    (hsrc : s.bypass.lookup (saddr skb.data) = none) (hdst : s.toPortal skb.data = none)
    (hauth : s.clients.lookup (hSource skb.data) = some auth) :
    IngressStep env s skb
      (ingressSession env (s.bindFrame env skb.data) skb (hSource skb.data) (saddr skb.data) auth)

section
variable (env : BpfEnv ncpu) (s : HgMaps ncpu) (skb : SkBuff)

theorem HgMaps.bindFrame_l3Ok {s : HgMaps ncpu} {env : BpfEnv ncpu} {d : Bytes} {key : HgAllowKey}
    (hkey : filterProto d = .l3Ok key) (hsrc : s.bypass.lookup (saddr d) = none) :
    s.bindFrame env d = s.bindClient env (hSource d) (saddr d) := by
  rw [HgMaps.bindFrame, hkey]
  simp [hsrc]

/-- Binding writes nothing but the two binding maps. -/
theorem HgMaps.bindFrame_frame (d : Bytes) :
    s.bindFrame env d =
      { s with macIp := (s.bindFrame env d).macIp, ipMac := (s.bindFrame env d).ipMac } := by
  unfold HgMaps.bindFrame
  split
  · split
    · rfl
    · exact s.bindClient_frame env _ _
  · rfl

@[simp] theorem HgMaps.bindFrame_clients (d : Bytes) : (s.bindFrame env d).clients = s.clients := by
  rw [HgMaps.bindFrame_frame]

@[simp] theorem HgMaps.bindFrame_counters (d : Bytes) :
    (s.bindFrame env d).counters = s.counters := by
  rw [HgMaps.bindFrame_frame]

@[simp] theorem HgMaps.bindFrame_rates (d : Bytes) : (s.bindFrame env d).rates = s.rates := by
  rw [HgMaps.bindFrame_frame]

@[simp] theorem HgMaps.bindFrame_portalCfg (d : Bytes) :
    (s.bindFrame env d).portalCfg = s.portalCfg := by
  rw [HgMaps.bindFrame_frame]

@[simp] theorem HgMaps.bindFrame_bypass (d : Bytes) : (s.bindFrame env d).bypass = s.bypass := by
  rw [HgMaps.bindFrame_frame]

@[simp] theorem HgMaps.bindFrame_walledGarden (d : Bytes) :
    (s.bindFrame env d).walledGarden = s.walledGarden := by
  rw [HgMaps.bindFrame_frame]

theorem HgMaps.session_bindFrame (d : Bytes) (k : HgMacKey) :
    (s.bindFrame env d).session k = s.session k := by
  rw [HgMaps.session, HgMaps.bindFrame_clients, HgMaps.session]

theorem HgMaps.counted_bindFrame {γ : Type} (g : HgCounter → γ) (d : Bytes) :
    (s.bindFrame env d).counted g = s.counted g := by
  funext a
  rw [HgMaps.counted, HgMaps.bindFrame_counters, HgMaps.counted]

theorem hgTcIngress_step : IngressStep env s skb (hgTcIngress env s skb) := by
  cases h : filterProto skb.data with
  | l2Only p =>
    rw [hgTcIngress, h]
    exact .early _ (by rw [HgMaps.bindFrame, h])
  | invalid =>
    rw [hgTcIngress, h]
    exact .early _ (by rw [HgMaps.bindFrame, h])
  | l3Ok key =>
    cases hsrc : s.bypass.lookup (saddr skb.data) with
    | some b =>
      have hout : hgTcIngress env s skb = .done .ok skb.data s := by
        rw [hgTcIngress, h]
        simp [hsrc]
      rw [hout]
      exact .early _ (by rw [HgMaps.bindFrame, h]; simp [hsrc])
    | none =>
      have hb : s.bindFrame env skb.data = s.bindClient env (hSource skb.data) (saddr skb.data) :=
        HgMaps.bindFrame_l3Ok h hsrc
      cases hdst : s.toPortal skb.data with
      | some cfg =>
        rw [hgTcIngress_l3Ok h hsrc, ingressPolicy, HgMaps.bindClient_toPortal, hdst, ← hb]
        refine .noSession key _ h hsrc ?_ (Or.inl ?_)
        · simp only [portalGate]
          split <;> rfl
        · simp only [portalGate]
          split <;> rfl
      | none =>
        cases hauth : s.clients.lookup (hSource skb.data) with
        | some auth =>
          rw [hgTcIngress_session h hsrc hdst hauth, ← hb]
          exact .session key auth h hsrc hdst hauth
        | none =>
          rw [hgTcIngress_preauth h hsrc hdst hauth, ← hb]
          obtain ⟨hstamp, hmaps⟩ := ingressPreauth_maps env (s.bindFrame env skb.data) skb.data key
          exact .noSession key _ h hsrc hstamp hmaps

/-- What the session stage of ingress leaves in the maps. -/
theorem ingressSession_maps (m : HgMacKey) (ip : IpAddr) (auth : HgClient) :
    (auth.Expired env.ktimeNs ∧
        (ingressSession env s skb m ip auth).maps = s.expireClient env m ip) ∨
      ∃ cs, cs.session = auth.session ∧
        ((ingressSession env s skb m ip auth).maps = s.writeClient m cs ∨
          (ingressSession env s skb m ip auth).maps =
            (s.writeClient m cs).modifyCounter env.cpu ip
              (HgCounter.countUpload skb.len env.ktimeNs)) := by
  unfold ingressSession
  split
  · next hexp => exact Or.inl ⟨hexp, rfl⟩
  · refine Or.inr ⟨_, applyEdtShaping_session s.rates env.edtKtimeNs skb.len auth true, ?_⟩
    dsimp only
    split
    · exact Or.inl rfl
    · split
      · exact Or.inl rfl
      · exact Or.inr rfl

/-- Ingress writes nothing but the bindings, clients, counters and conntrack. -/
theorem hgTcIngress_frame :
    (hgTcIngress env s skb).maps =
      { s.bindFrame env skb.data with
        clients := (hgTcIngress env s skb).maps.clients
        counters := (hgTcIngress env s skb).maps.counters
        conntrack := (hgTcIngress env s skb).maps.conntrack } := by
  have hstep := hgTcIngress_step env s skb
  generalize hgTcIngress env s skb = r at hstep ⊢
  cases hstep with
  | early v hbind => rw [hbind]; rfl
  | noSession key _ hkey hsrc hstamp hmaps =>
    rcases hmaps with h | ⟨k, v, h⟩
    · rw [h]
    · rw [h, HgMaps.trackFlow]
      split <;> rfl
  | session key auth hkey hsrc hdst hauth =>
    rcases ingressSession_maps env (s.bindFrame env skb.data) skb (hSource skb.data)
      (saddr skb.data) auth with ⟨-, h⟩ | ⟨cs, -, h | h⟩
    · rw [h, HgMaps.expireClient]
      split <;> rfl
    · rw [h]
      rfl
    · rw [h]
      rfl

@[simp] theorem rates_hgTcIngress : (hgTcIngress env s skb).maps.rates = s.rates := by
  rw [hgTcIngress_frame]
  exact HgMaps.bindFrame_rates env s skb.data

@[simp] theorem portalCfg_hgTcIngress : (hgTcIngress env s skb).maps.portalCfg = s.portalCfg := by
  rw [hgTcIngress_frame]
  exact HgMaps.bindFrame_portalCfg env s skb.data

@[simp] theorem macIp_hgTcIngress :
    (hgTcIngress env s skb).maps.macIp = (s.bindFrame env skb.data).macIp := by
  rw [hgTcIngress_frame]

@[simp] theorem ipMac_hgTcIngress :
    (hgTcIngress env s skb).maps.ipMac = (s.bindFrame env skb.data).ipMac := by
  rw [hgTcIngress_frame]

/-- Recording a flow touches conntrack only. -/
theorem HgMaps.trackFlow_frame (key : HgCtKey) (val : HgCtVal) :
    s.trackFlow env key val = { s with conntrack := (s.trackFlow env key val).conntrack } := by
  rw [HgMaps.trackFlow]
  split <;> rfl

/-- Ingress finds the session of the sender run out and ends it. -/
def EndsSession (env : BpfEnv ncpu) (s : HgMaps ncpu) (skb : SkBuff) : Prop :=
  (∃ key, filterProto skb.data = .l3Ok key) ∧ s.bypass.lookup (saddr skb.data) = none ∧
    s.toPortal skb.data = none ∧
      ∃ auth, s.clients.lookup (hSource skb.data) = some auth ∧ auth.Expired env.ktimeNs

/-- A packet changes no session data, except that ingress may delete a session that it ends. -/
theorem session_hgTcIngress (k : HgMacKey) :
    (hgTcIngress env s skb).maps.session k = s.session k ∨
      (k = hSource skb.data ∧ EndsSession env s skb ∧
        (hgTcIngress env s skb).maps.session k = none) := by
  have hstep := hgTcIngress_step env s skb
  generalize hgTcIngress env s skb = r at hstep ⊢
  cases hstep with
  | early v hbind => exact Or.inl rfl
  | noSession key _ hkey hsrc hstamp hmaps =>
    refine Or.inl ?_
    rcases hmaps with h | ⟨k, v, h⟩
    · rw [h, HgMaps.session_bindFrame]
    · rw [h, HgMaps.trackFlow_frame]
      exact s.session_bindFrame env skb.data _
  | session key auth hkey hsrc hdst hauth =>
    have hauth' : (s.bindFrame env skb.data).clients.lookup (hSource skb.data) = some auth := by
      rw [HgMaps.bindFrame_clients, hauth]
    have hbase := s.session_bindFrame env skb.data k
    rcases ingressSession_maps env (s.bindFrame env skb.data) skb (hSource skb.data)
      (saddr skb.data) auth with ⟨hexp, h⟩ | ⟨cs, hcs, h | h⟩
    · rw [h, HgMaps.expireClient, HgMaps.modifyCounter]
      cases env.deleteClient with
      | false => exact Or.inl hbase
      | true =>
        by_cases hk : k = hSource skb.data
        · subst hk
          have hend : EndsSession env s skb := ⟨⟨key, hkey⟩, hsrc, hdst, auth, hauth, hexp⟩
          exact Or.inr ⟨rfl, hend, by simp [HgMaps.session]⟩
        · refine Or.inl ?_
          simp [HgMaps.session, BoundedMap.lookup_erase, hk]
    · rw [h, HgMaps.session_writeClient hauth' hcs]
      exact Or.inl hbase
    · rw [h]
      have hw := HgMaps.session_writeClient hauth' hcs k
      exact Or.inl (hw.trans hbase)

/-- The flow that ingress records for a frame, if it sends the frame to the portal. -/
def HgMaps.redirectOf (s : HgMaps ncpu) (env : BpfEnv ncpu) (d : Bytes) :
    Option (HgCtKey × HgCtVal) :=
  match filterProto d with
  | .l3Ok key =>
    if (s.bypass.lookup (saddr d)).isSome ∨ (s.toPortal d).isSome ∨
        (s.clients.lookup (hSource d)).isSome then none
    else if protoAllowed s.proto key ∨ s.wgCovers (daddr d) then none
    else if key.proto ≠ ipprotoTcp ∨ key.dPort ≠ 80 then none
    else if s.portalCfg.isNone ∨ ihl d < 5 then none
    else some (ctKeyOf d, ⟨daddr d, dest d, env.bootNs⟩)
  | _ => none

theorem conntrack_ingressPreauth {env : BpfEnv ncpu} {s : HgMaps ncpu} {d : Bytes}
    {key : HgAllowKey} (hpull : env.pullData = true) (hkey : filterProto d = .l3Ok key)
    (hsrc : s.bypass.lookup (saddr d) = none) (hdst : s.toPortal d = none)
    (hauth : s.clients.lookup (hSource d) = none) :
    (ingressPreauth env s d key).maps.conntrack =
      (s.redirectOf env d).elim s.conntrack fun w => (s.trackFlow env w.1 w.2).conntrack := by
  simp only [ingressPreauth, HgMaps.redirectOf, hkey, hsrc, hdst, hauth, Option.isSome_none,
    Bool.false_eq_true, or_self, if_false]
  by_cases hallow : protoAllowed s.proto key = true
  · simp [hallow, TcResult.done]
  · by_cases hwg : s.wgCovers (daddr d) = true
    · simp [hallow, hwg, TcResult.done]
    · by_cases hhttp : key.proto ≠ ipprotoTcp ∨ key.dPort ≠ 80
      · simp [hallow, hwg, hhttp, TcResult.done]
      · have hhttp' := hhttp
        rw [not_or, not_not, not_not] at hhttp'
        cases hcfg : s.portalCfg with
        | none => simp [hallow, hwg, hhttp', TcResult.done]
        | some cfg =>
          by_cases hihl : ihl d < 5
          · have hshort := redirectToPortal_short_ihl s cfg hpull
              (filterProto_l3Ok hkey).1 hihl
            simp [hallow, hwg, hhttp', hihl, hshort.2]
          · have hd : CompleteTcp d := completeTcp_of_l3Ok hkey hhttp'.1 (Nat.le_of_not_lt hihl)
            simp [hallow, hwg, hhttp', hihl, redirectToPortal_complete hpull hd]

theorem HgMaps.redirectOf_bindClient (s : HgMaps ncpu) (env : BpfEnv ncpu) (m : HgMacKey)
    (ip : IpAddr) (d : Bytes) : (s.bindClient env m ip).redirectOf env d = s.redirectOf env d := by
  simp [HgMaps.redirectOf]

theorem HgMaps.conntrack_trackFlow (s : HgMaps ncpu) (env : BpfEnv ncpu) (key : HgCtKey)
    (val : HgCtVal) :
    (s.trackFlow env key val).conntrack =
      if env.updateConntrack then (env.evicted.foldl BoundedMap.erase s.conntrack).put key val
      else s.conntrack := by
  rw [HgMaps.trackFlow]
  split <;> rfl

/-- Ingress records the flows it sends to the portal, and nothing else, in conntrack. -/
theorem conntrack_hgTcIngress {env : BpfEnv ncpu} {s : HgMaps ncpu} {skb : SkBuff}
    (hpull : env.pullData = true) :
    (hgTcIngress env s skb).maps.conntrack =
      (s.redirectOf env skb.data).elim s.conntrack
        fun w => (s.trackFlow env w.1 w.2).conntrack := by
  cases hkey : filterProto skb.data with
  | l2Only p => simp [hgTcIngress, HgMaps.redirectOf, hkey, TcResult.done]
  | invalid => simp [hgTcIngress, HgMaps.redirectOf, hkey, TcResult.done]
  | l3Ok key =>
    cases hsrc : s.bypass.lookup (saddr skb.data) with
    | some b => simp [hgTcIngress, HgMaps.redirectOf, hkey, hsrc, TcResult.done]
    | none =>
      cases hdst : s.toPortal skb.data with
      | some cfg =>
        rw [hgTcIngress_l3Ok hkey hsrc, ingressPolicy, HgMaps.bindClient_toPortal, hdst]
        simp only [portalGate, HgMaps.redirectOf, hkey, hdst]
        split <;> simp [TcResult.done]
      | none =>
        cases hauth : s.clients.lookup (hSource skb.data) with
        | some auth =>
          rw [hgTcIngress_session hkey hsrc hdst hauth]
          rcases ingressSession_maps env (s.bindClient env (hSource skb.data) (saddr skb.data)) skb
            (hSource skb.data) (saddr skb.data) auth with ⟨-, h⟩ | ⟨cs, -, h | h⟩
          · rw [h]
            cases hdel : env.deleteClient <;>
              simp [HgMaps.redirectOf, hkey, hauth, HgMaps.expireClient, HgMaps.modifyCounter, hdel]
          · simp [h, HgMaps.redirectOf, hkey, hauth, HgMaps.writeClient]
          · simp [h, HgMaps.redirectOf, hkey, hauth, HgMaps.writeClient, HgMaps.modifyCounter]
        | none =>
          rw [hgTcIngress_preauth hkey hsrc hdst hauth,
            conntrack_ingressPreauth hpull hkey (by simpa using hsrc) (by simpa using hdst)
              (by simpa using hauth), HgMaps.redirectOf_bindClient, HgMaps.bindClient_conntrack]
          simp only [HgMaps.conntrack_trackFlow, HgMaps.bindClient_conntrack]

theorem hgTcIngress_of_endsSession {env : BpfEnv ncpu} {s : HgMaps ncpu} {skb : SkBuff}
    (h : EndsSession env s skb) :
    (hgTcIngress env s skb).maps =
      (s.bindFrame env skb.data).expireClient env (hSource skb.data) (saddr skb.data) := by
  obtain ⟨⟨key, hkey⟩, hsrc, hdst, auth, hauth, hexp⟩ := h
  rw [hgTcIngress_session hkey hsrc hdst hauth, ingressSession, if_pos hexp,
    HgMaps.bindFrame_l3Ok hkey hsrc]
  rfl

theorem HgMaps.session_expireClient (s : HgMaps ncpu) (env : BpfEnv ncpu) (m : HgMacKey)
    (ip : IpAddr) (k : HgMacKey) :
    (s.expireClient env m ip).session k =
      if k = m ∧ env.deleteClient = true then none else s.session k := by
  rw [HgMaps.session, HgMaps.expireClient, HgMaps.modifyCounter]
  by_cases hdel : env.deleteClient = true
  · simp only [hdel, if_true, BoundedMap.lookup_erase, and_true]
    split <;> rfl
  · simp [hdel, HgMaps.session]

/-- The expiry branch marks the address of the packet and no other. -/
theorem HgMaps.states_expireClient_ne {s : HgMaps ncpu} {env : BpfEnv ncpu} {m : HgMacKey}
    {ip a : IpAddr} (h : a ≠ ip) : (s.expireClient env m ip).states a = s.states a := by
  rw [HgMaps.expireClient, HgMaps.states, HgMaps.counted_modifyCounter_ne h]
  split <;> rfl

theorem HgMaps.states_expireClient_self {s : HgMaps ncpu} {env : BpfEnv ncpu} {m : HgMacKey}
    {ip : IpAddr} {f : Fin ncpu → UInt32} (h : (s.expireClient env m ip).states ip = some f) :
    f env.cpu = ClientStatus.expire.code := by
  simp only [HgMaps.expireClient, HgMaps.states, HgMaps.counted, HgMaps.modifyCounter,
    BoundedMap.lookup_modify, if_true, Option.map_map, Option.map_eq_some_iff] at h
  obtain ⟨c, -, rfl⟩ := h
  simp

/-- A packet that ends no session changes no state flag. -/
theorem states_hgTcIngress {env : BpfEnv ncpu} {s : HgMaps ncpu} {skb : SkBuff}
    (hkeep : ¬ EndsSession env s skb) : (hgTcIngress env s skb).maps.states = s.states := by
  have hbase : (s.bindFrame env skb.data).states = s.states := s.counted_bindFrame env _ skb.data
  have hstep := hgTcIngress_step env s skb
  generalize hgTcIngress env s skb = r at hstep ⊢
  cases hstep with
  | early v hbind => rfl
  | noSession key _ hkey hsrc hstamp hmaps =>
    rcases hmaps with h | ⟨k, v, h⟩
    · rw [h, hbase]
    · rw [h, HgMaps.trackFlow_frame]
      exact hbase
  | session key auth hkey hsrc hdst hauth =>
    rcases ingressSession_maps env (s.bindFrame env skb.data) skb (hSource skb.data)
      (saddr skb.data) auth with ⟨hexp, h⟩ | ⟨cs, -, h | h⟩
    · exact absurd ⟨⟨key, hkey⟩, hsrc, hdst, auth, hauth, hexp⟩ hkeep
    · rw [h]
      exact hbase
    · rw [h]
      have hflag : ∀ c : HgCounter, (c.countUpload skb.len env.ktimeNs).state = c.state :=
        fun _ => rfl
      exact (HgMaps.counted_modifyCounter hflag).trans hbase

/-- A packet that ends no session changes no session data. -/
theorem session_hgTcIngress_keep {env : BpfEnv ncpu} {s : HgMaps ncpu} {skb : SkBuff}
    (hkeep : ¬ EndsSession env s skb) (k : HgMacKey) :
    (hgTcIngress env s skb).maps.session k = s.session k := by
  rcases session_hgTcIngress env s skb k with h | ⟨-, hend, -⟩
  · exact h
  · exact absurd hend hkeep

/-- The binding step writes the reverse entry of the frame's address. -/
def HgMaps.Rebinds (s : HgMaps ncpu) (env : BpfEnv ncpu) (d : Bytes) : Prop :=
  (∃ key, filterProto d = .l3Ok key) ∧ s.bypass.lookup (saddr d) = none ∧
    s.macIp.lookup (hSource d) ≠ some (saddr d) ∧ env.updateIpMac = true ∧
      s.ipMac.HasRoom (saddr d)

theorem HgMaps.lookup_ipMac_bindFrame_of_rebinds {s : HgMaps ncpu} {env : BpfEnv ncpu} {d : Bytes}
    (h : s.Rebinds env d) (a : IpAddr) :
    (s.bindFrame env d).ipMac.lookup a =
      if a = saddr d then some (hSource d) else s.ipMac.lookup a := by
  obtain ⟨⟨key, hkey⟩, hsrc, hfwd, hupd, hroom⟩ := h
  rw [HgMaps.bindFrame_l3Ok hkey hsrc, HgMaps.bindClient, if_neg hfwd]
  simp [hupd, BoundedMap.lookup_put, hroom]

theorem HgMaps.lookup_ipMac_bindFrame_keep {s : HgMaps ncpu} {env : BpfEnv ncpu} {d : Bytes}
    (h : ¬ s.Rebinds env d) : (s.bindFrame env d).ipMac.lookup = s.ipMac.lookup := by
  rw [HgMaps.bindFrame]
  cases hkey : filterProto d with
  | l2Only p => rfl
  | invalid => rfl
  | l3Ok key =>
    cases hsrc : s.bypass.lookup (saddr d) with
    | some b => simp
    | none =>
      simp only [Option.isSome_none, Bool.false_eq_true, if_false, HgMaps.bindClient]
      split
      · rfl
      · next hfwd =>
        funext a
        by_cases hupd : env.updateIpMac = true
        · have hroom : ¬ s.ipMac.HasRoom (saddr d) :=
            fun hroom => h ⟨⟨key, hkey⟩, hsrc, hfwd, hupd, hroom⟩
          simp [hupd, BoundedMap.lookup_put, hroom]
        · simp [hupd]

/-- Binding changes the reverse entry of no other address. -/
theorem HgMaps.lookup_ipMac_bindFrame_ne {s : HgMaps ncpu} {env : BpfEnv ncpu} {d : Bytes}
    {a : IpAddr} (h : a ≠ saddr d) : (s.bindFrame env d).ipMac.lookup a = s.ipMac.lookup a := by
  by_cases hre : s.Rebinds env d
  · rw [HgMaps.lookup_ipMac_bindFrame_of_rebinds hre, if_neg h]
  · rw [HgMaps.lookup_ipMac_bindFrame_keep hre]

end

/-! ## Egress -/

/-- What egress can do with a packet: decide it without a session, or run the session
    stage for the client bound to its destination. -/
inductive EgressStep (env : BpfEnv ncpu) (s : HgMaps ncpu) (skb : SkBuff) : TcResult ncpu → Prop
  | noSession (r : TcResult ncpu) (hstamp : r.stamp = none) (hmaps : r.maps = s) :
    EgressStep env s skb r
  | session (key : HgAllowKey) (m : HgMacKey) (auth : HgClient)
    (hkey : filterProto skb.data = .l3Ok key) (hsrc : s.fromPortal skb.data = false)
    (hdst : s.bypass.lookup (daddr skb.data) = none)
    (hbound : s.ipMac.lookup (daddr skb.data) = some m) (hauth : s.clients.lookup m = some auth) :
    EgressStep env s skb (egressSession env s skb m (daddr skb.data) auth)

section
variable (env : BpfEnv ncpu) (s : HgMaps ncpu) (skb : SkBuff)

/-- The session stage decides for a destination that is bound to a client. -/
theorem hgTcEgress_session {env : BpfEnv ncpu} {s : HgMaps ncpu} {skb : SkBuff} {key : HgAllowKey}
    {m : HgMacKey} {auth : HgClient} (hkey : filterProto skb.data = .l3Ok key)
    (hsrc : s.fromPortal skb.data = false) (hdst : s.bypass.lookup (daddr skb.data) = none)
    (hbound : s.ipMac.lookup (daddr skb.data) = some m) (hauth : s.clients.lookup m = some auth) :
    hgTcEgress env s skb = egressSession env s skb m (daddr skb.data) auth := by
  rw [hgTcEgress, hkey]
  simp [hsrc, egressPolicy, hdst, HgMaps.sessionOf, hbound, hauth]

/-- A packet that egress hands to the session stage if its destination has a session. -/
def ReachesEgressSession (s : HgMaps ncpu) (d : Bytes) : Prop :=
  (∃ key, filterProto d = .l3Ok key) ∧ s.fromPortal d = false ∧ s.bypass.lookup (daddr d) = none

theorem egressPreauth_maps (d : Bytes) (key : HgAllowKey) :
    (egressPreauth s d key).stamp = none ∧ (egressPreauth s d key).maps = s := by
  unfold egressPreauth
  split
  · exact ⟨rfl, rfl⟩
  · split
    · exact ⟨rfl, rfl⟩
    · exact ⟨rfl, rfl⟩

theorem hgTcEgress_step : EgressStep env s skb (hgTcEgress env s skb) := by
  cases h : filterProto skb.data with
  | l2Only p =>
    rw [hgTcEgress, h]
    exact .noSession _ rfl rfl
  | invalid =>
    rw [hgTcEgress, h]
    exact .noSession _ rfl rfl
  | l3Ok key =>
    cases hsrc : s.fromPortal skb.data with
    | true =>
      rw [hgTcEgress, h]
      simp only [hsrc, if_true]
      obtain ⟨hstamp, hmaps⟩ := snatFromConntrack_maps env s skb.data
      exact .noSession _ hstamp hmaps
    | false =>
      cases hdst : s.bypass.lookup (daddr skb.data) with
      | some b =>
        rw [hgTcEgress, h]
        simp only [hsrc, egressPolicy, hdst, Option.isSome_some, if_true]
        exact .noSession _ rfl rfl
      | none =>
        cases hof : s.sessionOf (daddr skb.data) with
        | none =>
          rw [hgTcEgress, h]
          simp only [hsrc, egressPolicy, hdst, hof, Option.isSome_none, Bool.false_eq_true, if_false]
          obtain ⟨hstamp, hmaps⟩ := egressPreauth_maps s skb.data key
          exact .noSession _ hstamp hmaps
        | some ma =>
          obtain ⟨m, auth⟩ := ma
          obtain ⟨m', hbound, hm⟩ := Option.bind_eq_some_iff.mp hof
          obtain ⟨auth', hauth, heq⟩ := Option.map_eq_some_iff.mp hm
          obtain ⟨rfl, rfl⟩ := Prod.mk.inj heq
          rw [hgTcEgress_session h hsrc hdst hbound hauth]
          exact .session key m' auth' h hsrc hdst hbound hauth

/-- What the session stage of egress leaves in the maps. -/
theorem egressSession_maps (m : HgMacKey) (ip : IpAddr) (auth : HgClient) :
    ∃ cs, cs.session = auth.session ∧
      ((egressSession env s skb m ip auth).maps = s.writeClient m cs ∨
        (egressSession env s skb m ip auth).maps =
          (s.writeClient m cs).modifyCounter env.cpu ip (HgCounter.countDownload skb.len)) := by
  unfold egressSession
  refine ⟨_, applyEdtShaping_session s.rates env.edtKtimeNs skb.len auth false, ?_⟩
  dsimp only
  split
  · exact Or.inl rfl
  · split
    · exact Or.inl rfl
    · exact Or.inr rfl

/-- Egress writes nothing but clients and counters. -/
theorem hgTcEgress_frame :
    (hgTcEgress env s skb).maps =
      { s with
        clients := (hgTcEgress env s skb).maps.clients
        counters := (hgTcEgress env s skb).maps.counters } := by
  have hstep := hgTcEgress_step env s skb
  generalize hgTcEgress env s skb = r at hstep ⊢
  cases hstep with
  | noSession _ hstamp hmaps => rw [hmaps]
  | session key m auth hkey hsrc hdst hbound hauth =>
    rcases egressSession_maps env s skb m (daddr skb.data) auth with ⟨cs, -, h | h⟩
    · rw [h]
      rfl
    · rw [h]
      rfl

@[simp] theorem rates_hgTcEgress : (hgTcEgress env s skb).maps.rates = s.rates := by
  rw [hgTcEgress_frame]

@[simp] theorem portalCfg_hgTcEgress : (hgTcEgress env s skb).maps.portalCfg = s.portalCfg := by
  rw [hgTcEgress_frame]

@[simp] theorem macIp_hgTcEgress : (hgTcEgress env s skb).maps.macIp = s.macIp := by
  rw [hgTcEgress_frame]

@[simp] theorem ipMac_hgTcEgress : (hgTcEgress env s skb).maps.ipMac = s.ipMac := by
  rw [hgTcEgress_frame]

@[simp] theorem conntrack_hgTcEgress : (hgTcEgress env s skb).maps.conntrack = s.conntrack := by
  rw [hgTcEgress_frame]

theorem states_hgTcEgress : (hgTcEgress env s skb).maps.states = s.states := by
  have hstep := hgTcEgress_step env s skb
  generalize hgTcEgress env s skb = r at hstep ⊢
  cases hstep with
  | noSession _ hstamp hmaps => rw [hmaps]
  | session key m auth hkey hsrc hdst hbound hauth =>
    rcases egressSession_maps env s skb m (daddr skb.data) auth with ⟨cs, -, h | h⟩
    · rw [h]
      rfl
    · rw [h]
      exact HgMaps.counted_modifyCounter fun c => rfl

/-- Egress changes no session data. -/
theorem session_hgTcEgress (k : HgMacKey) :
    (hgTcEgress env s skb).maps.session k = s.session k := by
  have hstep := hgTcEgress_step env s skb
  generalize hgTcEgress env s skb = r at hstep ⊢
  cases hstep with
  | noSession _ hstamp hmaps => rw [hmaps]
  | session key m auth hkey hsrc hdst hbound hauth =>
    rcases egressSession_maps env s skb m (daddr skb.data) auth with ⟨cs, hcs, h | h⟩
    · rw [h, HgMaps.session_writeClient hauth hcs]
    · rw [h]
      exact HgMaps.session_writeClient hauth hcs k

end

/-! ## Counters -/

theorem HgMaps.isSome_modifyCounter (s : HgMaps ncpu) (cpu : Fin ncpu) (ip a : IpAddr)
    (f : HgCounter → HgCounter) :
    ((s.modifyCounter cpu ip f).counters.lookup a).isSome = (s.counters.lookup a).isSome := by
  rw [HgMaps.modifyCounter, BoundedMap.lookup_modify]
  split
  · next h => rw [Option.isSome_map, h]
  · rfl

/-- Ingress neither creates nor removes counters. -/
theorem isSome_counters_hgTcIngress (env : BpfEnv ncpu) (s : HgMaps ncpu) (skb : SkBuff)
    (a : IpAddr) :
    ((hgTcIngress env s skb).maps.counters.lookup a).isSome = (s.counters.lookup a).isSome := by
  have hstep := hgTcIngress_step env s skb
  generalize hgTcIngress env s skb = r at hstep ⊢
  cases hstep with
  | early v hbind => rfl
  | noSession key _ hkey hsrc hstamp hmaps =>
    rcases hmaps with h | ⟨k, v, h⟩
    · rw [h, HgMaps.bindFrame_counters]
    · rw [h, HgMaps.trackFlow_frame]
      exact congrArg (fun m => (m.lookup a).isSome) (HgMaps.bindFrame_counters env s skb.data)
  | session key auth hkey hsrc hdst hauth =>
    rcases ingressSession_maps env (s.bindFrame env skb.data) skb (hSource skb.data)
      (saddr skb.data) auth with ⟨-, h⟩ | ⟨cs, -, h | h⟩
    · rw [h, HgMaps.expireClient, HgMaps.isSome_modifyCounter]
      split
      · rw [HgMaps.bindFrame_counters]
      · rw [HgMaps.bindFrame_counters]
    · rw [h, HgMaps.writeClient, HgMaps.bindFrame_counters]
    · rw [h, HgMaps.isSome_modifyCounter, HgMaps.writeClient, HgMaps.bindFrame_counters]

/-- Egress neither creates nor removes counters. -/
theorem isSome_counters_hgTcEgress (env : BpfEnv ncpu) (s : HgMaps ncpu) (skb : SkBuff)
    (a : IpAddr) :
    ((hgTcEgress env s skb).maps.counters.lookup a).isSome = (s.counters.lookup a).isSome := by
  have hstep := hgTcEgress_step env s skb
  generalize hgTcEgress env s skb = r at hstep ⊢
  cases hstep with
  | noSession _ hstamp hmaps => rw [hmaps]
  | session key m auth hkey hsrc hdst hbound hauth =>
    rcases egressSession_maps env s skb m (daddr skb.data) auth with ⟨cs, -, h | h⟩
    · rw [h, HgMaps.writeClient]
    · rw [h, HgMaps.isSome_modifyCounter, HgMaps.writeClient]

end HawkGate
