-- SUMMARY: Noninterference between clients: the packets of one leave verdicts, stamps, rewrites and counters of another alone.
import HawkGate.Kernel.Stages
import HawkGate.Lib.Noninterference

/-!
# Noninterference of clients

A client owns its MAC and its address. The entries of the maps that carry either
of them are what its packets read and write, next to the policy that no packet
writes. Two states that agree on the entries of a client treat its packets alike,
and a packet of another client leaves these entries as they are.
-/

namespace HawkGate

open Bytes HawkGate.Frame Transition Noninterference

variable {ncpu : Nat}

structure Station where
  mac : HgMacKey
  ip : IpAddr

/-! ## The entries of a client -/

/-- The maps that no packet writes. -/
def HgMaps.policy (s : HgMaps ncpu) : HgMaps ncpu :=
  { s with clients := .empty, counters := .empty, conntrack := .empty, macIp := .empty,
           ipMac := .empty }

/-- Two states agree on the policy and on every entry of a client. -/
structure SameView (c : Station) (s t : HgMaps ncpu) : Prop where
  policy : s.policy = t.policy
  client : s.clients.lookup c.mac = t.clients.lookup c.mac
  counter : s.counters.lookup c.ip = t.counters.lookup c.ip
  fwd : s.macIp.lookup c.mac = t.macIp.lookup c.mac
  rev : s.ipMac.lookup c.ip = t.ipMac.lookup c.ip
  flows : ∀ key, key.clientIp = c.ip → s.conntrack.lookup key = t.conntrack.lookup key

/-- The second state results from the first by changes to entries of a client, none of which
    removes a binding or a flow. -/
structure Touches (c : Station) (s s' : HgMaps ncpu) : Prop where
  policy : s'.policy = s.policy
  clients : ∀ k, k ≠ c.mac → s'.clients.lookup k = s.clients.lookup k
  counters : ∀ a, a ≠ c.ip → s'.counters.lookup a = s.counters.lookup a
  macIp : ∀ k, k ≠ c.mac → s'.macIp.lookup k = s.macIp.lookup k
  ipMac : ∀ a, a ≠ c.ip → s'.ipMac.lookup a = s.ipMac.lookup a
  bound : ∀ m, s'.ipMac.lookup c.ip = some m → s.ipMac.lookup c.ip = some m ∨ m = c.mac
  conntrack : ∀ key, key.clientIp ≠ c.ip → s'.conntrack.lookup key = s.conntrack.lookup key
  growsFwd : s.macIp.Within s'.macIp
  growsRev : s.ipMac.Within s'.ipMac
  growsFlows : s.conntrack.Within s'.conntrack

/-- The maps that packets insert into are not full. -/
structure NotFull (s : HgMaps ncpu) : Prop where
  macIp : s.macIp.size < 4096
  ipMac : s.ipMac.size < 4096
  conntrack : s.conntrack.size < 512

section
variable {c : Station} {s s' s'' t : HgMaps ncpu}

theorem Touches.refl (c : Station) (s : HgMaps ncpu) : Touches c s s :=
  ⟨rfl, fun _ _ => rfl, fun _ _ => rfl, fun _ _ => rfl, fun _ _ => rfl, fun _ h => .inl h,
    fun _ _ => rfl, .refl _, .refl _, .refl _⟩

theorem Touches.trans (h : Touches c s s') (h' : Touches c s' s'') : Touches c s s'' where
  policy := h'.policy.trans h.policy
  clients k hk := (h'.clients k hk).trans (h.clients k hk)
  counters a ha := (h'.counters a ha).trans (h.counters a ha)
  macIp k hk := (h'.macIp k hk).trans (h.macIp k hk)
  ipMac a ha := (h'.ipMac a ha).trans (h.ipMac a ha)
  bound m hm := (h'.bound m hm).elim (h.bound m) .inr
  conntrack key hkey := (h'.conntrack key hkey).trans (h.conntrack key hkey)
  growsFwd := h.growsFwd.trans h'.growsFwd
  growsRev := h.growsRev.trans h'.growsRev
  growsFlows := h.growsFlows.trans h'.growsFlows

/-- Changes to another client's entries are not seen. -/
theorem Touches.sameView {o : Station} (h : Touches o s s') (hmac : c.mac ≠ o.mac)
    (hip : c.ip ≠ o.ip) : SameView c s' s where
  policy := h.policy
  client := h.clients _ hmac
  counter := h.counters _ hip
  fwd := h.macIp _ hmac
  rev := h.ipMac _ hip
  flows key hkey := h.conntrack key (hkey ▸ hip)

theorem SameView.trans (h : SameView c s s') (h' : SameView c s' s'') : SameView c s s'' where
  policy := h.policy.trans h'.policy
  client := h.client.trans h'.client
  counter := h.counter.trans h'.counter
  fwd := h.fwd.trans h'.fwd
  rev := h.rev.trans h'.rev
  flows key hkey := (h.flows key hkey).trans (h'.flows key hkey)

/-! ## What the hooks read -/

variable (h : SameView c s t)
include h

theorem SameView.reads {α : Type} (f : HgMaps ncpu → α) : f s.policy = f t.policy :=
  congrArg f h.policy

theorem SameView.rates : s.rates = t.rates := h.reads HgMaps.rates

theorem SameView.bypass : s.bypass = t.bypass := h.reads HgMaps.bypass

theorem SameView.portalCfg : s.portalCfg = t.portalCfg := h.reads HgMaps.portalCfg

theorem SameView.proto : s.proto = t.proto := h.reads HgMaps.proto

theorem SameView.l2Allow : s.l2Allow = t.l2Allow := h.reads HgMaps.l2Allow

theorem SameView.ifbIdx : s.ifbIdx = t.ifbIdx := h.reads HgMaps.ifbIdx

theorem SameView.wgCovers (a : IpAddr) : s.wgCovers a = t.wgCovers a := by
  have hwg : s.walledGarden = t.walledGarden := h.reads HgMaps.walledGarden
  rw [HgMaps.wgCovers, hwg, HgMaps.wgCovers]

/-- The same stage decides a frame of the client. -/
theorem SameView.ingressStage {d : Bytes} (hmac : hSource d = c.mac) :
    s.ingressStage d = t.ingressStage d := by
  unfold HgMaps.ingressStage HgMaps.ingressPreauthStage HgMaps.toPortal
  rw [h.l2Allow, h.bypass, h.portalCfg, h.proto, hmac, h.client]
  simp only [h.wgCovers]

/-- The same stage decides a frame to the client. -/
theorem SameView.egressStage (hown : ∀ m, s.ipMac.lookup c.ip = some m → m = c.mac) {d : Bytes}
    (hip : daddr d = c.ip) : s.egressStage d = t.egressStage d := by
  have hof : s.sessionOf c.ip = t.sessionOf c.ip := by
    rw [HgMaps.sessionOf, HgMaps.sessionOf, ← h.rev]
    cases hbound : s.ipMac.lookup c.ip with
    | none => rfl
    | some m =>
      obtain rfl := hown m hbound
      simp only [Option.bind_some, h.client]
  unfold HgMaps.egressStage HgMaps.fromPortal
  rw [h.l2Allow, h.bypass, h.portalCfg, h.proto, hip, hof]
  simp only [h.wgCovers]

end

/-! ## Single writes -/

section
variable {c : Station} {s t : HgMaps ncpu} (env : BpfEnv ncpu)

theorem touches_bindClient : Touches c s (s.bindClient env c.mac c.ip) := by
  unfold HgMaps.bindClient
  split
  · exact .refl c s
  · constructor
    case policy => rfl
    case clients => exact fun _ _ => rfl
    case counters => exact fun _ _ => rfl
    case macIp =>
      intro k hk
      dsimp only
      split
      · simp [BoundedMap.lookup_put, hk]
      · rfl
    case ipMac =>
      intro a ha
      dsimp only
      split
      · simp [BoundedMap.lookup_put, ha]
      · rfl
    case bound =>
      intro m hm
      dsimp only at hm
      split at hm
      · rw [BoundedMap.lookup_put] at hm
        split at hm
        · exact .inr (Option.some.inj hm).symm
        · exact .inl hm
      · exact .inl hm
    case conntrack => exact fun _ _ => rfl
    case growsFwd =>
      dsimp only
      split
      · exact BoundedMap.within_put _ _ _
      · exact .refl _
    case growsRev =>
      dsimp only
      split
      · exact BoundedMap.within_put _ _ _
      · exact .refl _
    case growsFlows => exact .refl _

theorem touches_writeClient (cs : HgClient) : Touches c s (s.writeClient c.mac cs) :=
  { Touches.refl c s with
    policy := rfl
    clients := fun k hk => by rw [HgMaps.writeClient, BoundedMap.lookup_modify, if_neg hk] }

theorem touches_modifyCounter (cpu : Fin ncpu) (f : HgCounter → HgCounter) :
    Touches c s (s.modifyCounter cpu c.ip f) :=
  { Touches.refl c s with
    policy := rfl
    counters := fun a ha => by rw [HgMaps.modifyCounter, BoundedMap.lookup_modify, if_neg ha] }

theorem touches_eraseClient : Touches c s { s with clients := s.clients.erase c.mac } :=
  { Touches.refl c s with
    policy := rfl
    clients := fun k hk => by rw [BoundedMap.lookup_erase, if_neg hk] }

theorem touches_expireClient : Touches c s (s.expireClient env c.mac c.ip) := by
  unfold HgMaps.expireClient
  split
  · exact touches_eraseClient.trans (touches_modifyCounter _ _)
  · exact touches_modifyCounter _ _

theorem touches_trackFlow (hkeep : env.evicted = []) {key : HgCtKey} (hkey : key.clientIp = c.ip)
    (val : HgCtVal) : Touches c s (s.trackFlow env key val) := by
  unfold HgMaps.trackFlow
  split
  · refine { Touches.refl c s with policy := rfl, conntrack := ?_, growsFlows := ?_ }
    · intro k hk
      have hne : k ≠ key := fun heq => hk (heq ▸ hkey)
      simp [hkeep, BoundedMap.lookup_put, hne]
    · rw [hkeep]
      exact BoundedMap.within_put _ _ _
  · exact .refl c s

variable {env} (h : SameView c s t)
include h

theorem SameView.bindClient (hs : NotFull s) (ht : NotFull t) :
    SameView c (s.bindClient env c.mac c.ip) (t.bindClient env c.mac c.ip) := by
  unfold HgMaps.bindClient
  rw [h.fwd]
  split
  · exact h
  · refine { h with policy := h.policy, fwd := ?_, rev := ?_ }
    · dsimp only
      split
      · rw [BoundedMap.lookup_put_self _ _ (.inr hs.macIp),
          BoundedMap.lookup_put_self _ _ (.inr ht.macIp)]
      · exact h.fwd
    · dsimp only
      split
      · rw [BoundedMap.lookup_put_self _ _ (.inr hs.ipMac),
          BoundedMap.lookup_put_self _ _ (.inr ht.ipMac)]
      · exact h.rev

theorem SameView.writeClient (cs : HgClient) :
    SameView c (s.writeClient c.mac cs) (t.writeClient c.mac cs) :=
  { h with
    policy := h.policy
    client := by
      simp only [HgMaps.writeClient, BoundedMap.lookup_modify, if_true, h.client] }

theorem SameView.modifyCounter (cpu : Fin ncpu) (f : HgCounter → HgCounter) :
    SameView c (s.modifyCounter cpu c.ip f) (t.modifyCounter cpu c.ip f) :=
  { h with
    policy := h.policy
    counter := by
      simp only [HgMaps.modifyCounter, BoundedMap.lookup_modify, if_true, h.counter] }

theorem SameView.eraseClient :
    SameView c { s with clients := s.clients.erase c.mac }
      { t with clients := t.clients.erase c.mac } :=
  { h with
    policy := h.policy
    client := by simp only [BoundedMap.lookup_erase_self] }

theorem SameView.expireClient :
    SameView c (s.expireClient env c.mac c.ip) (t.expireClient env c.mac c.ip) := by
  unfold HgMaps.expireClient
  split
  · exact h.eraseClient.modifyCounter _ _
  · exact h.modifyCounter _ _

theorem SameView.trackFlow (hkeep : env.evicted = []) (hs : s.conntrack.size < 512)
    (ht : t.conntrack.size < 512) (key : HgCtKey) (val : HgCtVal) :
    SameView c (s.trackFlow env key val) (t.trackFlow env key val) := by
  unfold HgMaps.trackFlow
  split
  · refine { h with policy := h.policy, flows := ?_ }
    intro k hk
    have hsRoom : s.conntrack.HasRoom key := .inr hs
    have htRoom : t.conntrack.HasRoom key := .inr ht
    simp only [hkeep, List.foldl_nil, BoundedMap.lookup_put, hsRoom, htRoom, and_true, h.flows k hk]
  · exact h

end

/-! ## Stages -/

/-- Two results that the client cannot tell apart. -/
structure SameResult (c : Station) (r r' : TcResult ncpu) : Prop where
  verdict : r.verdict = r'.verdict
  data : r.data = r'.data
  stamp : r.stamp = r'.stamp
  maps : SameView c r.maps r'.maps

section
variable {c : Station} {s t : HgMaps ncpu} (env : BpfEnv ncpu) (skb : SkBuff)

theorem touches_ingressSession (auth : HgClient) :
    Touches c s (ingressSession env s skb c.mac c.ip auth).maps := by
  unfold ingressSession
  split
  · exact touches_expireClient env
  · dsimp only
    split
    · exact touches_writeClient _
    · split
      · exact touches_writeClient _
      · exact (touches_writeClient _).trans (touches_modifyCounter _ _)

theorem touches_egressSession (auth : HgClient) :
    Touches c s (egressSession env s skb c.mac c.ip auth).maps := by
  unfold egressSession
  dsimp only
  split
  · exact touches_writeClient _
  · split
    · exact touches_writeClient _
    · exact (touches_writeClient _).trans (touches_modifyCounter _ _)

theorem touches_redirect (hkeep : env.evicted = []) (hip : saddr skb.data = c.ip)
    (cfg : HgPortalCfg) : Touches c s (redirectToPortal env s skb.data cfg).maps := by
  obtain ⟨v, d', w, hw, hrun⟩ := exists_redirect env skb.data cfg
  rw [hrun]
  cases w with
  | none => exact .refl c s
  | some kv => exact touches_trackFlow env hkeep ((hw kv rfl).trans hip) kv.2

variable {env skb} (h : SameView c s t)
include h

theorem SameView.ingressSession (auth : HgClient) :
    SameResult c (ingressSession env s skb c.mac c.ip auth)
      (ingressSession env t skb c.mac c.ip auth) := by
  unfold HawkGate.ingressSession
  rw [h.rates]
  split
  · exact ⟨rfl, rfl, rfl, h.expireClient⟩
  · have hw := h.writeClient (applyEdtShaping t.rates env.edtKtimeNs skb.len auth true).client
    dsimp only
    rw [hw.counter]
    split
    · exact ⟨rfl, rfl, rfl, hw⟩
    · split
      · exact ⟨rfl, rfl, rfl, hw⟩
      · refine ⟨?_, rfl, rfl, hw.modifyCounter _ _⟩
        simp only [HgMaps.uploadVerdict, hw.ifbIdx]

theorem SameView.egressSession (auth : HgClient) :
    SameResult c (egressSession env s skb c.mac c.ip auth)
      (egressSession env t skb c.mac c.ip auth) := by
  unfold HawkGate.egressSession
  rw [h.rates]
  have hw := h.writeClient (applyEdtShaping t.rates env.edtKtimeNs skb.len auth false).client
  dsimp only
  rw [hw.counter]
  split
  · exact ⟨rfl, rfl, rfl, hw⟩
  · split
    · exact ⟨rfl, rfl, rfl, hw⟩
    · exact ⟨rfl, rfl, rfl, hw.modifyCounter _ _⟩

theorem SameView.redirect (hkeep : env.evicted = []) (hs : s.conntrack.size < 512)
    (ht : t.conntrack.size < 512) (cfg : HgPortalCfg) :
    SameResult c (redirectToPortal env s skb.data cfg) (redirectToPortal env t skb.data cfg) := by
  obtain ⟨v, d', w, -, hrun⟩ := exists_redirect env skb.data cfg
  rw [hrun, hrun]
  cases w with
  | none => exact ⟨rfl, rfl, rfl, h⟩
  | some kv => exact ⟨rfl, rfl, rfl, h.trackFlow hkeep hs ht kv.1 kv.2⟩

theorem SameView.snat (hip : daddr skb.data = c.ip) :
    SameResult c (snatFromConntrack env s skb.data) (snatFromConntrack env t skb.data) := by
  have hct : s.conntrack.lookup (ctReplyKeyOf skb.data) =
      t.conntrack.lookup (ctReplyKeyOf skb.data) := h.flows _ hip
  obtain ⟨v, d', hrun⟩ := exists_snat env skb.data (t.conntrack.lookup (ctReplyKeyOf skb.data))
  rw [hrun s hct, hrun t rfl]
  exact ⟨rfl, rfl, rfl, h⟩

end

/-! ## Packets of a client -/

inductive Hook where
  | ingress | egress
  deriving DecidableEq

/-- A packet at one of the hooks, with the kernel's answers and clock readings for it. -/
structure Packet (ncpu : Nat) where
  hook : Hook
  env : BpfEnv ncpu
  skb : SkBuff

def Packet.result (p : Packet ncpu) (s : HgMaps ncpu) : TcResult ncpu :=
  match p.hook with
  | .ingress => hgTcIngress p.env s p.skb
  | .egress => hgTcEgress p.env s p.skb

/-- The source address of a frame that is classified as IP. -/
def ipSource (d : Bytes) : Option IpAddr :=
  match filterProto d with
  | .l3Ok _ => some (saddr d)
  | _ => none

/-- The client sent the packet, or it is sent to the client. -/
def Packet.Of (c : Station) (p : Packet ncpu) : Prop :=
  (p.hook = .ingress →
      hSource p.skb.data = c.mac ∧ ∀ ip ∈ ipSource p.skb.data, ip = c.ip) ∧
    (p.hook = .egress → daddr p.skb.data = c.ip)

instance (c : Station) (p : Packet ncpu) : Decidable (p.Of c) :=
  have : Decidable (∀ ip ∈ ipSource p.skb.data, ip = c.ip) := Option.decidableForallMem _
  inferInstanceAs (Decidable (_ ∧ _))

section
variable {c : Station} {s t : HgMaps ncpu} {env : BpfEnv ncpu} {skb : SkBuff}

theorem bindFrame_touches (hmac : hSource skb.data = c.mac)
    (hip : ∀ ip ∈ ipSource skb.data, ip = c.ip) : Touches c s (s.bindFrame env skb.data) := by
  unfold HgMaps.bindFrame
  unfold ipSource at hip
  cases hkey : filterProto skb.data with
  | l2Only p => exact .refl c s
  | invalid => exact .refl c s
  | l3Ok key =>
    rw [hkey] at hip
    dsimp only
    split
    · exact .refl c s
    · rw [hmac, hip _ rfl]
      exact touches_bindClient env

theorem conntrack_bindFrame (s : HgMaps ncpu) (env : BpfEnv ncpu) (d : Bytes) :
    (s.bindFrame env d).conntrack = s.conntrack := by
  rw [HgMaps.bindFrame_frame]

theorem saddr_of_ingressStage (hip : ∀ ip ∈ ipSource skb.data, ip = c.ip)
    (h : ∀ v, s.ingressStage skb.data ≠ .filter v) : saddr skb.data = c.ip := by
  obtain ⟨key, hkey⟩ := HgMaps.l3Ok_of_ingressStage h
  rw [ipSource, hkey] at hip
  exact hip _ rfl

/-- An ingress packet of a client changes the client's entries only. -/
theorem touches_hgTcIngress (hkeep : env.evicted = []) (hmac : hSource skb.data = c.mac)
    (hip : ∀ ip ∈ ipSource skb.data, ip = c.ip) :
    Touches c s (hgTcIngress env s skb).maps := by
  have hbind : Touches c s (s.bindFrame env skb.data) := bindFrame_touches hmac hip
  rw [hgTcIngress_eq_stage]
  refine hbind.trans ?_
  cases hstage : s.ingressStage skb.data with
  | portal cfg =>
    simp only [IngressStage.result, portalGate]
    split
    · exact .refl c _
    · exact .refl c _
  | session auth =>
    have hsrc : saddr skb.data = c.ip := saddr_of_ingressStage (s := s) hip (by simp [hstage])
    simp only [IngressStage.result, hmac, hsrc]
    exact touches_ingressSession env skb auth
  | redirect cfg =>
    have hsrc : saddr skb.data = c.ip := saddr_of_ingressStage (s := s) hip (by simp [hstage])
    exact touches_redirect env skb hkeep hsrc cfg
  | filter v => exact .refl c _
  | bypass => exact .refl c _
  | allowList => exact .refl c _
  | walledGarden => exact .refl c _
  | notHttp => exact .refl c _
  | noPortal => exact .refl c _

/-- An egress packet to a client changes the client's entries only. -/
theorem touches_hgTcEgress (hown : ∀ m, s.ipMac.lookup c.ip = some m → m = c.mac)
    (hip : daddr skb.data = c.ip) : Touches c s (hgTcEgress env s skb).maps := by
  have hstep := hgTcEgress_step env s skb
  generalize hgTcEgress env s skb = r at hstep ⊢
  cases hstep with
  | noSession _ hstamp hmaps =>
    rw [hmaps]
    exact .refl c s
  | session key m auth hkey hsrc hdst hbound hauth =>
    rw [hip] at hbound ⊢
    obtain rfl := hown m hbound
    exact touches_egressSession env skb auth

theorem SameView.bindFrame (h : SameView c s t) (hs : NotFull s) (ht : NotFull t)
    (hmac : hSource skb.data = c.mac) (hip : ∀ ip ∈ ipSource skb.data, ip = c.ip) :
    SameView c (s.bindFrame env skb.data) (t.bindFrame env skb.data) := by
  unfold HgMaps.bindFrame
  unfold ipSource at hip
  cases hkey : filterProto skb.data with
  | l2Only p => exact h
  | invalid => exact h
  | l3Ok key =>
    rw [hkey] at hip
    dsimp only
    rw [h.bypass]
    split
    · exact h
    · rw [hmac, hip _ rfl]
      exact h.bindClient hs ht

/-- Ingress treats a packet of the client alike in two states that agree on its entries. -/
theorem SameView.hgTcIngress (h : SameView c s t) (hs : NotFull s) (ht : NotFull t)
    (hkeep : env.evicted = []) (hmac : hSource skb.data = c.mac)
    (hip : ∀ ip ∈ ipSource skb.data, ip = c.ip) :
    SameResult c (hgTcIngress env s skb) (hgTcIngress env t skb) := by
  have hbind : SameView c (s.bindFrame env skb.data) (t.bindFrame env skb.data) :=
    h.bindFrame hs ht hmac hip
  rw [hgTcIngress_eq_stage, hgTcIngress_eq_stage, h.ingressStage hmac]
  cases hstage : t.ingressStage skb.data with
  | portal cfg =>
    simp only [IngressStage.result, portalGate]
    split
    · exact ⟨rfl, rfl, rfl, hbind⟩
    · exact ⟨rfl, rfl, rfl, hbind⟩
  | session auth =>
    have hsrc : saddr skb.data = c.ip := saddr_of_ingressStage (s := t) hip (by simp [hstage])
    simp only [IngressStage.result, hmac, hsrc]
    exact hbind.ingressSession auth
  | redirect cfg =>
    apply hbind.redirect hkeep
    · rw [conntrack_bindFrame]
      exact hs.conntrack
    · rw [conntrack_bindFrame]
      exact ht.conntrack
  | filter v => exact ⟨rfl, rfl, rfl, hbind⟩
  | bypass => exact ⟨rfl, rfl, rfl, hbind⟩
  | allowList => exact ⟨rfl, rfl, rfl, hbind⟩
  | walledGarden => exact ⟨rfl, rfl, rfl, hbind⟩
  | notHttp => exact ⟨rfl, rfl, rfl, hbind⟩
  | noPortal => exact ⟨rfl, rfl, rfl, hbind⟩

/-- Egress treats a packet to the client alike in two states that agree on its entries. -/
theorem SameView.hgTcEgress (h : SameView c s t)
    (hown : ∀ m, s.ipMac.lookup c.ip = some m → m = c.mac) (hip : daddr skb.data = c.ip) :
    SameResult c (hgTcEgress env s skb) (hgTcEgress env t skb) := by
  rw [hgTcEgress_eq_stage, hgTcEgress_eq_stage, ← h.egressStage hown hip]
  cases hstage : s.egressStage skb.data with
  | snat => exact h.snat hip
  | session m auth =>
    have hbound := HgMaps.ipMac_of_egressStage hstage
    rw [hip] at hbound
    obtain rfl := hown m hbound
    simp only [EgressStage.result, hip]
    exact h.egressSession auth
  | filter v => exact ⟨rfl, rfl, rfl, h⟩
  | bypass => exact ⟨rfl, rfl, rfl, h⟩
  | allowList => exact ⟨rfl, rfl, rfl, h⟩
  | walledGarden => exact ⟨rfl, rfl, rfl, h⟩
  | blocked => exact ⟨rfl, rfl, rfl, h⟩

end

/-! ## Interleavings -/

/-- What becomes of a packet of a client, with the client's counter after it. -/
structure Observation (ncpu : Nat) where
  verdict : TcAct
  data : Bytes
  stamp : Option UInt64
  counter : Option (Fin ncpu → HgCounter)

/-- One packet through its hook, observed by a client. -/
def transmit (c : Station) (s : HgMaps ncpu) (p : Packet ncpu) : HgMaps ncpu × Observation ncpu :=
  let r := p.result s
  (r.maps, ⟨r.verdict, r.data, r.stamp, r.maps.counters.lookup c.ip⟩)

/-- An address is bound to its owner, if at all. -/
def BoundToOwner (c : Station) (s : HgMaps ncpu) : Prop :=
  ∀ m, s.ipMac.lookup c.ip = some m → m = c.mac

/-- A packet of one of the two clients that meets maps with room, and evicts nothing. -/
structure Undisturbed (c o : Station) (s : HgMaps ncpu) (p : Packet ncpu) : Prop where
  sender : p.Of c ∨ p.Of o
  room : NotFull s
  keep : p.env.evicted = []

/-- The maps of the run with the packets of both clients and of the run with those of `c` alone. -/
structure Related (c o : Station) (s t : HgMaps ncpu) : Prop where
  view : SameView c s t
  bound : BoundToOwner c s
  boundOther : BoundToOwner o s
  macIp : t.macIp.Within s.macIp
  ipMac : t.ipMac.Within s.ipMac
  conntrack : t.conntrack.Within s.conntrack

section
variable {c o : Station} {s s' t : HgMaps ncpu} {p : Packet ncpu}

theorem Related.notFull (h : Related c o s t) (hs : NotFull s) : NotFull t :=
  ⟨Nat.lt_of_le_of_lt h.macIp.size_le hs.macIp, Nat.lt_of_le_of_lt h.ipMac.size_le hs.ipMac,
    Nat.lt_of_le_of_lt h.conntrack.size_le hs.conntrack⟩

theorem Touches.boundToOwner (h : Touches c s s') (hs : BoundToOwner c s) : BoundToOwner c s' :=
  fun m hm => (h.bound m hm).elim (hs m) id

theorem Touches.boundToOwner_ne (h : Touches c s s') (hip : o.ip ≠ c.ip) (hs : BoundToOwner o s) :
    BoundToOwner o s' := fun m hm => hs m (h.ipMac _ hip ▸ hm)

theorem Packet.touches (hp : p.Of c) (hkeep : p.env.evicted = []) (hs : BoundToOwner c s) :
    Touches c s (p.result s).maps := by
  obtain ⟨hin, hout⟩ := hp
  rw [Packet.result]
  cases hhook : p.hook with
  | ingress => exact touches_hgTcIngress hkeep (hin hhook).1 (hin hhook).2
  | egress => exact touches_hgTcEgress hs (hout hhook)

theorem Packet.sameResult (hp : p.Of c) (hkeep : p.env.evicted = []) (h : SameView c s t)
    (hs : NotFull s) (ht : NotFull t) (hown : BoundToOwner c s) :
    SameResult c (p.result s) (p.result t) := by
  obtain ⟨hin, hout⟩ := hp
  rw [Packet.result, Packet.result]
  cases hhook : p.hook with
  | ingress => exact h.hgTcIngress hs ht hkeep (hin hhook).1 (hin hhook).2
  | egress => exact h.hgTcEgress hown (hout hhook)

/-- A packet of the client keeps the two runs related. -/
theorem Related.step_own (h : Related c o s t) (hne : o.ip ≠ c.ip) (hroom : NotFull s)
    (hkeep : p.env.evicted = []) (hp : p.Of c) :
    SameResult c (p.result s) (p.result t) ∧
      Related c o (p.result s).maps (p.result t).maps := by
  have ht : BoundToOwner c t := fun m hm => h.bound m (h.view.rev.trans hm)
  have hs' : Touches c s (p.result s).maps := Packet.touches hp hkeep h.bound
  have ht' : Touches c t (p.result t).maps := Packet.touches hp hkeep ht
  have hres := Packet.sameResult hp hkeep h.view hroom (h.notFull hroom) h.bound
  refine ⟨hres, hres.maps, hs'.boundToOwner h.bound, hs'.boundToOwner_ne hne h.boundOther, ?_, ?_, ?_⟩
  · intro k hk
    by_cases hown : k = c.mac
    · rw [hown] at hk ⊢
      exact hres.maps.fwd ▸ hk
    · rw [ht'.macIp k hown] at hk
      exact hs'.growsFwd k (h.macIp k hk)
  · intro a ha
    by_cases hown : a = c.ip
    · rw [hown] at ha ⊢
      exact hres.maps.rev ▸ ha
    · rw [ht'.ipMac a hown] at ha
      exact hs'.growsRev a (h.ipMac a ha)
  · intro key hkey
    by_cases hown : key.clientIp = c.ip
    · exact hres.maps.flows key hown ▸ hkey
    · rw [ht'.conntrack key hown] at hkey
      exact hs'.growsFlows key (h.conntrack key hkey)

/-- A packet of the other client happens in one of the runs only and keeps them related. -/
theorem Related.step_other (h : Related c o s t) (hmac : c.mac ≠ o.mac) (hip : c.ip ≠ o.ip)
    (hkeep : p.env.evicted = []) (hp : p.Of o) : Related c o (p.result s).maps t := by
  have hs' : Touches o s (p.result s).maps := Packet.touches hp hkeep h.boundOther
  exact ⟨(hs'.sameView hmac hip).trans h.view, hs'.boundToOwner_ne hip h.bound,
    hs'.boundToOwner h.boundOther, h.macIp.trans hs'.growsFwd, h.ipMac.trans hs'.growsRev,
    h.conntrack.trans hs'.growsFlows⟩

/-- The unwinding conditions hold for the packets of a client among those of another. -/
theorem unwinding (hmac : c.mac ≠ o.mac) (hip : c.ip ≠ o.ip) :
    Unwinding (transmit c) (Packet.Of c) (Related c o : HgMaps ncpu → HgMaps ncpu → Prop)
      (Undisturbed c o) where
  output s t p hR hG hown := by
    have hres := (hR.step_own hip.symm hG.room hG.keep hown).1
    simp only [transmit, hres.verdict, hres.data, hres.stamp, hres.maps.counter]
  consistent s t p hR hG hown := (hR.step_own hip.symm hG.room hG.keep hown).2
  respects s t p hR hG hown :=
    hR.step_other hmac hip hG.keep (hG.sender.resolve_left hown)

end

/-- The packets of a client fare the same in every interleaving with those of another client as
    in the run without them, and so does the client's counter. -/
theorem client_noninterference {c o : Station} {s : HgMaps ncpu} {ps : List (Packet ncpu)}
    (hmac : c.mac ≠ o.mac) (hip : c.ip ≠ o.ip) (hbound : BoundToOwner c s)
    (hother : BoundToOwner o s) (hrun : Always (next (transmit c)) (Undisturbed c o) s ps) :
    outputs (transmit c) (Packet.Of c) s ps =
        outputs (transmit c) (Packet.Of c) s (purge (Packet.Of c) ps) ∧
      (run (next (transmit c)) s ps).counters.lookup c.ip =
        (run (next (transmit c)) s (purge (Packet.Of c) ps)).counters.lookup c.ip := by
  have hstart : Related c o s s :=
    ⟨⟨rfl, rfl, rfl, rfl, rfl, fun _ _ => rfl⟩, hbound, hother, .refl _, .refl _, .refl _⟩
  obtain ⟨hout, hfinal⟩ := (unwinding hmac hip).purge hstart hrun
  exact ⟨hout, hfinal.view.counter⟩

/-- Two clients that browse at the same time, each with one packet. -/
theorem client_noninterference_two_requests :
    let a : Station := ⟨localMac 1, addrOfOctets 192 168 99 82⟩
    let b : Station := ⟨localMac 2, addrOfOctets 192 168 99 83⟩
    let request (c : Station) (now : UInt64) : Packet 1 :=
      ⟨.ingress, .good ⟨0, Nat.one_pos⟩ now,
        ⟨tcpFrame c.mac c.ip (addrOfOctets 9 9 9 9) 40000 80, 54⟩⟩
    outputs (transmit b) (Packet.Of b) (HgMaps.start 1 .standard 0) [request a 1, request b 2] =
        outputs (transmit b) (Packet.Of b) (HgMaps.start 1 .standard 0)
          (purge (Packet.Of b) [request a 1, request b 2]) ∧
      (run (next (transmit b)) (HgMaps.start 1 .standard 0)
          [request a 1, request b 2]).counters.lookup b.ip =
        (run (next (transmit b)) (HgMaps.start 1 .standard 0)
          (purge (Packet.Of b) [request a 1, request b 2])).counters.lookup b.ip := by
  intro a b request
  have hbound : ∀ c, BoundToOwner c (HgMaps.start 1 .standard 0) := by
    intro c m hm
    cases hm
  refine client_noninterference (o := a) (by decide) (by decide) (hbound b) (hbound a) ?_
  have ha : (request a 1).Of a := by decide +kernel
  have hb : (request b 2).Of b := by decide +kernel
  exact ⟨⟨.inr ha, ⟨by decide, by decide, by decide⟩, rfl⟩,
    ⟨.inl hb, ⟨by decide, by decide, by decide⟩, rfl⟩, trivial⟩

end HawkGate
