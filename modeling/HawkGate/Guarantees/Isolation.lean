-- SUMMARY: Isolation of clients: packets, commands and requests of others leave what one client sees as it is.
import HawkGate.Guarantees.ExplicitLogin
import HawkGate.Guarantees.Footprints
import HawkGate.Guarantees.Noninterference
import HawkGate.System.Host

/-!
# Isolation of clients

Whatever the packets, commands and requests of other clients do, and however
their calls interleave, a client sees what it would see without them: verdicts,
stamps and rewritten frames, its session, counter and profile, and the answers
of its own commands and requests. The clients have different names in all the
maps, and no map is full.
-/

namespace HawkGate

open Bytes CString HawkGate.Frame Transition Noninterference

variable {ncpu : Nat}

def Subscriber.station (c : Subscriber) : Station := ⟨c.mac, c.ip⟩

/-- Two subscribers have no name in common. -/
structure Subscriber.Apart (c o : Subscriber) : Prop where
  mac : c.mac ≠ o.mac
  ip : c.ip ≠ o.ip
  rateId : c.rateId ≠ o.rateId

theorem Subscriber.Apart.symm {c o : Subscriber} (h : c.Apart o) : o.Apart c :=
  ⟨h.mac.symm, h.ip.symm, h.rateId.symm⟩

/-! ## The entries of a subscriber -/

/-- The maps that neither packets nor the commands about clients write. -/
def HgMaps.common (s : HgMaps ncpu) : HgMaps ncpu := { s.policy with rates := .empty }

/-- Two states agree on the entries of a subscriber, and on what all have in common. -/
structure SameEntries (c : Subscriber) (s t : HgMaps ncpu) : Prop where
  common : s.common = t.common
  client : s.clients.lookup c.mac = t.clients.lookup c.mac
  counter : s.counters.lookup c.ip = t.counters.lookup c.ip
  fwd : s.macIp.lookup c.mac = t.macIp.lookup c.mac
  rev : s.ipMac.lookup c.ip = t.ipMac.lookup c.ip
  flows : ∀ key, key.clientIp = c.ip → s.conntrack.lookup key = t.conntrack.lookup key
  profile : s.rates.lookup c.rateId = t.rates.lookup c.rateId

/-- The entries of a subscriber lead to each other. -/
structure Linked (c : Subscriber) (s : HgMaps ncpu) : Prop where
  fwd : ∀ ip, s.macIp.lookup c.mac = some ip → ip = c.ip
  rev : ∀ m, s.ipMac.lookup c.ip = some m → m = c.mac
  rateId : ∀ cs, s.clients.lookup c.mac = some cs → cs.rateLimitId = c.rateId

/-- No map that is written here is full. -/
structure Roomy (s : HgMaps ncpu) : Prop extends NotFull s where
  clients : s.clients.size < 4096
  counters : s.counters.size < 4096
  rates : s.rates.size < 256

instance (s : HgMaps ncpu) : Decidable (Roomy s) :=
  decidable_of_iff (s.macIp.size < 4096 ∧ s.ipMac.size < 4096 ∧ s.conntrack.size < 512 ∧
      s.clients.size < 4096 ∧ s.counters.size < 4096 ∧ s.rates.size < 256)
    ⟨fun ⟨h₁, h₂, h₃, h₄, h₅, h₆⟩ => ⟨⟨h₁, h₂, h₃⟩, h₄, h₅, h₆⟩,
      fun h => ⟨h.macIp, h.ipMac, h.conntrack, h.clients, h.counters, h.rates⟩⟩

section
variable {c o : Subscriber} {s s' t : HgMaps ncpu}

theorem SameEntries.refl (c : Subscriber) (s : HgMaps ncpu) : SameEntries c s s :=
  ⟨rfl, rfl, rfl, rfl, rfl, fun _ _ => rfl, rfl⟩

theorem SameEntries.symm (h : SameEntries c s t) : SameEntries c t s :=
  ⟨h.common.symm, h.client.symm, h.counter.symm, h.fwd.symm, h.rev.symm,
    fun key hkey => (h.flows key hkey).symm, h.profile.symm⟩

theorem SameEntries.trans (h : SameEntries c s s') (h' : SameEntries c s' t) : SameEntries c s t :=
  ⟨h.common.trans h'.common, h.client.trans h'.client, h.counter.trans h'.counter,
    h.fwd.trans h'.fwd, h.rev.trans h'.rev,
    fun key hkey => (h.flows key hkey).trans (h'.flows key hkey), h.profile.trans h'.profile⟩

/-- A step from `s` to `s'` changes entries of the subscriber only, and keeps them linked. -/
structure Confined (o : Subscriber) (s s' : HgMaps ncpu) : Prop where
  common : s'.common = s.common
  clients : ∀ k, k ≠ o.mac → s'.clients.lookup k = s.clients.lookup k
  counters : ∀ a, a ≠ o.ip → s'.counters.lookup a = s.counters.lookup a
  macIp : ∀ k, k ≠ o.mac → s'.macIp.lookup k = s.macIp.lookup k
  ipMac : ∀ a, a ≠ o.ip → s'.ipMac.lookup a = s.ipMac.lookup a
  conntrack : ∀ key, key.clientIp ≠ o.ip → s'.conntrack.lookup key = s.conntrack.lookup key
  rates : ∀ id, id ≠ o.rateId → s'.rates.lookup id = s.rates.lookup id
  linked : Linked o s → Linked o s'

theorem Confined.refl (o : Subscriber) (s : HgMaps ncpu) : Confined o s s :=
  ⟨rfl, fun _ _ => rfl, fun _ _ => rfl, fun _ _ => rfl, fun _ _ => rfl, fun _ _ => rfl,
    fun _ _ => rfl, id⟩

/-- Another subscriber does not see the step. -/
theorem Confined.sameEntries (h : Confined o s s') (hne : c.Apart o) : SameEntries c s' s where
  common := h.common
  client := h.clients _ hne.mac
  counter := h.counters _ hne.ip
  fwd := h.macIp _ hne.mac
  rev := h.ipMac _ hne.ip
  flows key hkey := h.conntrack key (hkey ▸ hne.ip)
  profile := h.rates _ hne.rateId

theorem SameEntries.linked (h : SameEntries c s t) (ht : Linked c t) : Linked c s where
  fwd ip hip := ht.fwd ip (h.fwd ▸ hip)
  rev m hm := ht.rev m (h.rev ▸ hm)
  rateId cs hcs := ht.rateId cs (h.client ▸ hcs)

/-! ## Calls -/

section
variable {env : SysEnv} {β : Type} {op : Sys ncpu β}

/-- Linked entries answer a call about the subscriber with its names. -/
theorem Linked.answersAbout (h : Linked c s) (env : SysEnv) (op : Sys ncpu β) :
    op.AnswersAbout c (Sys.exec env s op).1 := by
  cases op with
  | lookupClient k =>
    rintro rfl cs hcs
    exact h.rateId cs hcs
  | lookupMacIp k =>
    rintro rfl ip hip
    exact h.fwd ip hip
  | lookupIpMac ip =>
    rintro rfl m hm
    exact h.rev m hm
  | _ => trivial

theorem confined_exec (h : op.Concerns o) (env : SysEnv) (s : HgMaps ncpu) :
    Confined o s (Sys.exec env s op).2 := by
  cases op with
  | updateClient k v =>
    obtain ⟨rfl, hid⟩ := h
    simp only [Sys.exec, commit_update]
    split
    · refine { Confined.refl o s with common := rfl, clients := ?_, linked := ?_ }
      · exact fun k hk => by simp [BoundedMap.lookup_put, hk]
      · refine fun hl => ⟨hl.fwd, hl.rev, fun cs hcs => ?_⟩
        dsimp only at hcs
        rw [BoundedMap.lookup_put] at hcs
        split at hcs
        · exact Option.some.inj hcs ▸ hid
        · exact hl.rateId cs hcs
    · exact .refl o s
  | deleteClient k =>
    obtain rfl := h
    simp only [Sys.exec, commit_delete]
    refine { Confined.refl o s with common := rfl, clients := ?_, linked := ?_ }
    · exact fun k hk => by simp [BoundedMap.lookup_erase, hk]
    · refine fun hl => ⟨hl.fwd, hl.rev, fun cs hcs => ?_⟩
      exact hl.rateId cs (BoundedMap.lookup_of_erase hcs).2
  | updateCounter ip v =>
    obtain rfl := h
    simp only [Sys.exec, commit_update]
    split
    · refine { Confined.refl o s with common := rfl, counters := ?_, linked := ?_ }
      · exact fun a ha => by simp [BoundedMap.lookup_put, ha]
      · exact fun hl => ⟨hl.fwd, hl.rev, hl.rateId⟩
    · exact .refl o s
  | deleteCounter ip =>
    obtain rfl := h
    simp only [Sys.exec, commit_delete]
    refine { Confined.refl o s with common := rfl, counters := ?_, linked := ?_ }
    · exact fun a ha => by simp [BoundedMap.lookup_erase, ha]
    · exact fun hl => ⟨hl.fwd, hl.rev, hl.rateId⟩
  | updateRate id v =>
    obtain rfl := h
    simp only [Sys.exec, commit_update]
    split
    · refine { Confined.refl o s with common := rfl, rates := ?_, linked := ?_ }
      · exact fun a ha => by simp [BoundedMap.lookup_put, ha]
      · exact fun hl => ⟨hl.fwd, hl.rev, hl.rateId⟩
    · exact .refl o s
  | deleteRate id =>
    obtain rfl := h
    simp only [Sys.exec, commit_delete]
    refine { Confined.refl o s with common := rfl, rates := ?_, linked := ?_ }
    · exact fun a ha => by simp [BoundedMap.lookup_erase, ha]
    · exact fun hl => ⟨hl.fwd, hl.rev, hl.rateId⟩
  | deleteConntrack key =>
    simp only [Sys.exec, commit_delete]
    refine { Confined.refl o s with common := rfl, conntrack := ?_, linked := ?_ }
    · intro k hk
      have hne : k ≠ key := fun heq => hk (heq ▸ h)
      simp [BoundedMap.lookup_erase, hne]
    · exact fun hl => ⟨hl.fwd, hl.rev, hl.rateId⟩
  | objGet | close | calloc | clockGettime | lookupClient | lookupCounter | lookupRate | lookupMacIp
  | lookupIpMac => exact .refl o s
  | _ => exact h.elim

/-- A map with room accepts an update if the kernel does. -/
theorem accepts_iff {K V : Type} [DecidableEq K] {cap : Nat} {m : BoundedMap K V cap}
    (h : m.size < cap) (map : MapName) (k : K) : env.Accepts map m k ↔ env.update map = true :=
  and_iff_left (.inr h)

/-- Two states that agree on the entries of a subscriber answer its calls alike. -/
theorem SameEntries.exec (h : SameEntries c s t) (hs : Roomy s) (ht : Roomy t) (hop : op.Concerns c)
    (env : SysEnv) : (Sys.exec env s op).1 = (Sys.exec env t op).1 ∧
      SameEntries c (Sys.exec env s op).2 (Sys.exec env t op).2 := by
  cases op with
  | objGet | close | calloc | clockGettime => exact ⟨rfl, h⟩
  | lookupClient k =>
    obtain rfl := hop
    exact ⟨h.client, h⟩
  | lookupCounter ip =>
    obtain rfl := hop
    exact ⟨h.counter, h⟩
  | lookupRate id =>
    obtain rfl := hop
    exact ⟨h.profile, h⟩
  | lookupMacIp k =>
    obtain rfl := hop
    exact ⟨h.fwd, h⟩
  | lookupIpMac ip =>
    obtain rfl := hop
    exact ⟨h.rev, h⟩
  | updateClient k v =>
    obtain ⟨rfl, -⟩ := hop
    simp only [Sys.exec, commit_update, accepts_iff hs.clients, accepts_iff ht.clients]
    split
    · refine ⟨rfl, { h with common := h.common, client := ?_ }⟩
      rw [BoundedMap.lookup_put_self _ _ (.inr hs.clients),
        BoundedMap.lookup_put_self _ _ (.inr ht.clients)]
    · exact ⟨rfl, h⟩
  | updateCounter ip v =>
    obtain rfl := hop
    simp only [Sys.exec, commit_update, accepts_iff hs.counters, accepts_iff ht.counters]
    split
    · refine ⟨rfl, { h with common := h.common, counter := ?_ }⟩
      rw [BoundedMap.lookup_put_self _ _ (.inr hs.counters),
        BoundedMap.lookup_put_self _ _ (.inr ht.counters)]
    · exact ⟨rfl, h⟩
  | updateRate id v =>
    obtain rfl := hop
    simp only [Sys.exec, commit_update, accepts_iff hs.rates, accepts_iff ht.rates]
    split
    · refine ⟨rfl, { h with common := h.common, profile := ?_ }⟩
      rw [BoundedMap.lookup_put_self _ _ (.inr hs.rates),
        BoundedMap.lookup_put_self _ _ (.inr ht.rates)]
    · exact ⟨rfl, h⟩
  | deleteClient k =>
    obtain rfl := hop
    simp only [Sys.exec, commit_delete, h.client]
    exact ⟨trivial, { h with common := h.common, client := by simp }⟩
  | deleteCounter ip =>
    obtain rfl := hop
    simp only [Sys.exec, commit_delete, h.counter]
    exact ⟨trivial, { h with common := h.common, counter := by simp }⟩
  | deleteRate id =>
    obtain rfl := hop
    simp only [Sys.exec, commit_delete, h.profile]
    exact ⟨trivial, { h with common := h.common, profile := by simp }⟩
  | deleteConntrack key =>
    simp only [Sys.exec, commit_delete, h.flows key hop]
    refine ⟨trivial, { h with common := h.common, flows := fun k hk => ?_ }⟩
    simp only [BoundedMap.lookup_erase, h.flows k hk]
  | _ => exact hop.elim

end

/-! ## Packets -/

section
variable {env : BpfEnv ncpu} {skb : SkBuff}

/-- Shaping looks at one profile. -/
theorem applyEdtShaping_congr {rates rates' : BoundedMap UInt32 HgRateCfg 256} {cs : HgClient}
    (h : rates.lookup cs.rateLimitId = rates'.lookup cs.rateLimitId) (now : UInt64) (len : UInt32)
    (up : Bool) : applyEdtShaping rates now len cs up = applyEdtShaping rates' now len cs up := by
  rw [applyEdtShaping, applyEdtShaping, h]

/-- The result of a hook with other profiles in its maps. -/
def TcResult.withRates (r : TcResult ncpu) (rates : BoundedMap UInt32 HgRateCfg 256) :
    TcResult ncpu :=
  { r with maps := { r.maps with rates := rates } }

theorem client_of_ingressStage {d : Bytes} {auth : HgClient} (h : s.ingressStage d = .session auth) :
    s.clients.lookup (hSource d) = some auth := by
  unfold HgMaps.ingressStage at h
  split at h
  · cases h
  · cases h
  · split at h
    · cases h
    · split at h
      · cases h
      · split at h
        · next hauth => rw [hauth, IngressStage.session.inj h]
        · unfold HgMaps.ingressPreauthStage at h
          split at h
          · cases h
          · split at h
            · cases h
            · split at h
              · cases h
              · split at h
                · cases h
                · cases h

theorem client_of_egressStage {d : Bytes} {m : HgMacKey} {auth : HgClient}
    (h : s.egressStage d = .session m auth) : s.clients.lookup m = some auth := by
  unfold HgMaps.egressStage at h
  split at h
  · cases h
  · cases h
  · split at h
    · cases h
    · split at h
      · cases h
      · split at h
        · next hof =>
          obtain ⟨rfl, rfl⟩ := EgressStage.session.inj h
          obtain ⟨k, -, hk⟩ := Option.bind_eq_some_iff.mp hof
          obtain ⟨cs, hcs, heq⟩ := Option.map_eq_some_iff.mp hk
          obtain ⟨rfl, rfl⟩ := Prod.mk.inj heq
          exact hcs
        · split at h
          · cases h
          · split at h
            · cases h
            · cases h

section
variable {rates : BoundedMap UInt32 HgRateCfg 256}

theorem bindFrame_withRates (d : Bytes) :
    ({ s with rates := rates } : HgMaps ncpu).bindFrame env d =
      { s.bindFrame env d with rates := rates } := by
  unfold HgMaps.bindFrame
  cases filterProto d with
  | l2Only p => rfl
  | invalid => rfl
  | l3Ok key =>
    dsimp only
    unfold HgMaps.bindClient
    split
    · rfl
    · split
      · rfl
      · rfl

theorem ingressSession_withRates {auth : HgClient} (m : HgMacKey) (ip : IpAddr)
    (h : s.rates.lookup auth.rateLimitId = rates.lookup auth.rateLimitId) :
    ingressSession env { s with rates := rates } skb m ip auth =
      (ingressSession env s skb m ip auth).withRates rates := by
  unfold ingressSession
  rw [applyEdtShaping_congr h]
  generalize applyEdtShaping rates env.edtKtimeNs skb.len auth true = edt
  split
  · unfold HgMaps.expireClient
    split
    · rfl
    · rfl
  · by_cases hshot : edt.verdict = .shot
    · simp only [hshot, if_true]
      rfl
    · by_cases hcounter : (s.counters.lookup ip).isNone = true
      · simp only [hshot, if_false, HgMaps.writeClient, hcounter, if_true]
        rfl
      · simp only [hshot, if_false, HgMaps.writeClient, hcounter]
        rfl

theorem egressSession_withRates {auth : HgClient} (m : HgMacKey) (ip : IpAddr)
    (h : s.rates.lookup auth.rateLimitId = rates.lookup auth.rateLimitId) :
    egressSession env { s with rates := rates } skb m ip auth =
      (egressSession env s skb m ip auth).withRates rates := by
  unfold egressSession
  rw [applyEdtShaping_congr h]
  generalize applyEdtShaping rates env.edtKtimeNs skb.len auth false = edt
  by_cases hshot : edt.verdict = .shot
  · simp only [hshot, if_true]
    rfl
  · by_cases hcounter : (s.counters.lookup ip).isNone = true
    · simp only [hshot, if_false, HgMaps.writeClient, hcounter, if_true]
      rfl
    · simp only [hshot, if_false, HgMaps.writeClient, hcounter]
      rfl

/-- The profiles of other clients do not matter to a packet from the client. -/
theorem hgTcIngress_withRates (h : ∀ auth, s.clients.lookup (hSource skb.data) = some auth →
      s.rates.lookup auth.rateLimitId = rates.lookup auth.rateLimitId) :
    hgTcIngress env { s with rates := rates } skb = (hgTcIngress env s skb).withRates rates := by
  have hstage : ({ s with rates := rates } : HgMaps ncpu).ingressStage skb.data =
      s.ingressStage skb.data := rfl
  rw [hgTcIngress_eq_stage, hgTcIngress_eq_stage, hstage, bindFrame_withRates]
  cases hs : s.ingressStage skb.data with
  | session auth =>
    refine ingressSession_withRates _ _ ?_
    rw [HgMaps.bindFrame_rates]
    exact h auth (client_of_ingressStage hs)
  | redirect cfg =>
    obtain ⟨v, d', w, -, hrun⟩ := exists_redirect env skb.data cfg
    simp only [IngressStage.result, hrun]
    cases w with
    | none => rfl
    | some kv =>
      simp only [Option.elim_some, HgMaps.trackFlow]
      split
      · rfl
      · rfl
  | portal cfg =>
    simp only [IngressStage.result, portalGate]
    split
    · rfl
    · rfl
  | filter v => rfl
  | bypass => rfl
  | allowList => rfl
  | walledGarden => rfl
  | notHttp => rfl
  | noPortal => rfl

/-- The profiles of other clients do not matter to a packet to the client. -/
theorem hgTcEgress_withRates (h : ∀ m auth, s.egressStage skb.data = .session m auth →
      s.rates.lookup auth.rateLimitId = rates.lookup auth.rateLimitId) :
    hgTcEgress env { s with rates := rates } skb = (hgTcEgress env s skb).withRates rates := by
  have hstage : ({ s with rates := rates } : HgMaps ncpu).egressStage skb.data =
      s.egressStage skb.data := rfl
  rw [hgTcEgress_eq_stage, hgTcEgress_eq_stage, hstage]
  cases hs : s.egressStage skb.data with
  | session m auth => exact egressSession_withRates _ _ (h m auth hs)
  | snat =>
    obtain ⟨v, d', hrun⟩ := exists_snat env skb.data (s.conntrack.lookup (ctReplyKeyOf skb.data))
    simp only [EgressStage.result, hrun s rfl, hrun { s with rates := rates } rfl]
    rfl
  | filter v => rfl
  | bypass => rfl
  | allowList => rfl
  | walledGarden => rfl
  | blocked => rfl

end

/-- A packet of a subscriber with the binding that it leaves. -/
theorem confined_of_touches (h : Touches o.station s s') (hkeep : s.KeepsProfiles s')
    (hfwd : ∀ ip, s'.macIp.lookup o.mac = some ip → s.macIp.lookup o.mac = some ip ∨ ip = o.ip) :
    Confined o s s' where
  common := congrArg (fun p : HgMaps ncpu => { p with rates := .empty }) h.policy
  clients := h.clients
  counters := h.counters
  macIp := h.macIp
  ipMac := h.ipMac
  conntrack := h.conntrack
  rates id _ := by
    have hrates : s'.policy.rates = s.policy.rates := congrArg HgMaps.rates h.policy
    rw [show s'.rates = s.rates from hrates]
  linked hl := by
    refine ⟨fun ip hip => (hfwd ip hip).elim (hl.fwd ip) id, fun m hm => ?_, fun cs hcs => ?_⟩
    · exact (h.bound m hm).elim (hl.rev m) id
    · obtain ⟨cs', hcs', hid⟩ := hkeep.clients o.mac cs hcs
      rw [← hid, hl.rateId cs' hcs']

theorem confined_ingress (hkeep : env.evicted = []) (hp : Packet.Of o.station ⟨.ingress, env, skb⟩)
    (s : HgMaps ncpu) : Confined o s (hgTcIngress env s skb).maps := by
  obtain ⟨hmac, hip⟩ := hp.1 rfl
  refine confined_of_touches (touches_hgTcIngress hkeep hmac hip) (keepsProfiles_ingress s env skb)
    fun ip hbound => ?_
  rw [macIp_hgTcIngress] at hbound
  unfold HgMaps.bindFrame HgMaps.bindClient at hbound
  unfold ipSource at hip
  cases hkey : filterProto skb.data with
  | l2Only p =>
    rw [hkey] at hbound
    exact .inl hbound
  | invalid =>
    rw [hkey] at hbound
    exact .inl hbound
  | l3Ok key =>
    rw [hkey] at hbound hip
    dsimp only at hbound
    split at hbound
    · exact .inl hbound
    · split at hbound
      · exact .inl hbound
      · split at hbound
        · rw [BoundedMap.lookup_put] at hbound
          split at hbound
          · exact .inr ((Option.some.inj hbound).symm.trans (hip _ rfl))
          · exact .inl hbound
        · exact .inl hbound

theorem confined_egress (hp : Packet.Of o.station ⟨.egress, env, skb⟩) (hl : Linked o s) :
    Confined o s (hgTcEgress env s skb).maps := by
  refine confined_of_touches (touches_hgTcEgress hl.rev (hp.2 rfl)) (keepsProfiles_egress s env skb)
    fun ip hbound => ?_
  rw [macIp_hgTcEgress] at hbound
  exact .inl hbound

/-- What a client can tell from the result of a hook. -/
structure SameFate (c : Subscriber) (r r' : TcResult ncpu) : Prop where
  verdict : r.verdict = r'.verdict
  data : r.data = r'.data
  stamp : r.stamp = r'.stamp
  maps : SameEntries c r.maps r'.maps

/-- With the profiles of the one state, the other looks the same to packets of the client. -/
theorem SameEntries.sameView (h : SameEntries c s t) :
    SameView c.station { s with rates := t.rates } t where
  policy := congrArg (fun p : HgMaps ncpu => { p with rates := t.rates }) h.common
  client := h.client
  counter := h.counter
  fwd := h.fwd
  rev := h.rev
  flows := h.flows

theorem SameResult.sameFate {r r' : TcResult ncpu}
    (h : SameResult c.station (r.withRates t.rates) r') (hr : r.maps.rates = s.rates)
    (hr' : r'.maps.rates = t.rates) (hprofile : s.rates.lookup c.rateId = t.rates.lookup c.rateId) :
    SameFate c r r' where
  verdict := h.verdict
  data := h.data
  stamp := h.stamp
  maps :=
    { common := congrArg (fun p : HgMaps ncpu => { p with rates := .empty }) h.maps.policy
      client := h.maps.client
      counter := h.maps.counter
      fwd := h.maps.fwd
      rev := h.maps.rev
      flows := h.maps.flows
      profile := by rw [hr, hr', hprofile] }

theorem SameEntries.ingress (h : SameEntries c s t) (hs : Roomy s) (ht : Roomy t) (hl : Linked c s)
    (hkeep : env.evicted = []) (hp : Packet.Of c.station ⟨.ingress, env, skb⟩) :
    SameFate c (hgTcIngress env s skb) (hgTcIngress env t skb) := by
  obtain ⟨hmac, hip⟩ := hp.1 rfl
  have hs' : NotFull ({ s with rates := t.rates } : HgMaps ncpu) := ⟨hs.macIp, hs.ipMac, hs.conntrack⟩
  have hres : SameResult c.station (HawkGate.hgTcIngress env { s with rates := t.rates } skb)
      (HawkGate.hgTcIngress env t skb) := h.sameView.hgTcIngress hs' ht.toNotFull hkeep hmac hip
  rw [hgTcIngress_withRates fun auth hauth => ?_] at hres
  · exact hres.sameFate (rates_hgTcIngress env s skb) (rates_hgTcIngress env t skb) h.profile
  · rw [hmac] at hauth
    rw [hl.rateId auth hauth, h.profile]

theorem SameEntries.egress (h : SameEntries c s t) (hl : Linked c s)
    (hp : Packet.Of c.station ⟨.egress, env, skb⟩) :
    SameFate c (hgTcEgress env s skb) (hgTcEgress env t skb) := by
  have hip := hp.2 rfl
  have hres : SameResult c.station (HawkGate.hgTcEgress env { s with rates := t.rates } skb)
      (HawkGate.hgTcEgress env t skb) := h.sameView.hgTcEgress hl.rev hip
  rw [hgTcEgress_withRates fun m auth hauth => ?_] at hres
  · exact hres.sameFate (rates_hgTcEgress env s skb) (rates_hgTcEgress env t skb) h.profile
  · have hbound := HgMaps.ipMac_of_egressStage hauth
    rw [hip] at hbound
    have hclient := client_of_egressStage hauth
    rw [hl.rev m hbound] at hclient
    rw [hl.rateId auth hclient, h.profile]

end

end

/-! ## Runs -/

/-- Whose event it is: parties are those of the subscriber that `who` gives for their position. -/
def GatewayEvent.Of (who : Nat → Subscriber) (c : Subscriber) : GatewayEvent ncpu → Prop
  | .start _ => False
  | .call i _ => who i = c
  | .ingress env skb => Packet.Of c.station ⟨.ingress, env, skb⟩
  | .egress env skb => Packet.Of c.station ⟨.egress, env, skb⟩

instance (who : Nat → Subscriber) (c : Subscriber) :
    DecidablePred (GatewayEvent.Of who c : GatewayEvent ncpu → Prop)
  | .start _ => inferInstanceAs (Decidable False)
  | .call i _ => inferInstanceAs (Decidable (who i = c))
  | .ingress env skb => inferInstanceAs (Decidable (Packet.Of c.station ⟨.ingress, env, skb⟩))
  | .egress env skb => inferInstanceAs (Decidable (Packet.Of c.station ⟨.egress, env, skb⟩))

/-- The packet evicts no flow. -/
def GatewayEvent.Keeps : GatewayEvent ncpu → Prop
  | .ingress env _ => env.evicted = []
  | .start _ | .call _ _ | .egress _ _ => True

/-- What a party has answered, if it is done. -/
def RunningParty.reply (p : RunningParty ncpu) : Option Reply :=
  match p.rest with
  | .ret r => some r
  | .call _ _ => none

/-- What a client sees of an event of its own: what became of the packet or of the call, and the
    client's session, counter and profile after it. -/
structure Sighting (ncpu : Nat) where
  packet : Option (TcAct × Bytes × Option UInt64)
  reply : Option Reply
  session : Option HgClient
  counter : Option (Fin ncpu → HgCounter)
  profile : Option HgRateCfg

def Gateway.packetFate (g : Gateway ncpu) : GatewayEvent ncpu → Option (TcAct × Bytes × Option UInt64)
  | .ingress env skb =>
    let r := hgTcIngress env g.maps skb
    some (r.verdict, r.data, r.stamp)
  | .egress env skb =>
    let r := hgTcEgress env g.maps skb
    some (r.verdict, r.data, r.stamp)
  | .start _ | .call _ _ => none

def Gateway.replyTo (g : Gateway ncpu) : GatewayEvent ncpu → Option Reply
  | .call i _ => g.running[i]?.bind RunningParty.reply
  | .start _ | .ingress _ _ | .egress _ _ => none

/-- One event, seen by a client. -/
def sight (c : Subscriber) (g : Gateway ncpu) (e : GatewayEvent ncpu) :
    Gateway ncpu × Sighting ncpu :=
  let g' := g.step e
  (g', ⟨g.packetFate e, g'.replyTo e, g'.maps.clients.lookup c.mac, g'.maps.counters.lookup c.ip,
    g'.maps.rates.lookup c.rateId⟩)

/-- An event of one of the subscribers that meets maps with room, and evicts nothing. -/
structure Regular (S : Set Subscriber) (who : Nat → Subscriber) (g : Gateway ncpu)
    (e : GatewayEvent ncpu) : Prop where
  party : ∃ o ∈ S, e.Of who o
  room : Roomy g.maps
  keeps : e.Keeps

/-- The entries of all subscribers are linked, and what is left of each party is about its own. -/
structure Orderly (S : Set Subscriber) (who : Nat → Subscriber) (g : Gateway ncpu) : Prop where
  linked : ∀ c ∈ S, Linked c g.maps
  about : ∀ (i : Nat) (p : RunningParty ncpu), g.running[i]? = some p → p.rest.About (who i)

/-- Two gateways that a subscriber cannot tell apart. -/
structure Indistinct (S : Set Subscriber) (who : Nat → Subscriber) (c : Subscriber)
    (g g' : Gateway ncpu) : Prop where
  entries : SameEntries c g.maps g'.maps
  running : ∀ i, who i = c → g.running[i]? = g'.running[i]?
  left : Orderly S who g
  right : Orderly S who g'

section
variable {S : Set Subscriber} {who : Nat → Subscriber} {c o : Subscriber} {g g' : Gateway ncpu}
  {e : GatewayEvent ncpu}

/-- An event of a subscriber changes the entries of this subscriber only. -/
theorem Orderly.confined (h : Orderly S who g) (ho : o ∈ S) (hof : e.Of who o) (hkeeps : e.Keeps) :
    Confined o g.maps (g.step e).maps := by
  cases e with
  | start p => exact hof.elim
  | ingress env skb => exact confined_ingress hkeeps hof g.maps
  | egress env skb => exact confined_egress hof (h.linked o ho)
  | call i env =>
    rw [Gateway.step]
    cases hp : g.running[i]? with
    | none => exact .refl o g.maps
    | some p =>
      have hrest := h.about i p hp
      rw [show who i = o from hof] at hrest
      dsimp only
      cases hprog : p.rest with
      | ret r => exact .refl o g.maps
      | call op k =>
        rw [hprog] at hrest
        cases op with
        | map op => exact confined_exec hrest.next env.sys g.maps
        | list op => exact hrest.next.elim
        | host op => exact .refl o g.maps

/-- A party stays about its subscriber, whose entries answer its calls. -/
theorem about_advance {p : GatewayProg ncpu Reply} (h : p.About o) {s : HgMaps ncpu}
    (hl : Linked o s) (env : GatewayEnv) :
    GatewayProg.About o (p.advance (GatewayOp.exec env) s).1 := by
  refine Prog.Safe.advance h fun op => ?_
  cases op with
  | map op => exact hl.answersAbout env.sys op
  | list op => trivial
  | host op => trivial

/-- Two states that agree on the entries of a subscriber take its party a call further alike. -/
theorem SameEntries.advance {s t : HgMaps ncpu} (h : SameEntries c s t) (hs : Roomy s)
    (ht : Roomy t) {p : GatewayProg ncpu Reply} (hp : p.About c) (env : GatewayEnv) :
    (Prog.advance (GatewayOp.exec env) s p).1 = (Prog.advance (GatewayOp.exec env) t p).1 ∧
      SameEntries c (Prog.advance (GatewayOp.exec env) s p).2
        (Prog.advance (GatewayOp.exec env) t p).2 := by
  cases p with
  | ret r => exact ⟨rfl, h⟩
  | call op k =>
    cases op with
    | map op =>
      obtain ⟨hanswer, hstate⟩ := h.exec hs ht hp.next env.sys
      exact ⟨congrArg k hanswer, hstate⟩
    | list op => exact hp.next.elim
    | host op => exact ⟨rfl, h⟩

theorem Orderly.step (hS : S.Pairwise Subscriber.Apart) (h : Orderly S who g) (ho : o ∈ S)
    (hof : e.Of who o) (hkeeps : e.Keeps) : Orderly S who (g.step e) := by
  have hconf := h.confined ho hof hkeeps
  constructor
  · intro c hc
    by_cases hco : c = o
    · rw [hco]
      exact hconf.linked (h.linked o ho)
    · exact (hconf.sameEntries (hS hc ho hco)).linked (h.linked c hc)
  · cases e with
    | start p => exact hof.elim
    | ingress env skb => exact h.about
    | egress env skb => exact h.about
    | call i env =>
      rw [Gateway.step]
      cases hp : g.running[i]? with
      | none => exact h.about
      | some p =>
        intro j q hq
        dsimp only at hq
        rw [List.getElem?_set] at hq
        split at hq
        · next hij =>
          subst hij
          split at hq
          · obtain rfl := Option.some.inj hq
            have hrest := h.about i p hp
            rw [show who i = o from hof] at hrest ⊢
            exact about_advance hrest (h.linked o ho) env
          · cases hq
        · exact h.about j q hq

theorem Indistinct.symm (h : Indistinct S who c g g') : Indistinct S who c g' g :=
  ⟨h.entries.symm, fun i hi => (h.running i hi).symm, h.right, h.left⟩

/-- An event of another subscriber is not seen. -/
theorem Indistinct.foreign (hS : S.Pairwise Subscriber.Apart) (hc : c ∈ S)
    (h : Indistinct S who c g g') (ho : o ∈ S) (hof : e.Of who o) (hne : ¬ e.Of who c)
    (hkeeps : e.Keeps) : Indistinct S who c (g.step e) g' := by
  have hco : c ≠ o := by
    rintro rfl
    exact hne hof
  refine ⟨((h.left.confined ho hof hkeeps).sameEntries (hS hc ho hco)).trans h.entries, ?_,
    h.left.step hS ho hof hkeeps, h.right⟩
  intro i hi
  rw [← h.running i hi]
  cases e with
  | start p => exact hof.elim
  | ingress env skb => rfl
  | egress env skb => rfl
  | call j env =>
    rw [Gateway.step]
    cases hp : g.running[j]? with
    | none => rfl
    | some p =>
      have hij : j ≠ i := by
        rintro rfl
        exact hne hi
      exact List.getElem?_set_ne hij

/-- An event of the client itself comes to the same in both. -/
theorem Indistinct.own (hS : S.Pairwise Subscriber.Apart) (hc : c ∈ S)
    (h : Indistinct S who c g g') (hof : e.Of who c) (hroom : Roomy g.maps) (hroom' : Roomy g'.maps)
    (hkeeps : e.Keeps) :
    (sight c g e).2 = (sight c g' e).2 ∧ Indistinct S who c (g.step e) (g'.step e) := by
  have hleft := h.left.step hS hc hof hkeeps
  have hright := h.right.step hS hc hof hkeeps
  cases e with
  | start p => exact hof.elim
  | ingress env skb =>
    have hfate := h.entries.ingress hroom hroom' (h.left.linked c hc) hkeeps hof
    refine ⟨?_, hfate.maps, h.running, hleft, hright⟩
    simp only [sight, Gateway.packetFate, Gateway.replyTo, Gateway.step, hfate.verdict, hfate.data,
      hfate.stamp, hfate.maps.client, hfate.maps.counter, hfate.maps.profile]
  | egress env skb =>
    have hfate := h.entries.egress (h.left.linked c hc) hof
    refine ⟨?_, hfate.maps, h.running, hleft, hright⟩
    simp only [sight, Gateway.packetFate, Gateway.replyTo, Gateway.step, hfate.verdict, hfate.data,
      hfate.stamp, hfate.maps.client, hfate.maps.counter, hfate.maps.profile]
  | call i env =>
    have hrun := h.running i hof
    cases hp : g.running[i]? with
    | none =>
      rw [hp] at hrun
      have hstep : g.step (.call i env) = g := by rw [Gateway.step, hp]
      have hstep' : g'.step (.call i env) = g' := by rw [Gateway.step, ← hrun]
      simp only [sight, Gateway.packetFate, Gateway.replyTo, hstep, hstep', hp, ← hrun]
      exact ⟨by rw [h.entries.client, h.entries.counter, h.entries.profile], h⟩
    | some p =>
      rw [hp] at hrun
      have hrest := h.left.about i p hp
      rw [show who i = c from hof] at hrest
      obtain ⟨hnext, hmaps⟩ := h.entries.advance hroom hroom' hrest env
      have hstep : g.step (.call i env) =
          ⟨(p.rest.advance (GatewayOp.exec env) g.maps).2, g.running.set i
            { p with rest := (p.rest.advance (GatewayOp.exec env) g.maps).1 }⟩ := by
        rw [Gateway.step, hp]
      have hstep' : g'.step (.call i env) =
          ⟨(p.rest.advance (GatewayOp.exec env) g'.maps).2, g'.running.set i
            { p with rest := (p.rest.advance (GatewayOp.exec env) g.maps).1 }⟩ := by
        rw [Gateway.step, ← hrun, hnext]
      have hset : ∀ (q : RunningParty ncpu) (j : Nat), who j = c →
          (g.running.set i q)[j]? = (g'.running.set i q)[j]? := by
        intro q j hj
        rw [List.getElem?_set, List.getElem?_set]
        split
        · rw [if_pos (List.getElem?_eq_some_iff.mp hp).1,
            if_pos (List.getElem?_eq_some_iff.mp hrun.symm).1]
        · exact h.running j hj
      refine ⟨?_, ?_⟩
      · simp only [sight, Gateway.packetFate, Gateway.replyTo, hstep, hstep', hset _ i hof,
          hmaps.client, hmaps.counter, hmaps.profile]
      · rw [hstep] at hleft ⊢
        rw [hstep'] at hright ⊢
        exact ⟨hmaps, hset _, hleft, hright⟩

/-- The unwinding conditions hold for the events of a client among those of others. -/
theorem isolating (hS : S.Pairwise Subscriber.Apart) (hc : c ∈ S) :
    Isolating (sight c : Gateway ncpu → GatewayEvent ncpu → _) (GatewayEvent.Of who c)
      (Indistinct S who c) (Regular S who) where
  symm _ _ h := h.symm
  output _ _ _ h hG hG' hof := (h.own hS hc hof hG.room hG'.room hG.keeps).1
  consistent _ _ _ h hG hG' hof := (h.own hS hc hof hG.room hG'.room hG.keeps).2
  respects _ _ _ h hG hne := by
    obtain ⟨o, ho, hof⟩ := hG.party
    exact h.foreign hS hc ho hof hne hG.keeps

end

/-- Whatever the others do, a client sees the same and its entries end up the same: packets,
    commands and requests of clients with different names do not interfere, in any interleaving
    of their calls. -/
theorem client_isolated {S : Set Subscriber} (hS : S.Pairwise Subscriber.Apart)
    {who : Nat → Subscriber} {g : Gateway ncpu} (hlinked : ∀ c ∈ S, Linked c g.maps)
    (hparties : ∀ (i : Nat) (p : RunningParty ncpu), g.running[i]? = some p →
      p.rest = p.party.prog ∧ p.party.Serves (who i))
    {c : Subscriber} (hc : c ∈ S) {es es' : List (GatewayEvent ncpu)}
    (hes : Always (next (sight c)) (Regular S who) g es)
    (hes' : Always (next (sight c)) (Regular S who) g es')
    (hsame : purge (GatewayEvent.Of who c) es = purge (GatewayEvent.Of who c) es') :
    outputs (sight c) (GatewayEvent.Of who c) g es =
        outputs (sight c) (GatewayEvent.Of who c) g es' ∧
      SameEntries c (run Gateway.step g es).maps (run Gateway.step g es').maps := by
  have hg : Orderly S who g := by
    refine ⟨hlinked, fun i p hp => ?_⟩
    obtain ⟨hrest, hserves⟩ := hparties i p hp
    rw [hrest]
    exact hserves.about
  have hstart : Indistinct S who c g g := ⟨.refl c g.maps, fun _ _ => rfl, hg, hg⟩
  obtain ⟨hout, hfinal⟩ := (isolating hS hc).outputs_eq hstart hes hes' hsame
  exact ⟨hout, hfinal.entries⟩

/-- The client behind the last byte of a MAC, an address and a rate id. -/
def lanClient (n : Fin 256) : Subscriber :=
  ⟨localMac (UInt8.ofNat n), addrOfOctets 192 168 99 (UInt8.ofNat n), UInt32.ofNat n⟩

/-- A client that browses while another logs in and is half way through, or is not there. -/
theorem client_isolated_from_login :
    let browser := lanClient 83
    let login := lanClient 82
    let who : Nat → Subscriber := fun _ => login
    let portal : Party := .request { exampleConfig with dRate := 8000, uRate := 8000 } localAuth
      ⟨"POST".toList, "/login".toList, [], [], 0, "HTTP/1.1".toList⟩ (inetNtop login.ip) 40000
    let g : Gateway 1 := ⟨.start 1 .standard 5, [⟨portal, portal.prog⟩]⟩
    let packet (c : Subscriber) : GatewayEvent 1 :=
      .ingress (.good ⟨0, Nat.one_pos⟩ 7) ⟨tcpFrame c.mac c.ip (addrOfOctets 9 9 9 9) 40000 80, 54⟩
    let turn : GatewayEvent 1 := .call 0 ⟨.good ⟨0, 0⟩, true, true, fun _ => none⟩
    outputs (sight browser) (GatewayEvent.Of who browser) g
        [packet login, turn, turn, turn, packet browser, turn] =
        outputs (sight browser) (GatewayEvent.Of who browser) g [packet browser] ∧
      SameEntries browser
        (run Gateway.step g [packet login, turn, turn, turn, packet browser, turn]).maps
        (run Gateway.step g [packet browser]).maps := by
  intro browser login who portal g packet turn
  have happart : browser.Apart login := ⟨by decide, by decide, by decide⟩
  have hS : ({browser, login} : Set Subscriber).Pairwise Subscriber.Apart := by
    rintro c (rfl | rfl) o (rfl | rfl) hne
    · exact absurd rfl hne
    · exact happart
    · exact happart.symm
    · exact absurd rfl hne
  have hlinked : ∀ c : Subscriber, Linked c g.maps := by
    refine fun c => ⟨fun ip h => ?_, fun m h => ?_, fun cs h => ?_⟩
    · cases h
    · cases h
    · cases h
  have hparty : portal.Serves login := by
    refine ⟨rfl, fun a ha => ?_⟩
    have hrate : (parseAdd (((localAuth (loginCredentials
        ⟨"POST".toList, "/login".toList, [], [], 0, "HTTP/1.1".toList⟩ (inetNtop login.ip))).clientAuth
        { exampleConfig with dRate := 8000, uRate := 8000 } (inetNtop login.ip) 40000).addOpts
        { exampleConfig with dRate := 8000, uRate := 8000 })).map AddArgs.rateId =
          some login.rateId := by decide +kernel
    rw [ha] at hrate
    exact Option.some.inj hrate
  have hlogin : GatewayEvent.Of who login (packet login) := by decide +kernel
  have hbrowser : GatewayEvent.Of who browser (packet browser) := by decide +kernel
  have hforeign : ¬ GatewayEvent.Of who browser (packet login) := by decide +kernel
  have hturn : ¬ GatewayEvent.Of who browser turn := by decide +kernel
  refine client_isolated hS (fun c _ => hlinked c) ?_ (.inl rfl) ?_ ?_ ?_
  · intro i p hp
    cases i with
    | zero =>
      obtain rfl := Option.some.inj hp
      exact ⟨rfl, hparty⟩
    | succ i => cases hp
  · have hcall : ∃ o ∈ ({browser, login} : Set Subscriber), turn.Of who o := ⟨login, .inr rfl, rfl⟩
    exact ⟨⟨⟨login, .inr rfl, hlogin⟩, by decide +kernel, rfl⟩, ⟨hcall, by decide +kernel, trivial⟩,
      ⟨hcall, by decide +kernel, trivial⟩, ⟨hcall, by decide +kernel, trivial⟩,
      ⟨⟨browser, .inl rfl, hbrowser⟩, by decide +kernel, rfl⟩, ⟨hcall, by decide +kernel, trivial⟩,
      trivial⟩
  · exact ⟨⟨⟨browser, .inl rfl, hbrowser⟩, by decide +kernel, rfl⟩, trivial⟩
  · simp [purge, hforeign, hbrowser, hturn]

end HawkGate
