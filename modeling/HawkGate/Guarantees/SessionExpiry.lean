-- SUMMARY: Which packets of a run still benefit from a session that has run out: ingress never, egress unless unlimited and uncounted.
import HawkGate.System.Host

/-!
# Session expiry

Ingress checks the expiry of a session before it uses it; egress does not. The
guarantee that a dead session forwards nothing therefore holds for every upload,
and for exactly those downloads that never reach the session stage or find
neither a rate nor a counter there.
-/

namespace HawkGate

open Bytes HawkGate.Frame Transition

variable {ncpu : Nat}

/-! ## The guarantee -/

/-- The maps without the entry of a client. -/
def HgMaps.without (s : HgMaps ncpu) (m : HgMacKey) : HgMaps ncpu :=
  { s with clients := s.clients.erase m }

/-- A packet got nothing from a session: no departure stamp, no accounting, and a pass only
    where the result `r₀` without the session is one. -/
structure PassedOver (s : HgMaps ncpu) (r r₀ : TcResult ncpu) : Prop where
  stamp : r.stamp = none
  traffic : r.maps.traffic = s.traffic
  verdict : r.verdict = .shot ∨ r.verdict = r₀.verdict

/-- No packet of this event is forwarded by a session that has run out. -/
def ExpiryHonoured (s : HgMaps ncpu) : HostEvent ncpu → Prop
  | .ingress env skb =>
    ∀ auth, s.clients.lookup (hSource skb.data) = some auth → auth.Expired env.ktimeNs →
      PassedOver s (hgTcIngress env s skb) (hgTcIngress env (s.without (hSource skb.data)) skb)
  | .egress env skb =>
    ∀ m auth, s.ipMac.lookup (daddr skb.data) = some m → s.clients.lookup m = some auth →
      auth.Expired env.ktimeNs →
        PassedOver s (hgTcEgress env s skb) (hgTcEgress env (s.without m) skb)
  | .add _ _ | .del _ _ | .mapDel _ _ => True

/-- The download rate of a client in bytes/s; 0 is unlimited. -/
def HgMaps.downloadRate (s : HgMaps ncpu) (cs : HgClient) : UInt64 :=
  (s.rates.lookup cs.rateLimitId).elim 0 HgRateCfg.rateBpsD

/-- No download for a session that has run out reaches the session stage, except where the
    client has no download rate and its address no counter. -/
def ExpirySafe (s : HgMaps ncpu) : HostEvent ncpu → Prop
  | .egress env skb =>
    ∀ m auth, s.ipMac.lookup (daddr skb.data) = some m → s.clients.lookup m = some auth →
      auth.Expired env.ktimeNs → ReachesEgressSession s skb.data →
        s.downloadRate auth = 0 ∧ s.counters.lookup (daddr skb.data) = none
  | .ingress _ _ | .add _ _ | .del _ _ | .mapDel _ _ => True

/-! ## Ingress -/

/-- Uploads never benefit from a session that has run out. -/
theorem hgTcIngress_passedOver {env : BpfEnv ncpu} {s : HgMaps ncpu} {skb : SkBuff}
    {auth : HgClient} (hauth : s.clients.lookup (hSource skb.data) = some auth)
    (hexp : auth.Expired env.ktimeNs) :
    PassedOver s (hgTcIngress env s skb)
      (hgTcIngress env (s.without (hSource skb.data)) skb) := by
  cases h : filterProto skb.data with
  | l2Only p =>
    rw [hgTcIngress, hgTcIngress, h]
    exact ⟨rfl, rfl, Or.inr rfl⟩
  | invalid =>
    rw [hgTcIngress, hgTcIngress, h]
    exact ⟨rfl, rfl, Or.inr rfl⟩
  | l3Ok key =>
    cases hsrc : s.bypass.lookup (saddr skb.data) with
    | some b =>
      rw [hgTcIngress, hgTcIngress, h]
      simp only [HgMaps.without, hsrc, Option.isSome_some, if_true]
      exact ⟨rfl, rfl, Or.inr rfl⟩
    | none =>
      cases hdst : s.toPortal skb.data with
      | some cfg =>
        have hsrc' : (s.without (hSource skb.data)).bypass.lookup (saddr skb.data) = none := hsrc
        have hdst' : (s.without (hSource skb.data)).toPortal skb.data = some cfg := hdst
        rw [hgTcIngress_l3Ok h hsrc, hgTcIngress_l3Ok h hsrc', ingressPolicy, ingressPolicy,
          HgMaps.bindClient_toPortal, HgMaps.bindClient_toPortal, hdst, hdst']
        simp only [portalGate]
        split
        · exact ⟨rfl, traffic_bindClient s env _ _, Or.inr rfl⟩
        · exact ⟨rfl, traffic_bindClient s env _ _, Or.inl rfl⟩
      | none =>
        rw [hgTcIngress_session h hsrc hdst hauth, ingressSession, if_pos hexp]
        refine ⟨rfl, ?_, Or.inl rfl⟩
        exact (traffic_expireClient _ env _ _).trans (traffic_bindClient s env _ _)

/-! ## Egress -/

/-- The session stage gives nothing exactly when the client has neither a download rate
    nor a counter. -/
theorem egressSession_passedOver_iff (env : BpfEnv ncpu) (s : HgMaps ncpu) (skb : SkBuff)
    (m : HgMacKey) (ip : IpAddr) (auth : HgClient) (r₀ : TcResult ncpu) :
    PassedOver s (egressSession env s skb m ip auth) r₀ ↔
      s.downloadRate auth = 0 ∧ s.counters.lookup ip = none := by
  have hok := applyEdtShaping_download_ok s.rates env.edtKtimeNs skb.len auth
  have hstamp := applyEdtShaping_download_stamp s.rates env.edtKtimeNs skb.len auth
  have hcounters : ∀ cs, (s.writeClient m cs).counters = s.counters := fun _ => rfl
  rw [egressSession]
  simp only [hok, reduceCtorEq, if_false, hcounters]
  cases hc : s.counters.lookup ip with
  | none =>
    simp only [Option.isNone_none, if_true, and_true]
    constructor
    · intro hpass
      exact hstamp.mp hpass.stamp
    · intro hrate
      exact ⟨hstamp.mpr hrate, rfl, Or.inl rfl⟩
  | some c =>
    refine iff_of_false (fun hpass => ?_) (by simp)
    have hc' : (s.writeClient m
        (applyEdtShaping s.rates env.edtKtimeNs skb.len auth false).client).counters.lookup ip =
        some c := hc
    exact HgMaps.traffic_countDownload_ne hc' env.cpu skb.len hpass.traffic

theorem snatFromConntrack_verdict_without (env : BpfEnv ncpu) (s : HgMaps ncpu) (m : HgMacKey)
    (d : Bytes) : (snatFromConntrack env (s.without m) d).verdict =
      (snatFromConntrack env s d).verdict := by
  obtain ⟨v, d', hrun⟩ := exists_snat env d (s.conntrack.lookup (ctReplyKeyOf d))
  rw [hrun (s.without m) rfl, hrun s rfl]

/-- A download that does not reach the session stage gets nothing from a session. -/
theorem hgTcEgress_passedOver_of_not_reaches {env : BpfEnv ncpu} {s : HgMaps ncpu} {skb : SkBuff}
    (m : HgMacKey) (hreach : ¬ ReachesEgressSession s skb.data) :
    PassedOver s (hgTcEgress env s skb) (hgTcEgress env (s.without m) skb) := by
  cases h : filterProto skb.data with
  | l2Only p =>
    rw [hgTcEgress, hgTcEgress, h]
    exact ⟨rfl, rfl, Or.inr rfl⟩
  | invalid =>
    rw [hgTcEgress, hgTcEgress, h]
    exact ⟨rfl, rfl, Or.inr rfl⟩
  | l3Ok key =>
    cases hsrc : s.fromPortal skb.data with
    | true =>
      have hsrc' : (s.without m).fromPortal skb.data = true := hsrc
      obtain ⟨hstamp, hmaps⟩ := snatFromConntrack_maps env s skb.data
      rw [hgTcEgress, hgTcEgress, h]
      simp only [hsrc, hsrc', if_true]
      exact ⟨hstamp, by rw [hmaps], Or.inr (snatFromConntrack_verdict_without env s m _).symm⟩
    | false =>
      have hsrc' : (s.without m).fromPortal skb.data = false := hsrc
      cases hdst : s.bypass.lookup (daddr skb.data) with
      | some b =>
        have hdst' : (s.without m).bypass.lookup (daddr skb.data) = some b := hdst
        rw [hgTcEgress, hgTcEgress, h]
        simp only [hsrc, hsrc', egressPolicy, hdst, hdst', Option.isSome_some, if_true]
        exact ⟨rfl, rfl, Or.inr rfl⟩
      | none => exact absurd ⟨⟨key, h⟩, hsrc, hdst⟩ hreach

/-! ## Runs -/

theorem expiryHonoured_iff_expirySafe (s : HgMaps ncpu) (e : HostEvent ncpu) :
    ExpiryHonoured s e ↔ ExpirySafe s e := by
  cases e with
  | ingress env skb => exact iff_of_true (fun auth => hgTcIngress_passedOver) trivial
  | egress env skb =>
    have hpacket : ∀ m auth, s.ipMac.lookup (daddr skb.data) = some m →
        s.clients.lookup m = some auth →
        (PassedOver s (hgTcEgress env s skb) (hgTcEgress env (s.without m) skb) ↔
          (ReachesEgressSession s skb.data →
            s.downloadRate auth = 0 ∧ s.counters.lookup (daddr skb.data) = none)) := by
      intro m auth hbound hauth
      by_cases hreach : ReachesEgressSession s skb.data
      · obtain ⟨⟨key, hkey⟩, hsrc, hdst⟩ := hreach
        rw [hgTcEgress_session hkey hsrc hdst hbound hauth, egressSession_passedOver_iff]
        exact ⟨fun h _ => h, fun h => h ⟨⟨key, hkey⟩, hsrc, hdst⟩⟩
      · exact iff_of_true (hgTcEgress_passedOver_of_not_reaches m hreach)
          fun h => absurd h hreach
    constructor
    · intro h m auth hbound hauth hexp
      exact (hpacket m auth hbound hauth).mp (h m auth hbound hauth hexp)
    · intro h m auth hbound hauth hexp
      exact (hpacket m auth hbound hauth).mpr (h m auth hbound hauth hexp)
  | add env opts => exact Iff.rfl
  | del env opts => exact Iff.rfl
  | mapDel env opts => exact Iff.rfl

/-- Over any run, no packet is forwarded by a session that has run out exactly when no
    download for such a session reaches the session stage with a rate or a counter. -/
theorem expiry_honoured_iff (s : HgMaps ncpu) (es : List (HostEvent ncpu)) :
    Always HgMaps.step ExpiryHonoured s es ↔ Always HgMaps.step ExpirySafe s es :=
  always_iff expiryHonoured_iff_expirySafe s es

/-- A session of one second still shapes and counts a download two seconds later. -/
theorem expiry_ignored_by_download :
    let m := "02:00:00:00:00:01".toList
    let ip := addrOfOctets 192 168 99 82
    let peer := addrOfOctets 93 184 216 34
    ¬ Always HgMaps.step ExpiryHonoured (.start 1 .standard 0)
      [.ingress (.good 0 0) ⟨tcpFrame (localMac 1) ip peer 40000 443, 54⟩,
        .add (.good ⟨0, 0⟩) [.iface "br0".toList, .mac m, .expire "1".toList,
          .downloadRate "8000".toList, .uploadRate "8000".toList],
        .egress (.good 0 2000000000) ⟨tcpFrame (localMac 9) peer ip 443 40000, 54⟩] := by
  intro m ip peer h
  have hpass := h.2.2.1 (localMac 1) ⟨1000000000, 0, 0, 1, 0, 0⟩ (by decide +kernel)
    (by decide +kernel) (by decide +kernel)
  exact absurd hpass.stamp (by decide +kernel)

end HawkGate
