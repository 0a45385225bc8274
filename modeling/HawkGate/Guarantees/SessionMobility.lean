-- SUMMARY: Whether a session follows its client to another address: exactly as far as the address has a counter.
import HawkGate.System.Host

/-!
# Session mobility

Sessions are keyed by MAC, but both hooks drop an authenticated packet whose
address has no counter, and only an add creates counters. A live session
therefore forwards exactly the packets whose address was provisioned.
-/

namespace HawkGate

open Bytes HawkGate.Frame Transition

variable {ncpu : Nat}

/-- Shaping drops an upload of the client because it would leave too far in the future. -/
def UploadHorizonExceeded (env : BpfEnv ncpu) (s : HgMaps ncpu) (len : UInt32) (auth : HgClient) :
    Prop :=
  (applyEdtShaping s.rates env.edtKtimeNs len auth true).verdict = .shot

/-- Egress passes a packet and accounts for it, as only its session stage does. -/
def AccountedDownload (env : BpfEnv ncpu) (s : HgMaps ncpu) (skb : SkBuff) : Prop :=
  (hgTcEgress env s skb).verdict = .ok ∧ (hgTcEgress env s skb).maps.traffic ≠ s.traffic

/-- The packets of a client with a live session are forwarded: uploads from any address
    that is not bypassed to anything but the portal, unless they exceed the horizon, and
    downloads to the address that the client is bound to. -/
def SessionFollows (s : HgMaps ncpu) : HostEvent ncpu → Prop
  | .ingress env skb =>
    ∀ auth, s.clients.lookup (hSource skb.data) = some auth → ¬ auth.Expired env.ktimeNs →
      (∃ key, filterProto skb.data = .l3Ok key) → s.bypass.lookup (saddr skb.data) = none →
        s.toPortal skb.data = none → ¬ UploadHorizonExceeded env s skb.len auth →
          (hgTcIngress env s skb).verdict ≠ .shot
  | .egress env skb =>
    ∀ m auth, s.macIp.lookup m = some (daddr skb.data) → s.clients.lookup m = some auth →
      ¬ auth.Expired env.ktimeNs → (∃ key, filterProto skb.data = .l3Ok key) →
        AccountedDownload env s skb
  | .add _ _ | .del _ _ | .mapDel _ _ => True

/-- The address of every such upload has a counter. The address of every such download has
    a counter and is bound, in the reverse map too, to a client; the download comes from
    elsewhere than the portal and goes to no bypassed address. -/
def SessionProvisioned (s : HgMaps ncpu) : HostEvent ncpu → Prop
  | .ingress env skb =>
    ∀ auth, s.clients.lookup (hSource skb.data) = some auth → ¬ auth.Expired env.ktimeNs →
      (∃ key, filterProto skb.data = .l3Ok key) → s.bypass.lookup (saddr skb.data) = none →
        s.toPortal skb.data = none → ¬ UploadHorizonExceeded env s skb.len auth →
          (s.counters.lookup (saddr skb.data)).isSome = true
  | .egress env skb =>
    ∀ m auth, s.macIp.lookup m = some (daddr skb.data) → s.clients.lookup m = some auth →
      ¬ auth.Expired env.ktimeNs → (∃ key, filterProto skb.data = .l3Ok key) →
        ReachesEgressSession s skb.data ∧ (s.sessionOf (daddr skb.data)).isSome = true ∧
          (s.counters.lookup (daddr skb.data)).isSome = true
  | .add _ _ | .del _ _ | .mapDel _ _ => True

/-! ## One packet -/

section
variable {env : BpfEnv ncpu} {s : HgMaps ncpu} {skb : SkBuff} {auth : HgClient}

/-- A live session forwards an upload within the horizon exactly if its address has a counter. -/
theorem ingressSession_forwards_iff {m : HgMacKey} {ip : IpAddr}
    (hlive : ¬ auth.Expired env.ktimeNs) (hhorizon : ¬ UploadHorizonExceeded env s skb.len auth) :
    (ingressSession env s skb m ip auth).verdict ≠ .shot ↔
      (s.counters.lookup ip).isSome = true := by
  have hcounters : ∀ cs, (s.writeClient m cs).counters = s.counters := fun _ => rfl
  have hpass : ¬ (applyEdtShaping s.rates env.edtKtimeNs skb.len auth true).verdict = .shot :=
    hhorizon
  rw [ingressSession, if_neg hlive]
  simp only [hpass, if_false, hcounters]
  cases s.counters.lookup ip with
  | none => simp
  | some c =>
    simp only [Option.isNone_some, Bool.false_eq_true, if_false, Option.isSome_some, iff_true,
      HgMaps.uploadVerdict]
    split
    · split
      · exact TcAct.noConfusion
      · exact TcAct.noConfusion
    · exact TcAct.noConfusion

theorem ingressSession_horizon {m : HgMacKey} {ip : IpAddr} (hlive : ¬ auth.Expired env.ktimeNs)
    (hhorizon : UploadHorizonExceeded env s skb.len auth) :
    (ingressSession env s skb m ip auth).verdict = .shot := by
  have hshot : (applyEdtShaping s.rates env.edtKtimeNs skb.len auth true).verdict = .shot :=
    hhorizon
  rw [ingressSession, if_neg hlive]
  simp only [hshot, if_true]

/-- The session stage of egress forwards exactly the packets whose address has a counter. -/
theorem egressSession_forwards_iff {m : HgMacKey} {ip : IpAddr} :
    (egressSession env s skb m ip auth).verdict ≠ .shot ↔
      (s.counters.lookup ip).isSome = true := by
  have hok := applyEdtShaping_download_ok s.rates env.edtKtimeNs skb.len auth
  have hcounters : ∀ cs, (s.writeClient m cs).counters = s.counters := fun _ => rfl
  rw [egressSession]
  simp only [hok, reduceCtorEq, if_false, hcounters]
  cases s.counters.lookup ip with
  | none => simp
  | some c => simp

/-- Egress accounts for exactly the packets that reach its session stage with a client and
    a counter. -/
theorem accountedDownload_iff :
    AccountedDownload env s skb ↔
      ReachesEgressSession s skb.data ∧ (s.sessionOf (daddr skb.data)).isSome = true ∧
        (s.counters.lookup (daddr skb.data)).isSome = true := by
  by_cases hreach : ReachesEgressSession s skb.data ∧ (s.sessionOf (daddr skb.data)).isSome = true
  · obtain ⟨hreach, hof⟩ := hreach
    obtain ⟨⟨m, auth⟩, hma⟩ := Option.isSome_iff_exists.mp hof
    obtain ⟨m', hbound, hm⟩ := Option.bind_eq_some_iff.mp hma
    obtain ⟨auth', hauth, heq⟩ := Option.map_eq_some_iff.mp hm
    obtain ⟨rfl, rfl⟩ := Prod.mk.inj heq
    have hreach' := hreach
    obtain ⟨⟨key, hkey⟩, hsrc, hdst⟩ := hreach'
    have hok := applyEdtShaping_download_ok s.rates env.edtKtimeNs skb.len auth'
    have hcounters : ∀ cs, (s.writeClient m' cs).counters = s.counters := fun _ => rfl
    rw [AccountedDownload, hgTcEgress_session hkey hsrc hdst hbound hauth, egressSession]
    simp only [hok, reduceCtorEq, if_false, hcounters]
    cases hc : s.counters.lookup (daddr skb.data) with
    | none => simp
    | some c =>
      have hc' : (s.writeClient m'
          (applyEdtShaping s.rates env.edtKtimeNs skb.len auth' false).client).counters.lookup
            (daddr skb.data) = some c := hc
      exact iff_of_true ⟨rfl, HgMaps.traffic_countDownload_ne hc' env.cpu skb.len⟩
        ⟨hreach, hof, rfl⟩
  · refine iff_of_false ?_ fun h => hreach ⟨h.1, h.2.1⟩
    rintro ⟨-, htraffic⟩
    have hstep := hgTcEgress_step env s skb
    generalize hgTcEgress env s skb = r at hstep htraffic
    cases hstep with
    | noSession _ hstamp hmaps => exact htraffic (by rw [hmaps])
    | session key m auth hkey hsrc hdst hbound hauth =>
      refine hreach ⟨⟨⟨key, hkey⟩, hsrc, hdst⟩, ?_⟩
      simp [HgMaps.sessionOf, hbound, hauth]

end

/-! ## Runs -/

theorem sessionFollows_iff_sessionProvisioned (s : HgMaps ncpu) (e : HostEvent ncpu) :
    SessionFollows s e ↔ SessionProvisioned s e := by
  cases e with
  | ingress env skb =>
    refine forall_congr' fun auth => forall_congr' fun hauth => forall_congr' fun hlive =>
      forall_congr' fun hl3 => forall_congr' fun hsrc => forall_congr' fun hdst =>
      forall_congr' fun hhorizon => ?_
    obtain ⟨key, hkey⟩ := hl3
    have hhorizon' : ¬ UploadHorizonExceeded env
        (s.bindClient env (hSource skb.data) (saddr skb.data)) skb.len auth := by
      rw [UploadHorizonExceeded, HgMaps.bindClient_rates]
      exact hhorizon
    rw [hgTcIngress_session hkey hsrc hdst hauth, ingressSession_forwards_iff hlive hhorizon',
      HgMaps.bindClient_counters]
  | egress env skb =>
    refine forall_congr' fun m => forall_congr' fun auth => forall_congr' fun hbound =>
      forall_congr' fun hauth => forall_congr' fun hlive => forall_congr' fun hl3 => ?_
    exact accountedDownload_iff
  | add env opts => exact Iff.rfl
  | del env opts => exact Iff.rfl
  | mapDel env opts => exact Iff.rfl

/-- Over any run, every packet of a live session is forwarded exactly when every such packet
    finds a counter for its address, and every download the reverse binding as well. -/
theorem session_follows_iff (s : HgMaps ncpu) (es : List (HostEvent ncpu)) :
    Always HgMaps.step SessionFollows s es ↔ Always HgMaps.step SessionProvisioned s es :=
  always_iff sessionFollows_iff_sessionProvisioned s es

/-- A client that was added at one address is dropped at its next one. -/
theorem session_lost_after_roaming :
    let m := "02:00:00:00:00:01".toList
    let peer := addrOfOctets 93 184 216 34
    ¬ Always HgMaps.step SessionFollows (.start 1 .standard 0)
      [.ingress (.good 0 0)
          ⟨tcpFrame (localMac 1) (addrOfOctets 192 168 99 82) peer 40000 443, 54⟩,
        .add (.good ⟨0, 0⟩) [.iface "br0".toList, .mac m],
        .ingress (.good 0 1)
          ⟨tcpFrame (localMac 1) (addrOfOctets 192 168 99 83) peer 40000 443, 54⟩] := by
  intro m peer h
  have hforward := h.2.2.1 ⟨0, 0, 0, 0, 0, 0⟩ (by decide +kernel) (by decide +kernel)
    ⟨⟨6, 40000, 443⟩, by decide +kernel⟩ (by decide +kernel) (by decide +kernel)
    (by unfold UploadHorizonExceeded; decide +kernel)
  exact hforward (by decide +kernel)

end HawkGate
