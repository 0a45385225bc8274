-- SUMMARY: When the binding maps name the sender of the packet that was just seen, over runs with any senders and addresses.
import HawkGate.Lib.Binding
import HawkGate.System.Host

/-!
# Binding freshness

The binding step of ingress refreshes two tables on change, as in
`Lib/Binding.lean`. The forward entry is always fresh. The reverse entry is
fresh exactly if the sender arrived at its address with this packet, or nobody
else arrived there since it did; a login from the address is then credited to
the sender.
-/

namespace HawkGate

open Bytes HawkGate.Frame CString Transition

variable {ncpu : Nat}

/-! ## Sightings -/

/-- The sender and address of a packet that passes the binding step. -/
def HgMaps.sighting (s : HgMaps ncpu) : HostEvent ncpu → Option (HgMacKey × IpAddr)
  | .ingress _ skb =>
    match filterProto skb.data with
    | .l3Ok _ =>
      if (s.bypass.lookup (saddr skb.data)).isSome then none
      else some (hSource skb.data, saddr skb.data)
    | _ => none
  | .egress _ _ | .add _ _ | .del _ _ | .mapDel _ _ => none

/-- The binding maps as tables. -/
def HgMaps.bindings (s : HgMaps ncpu) : Binding.Tables HgMacKey IpAddr :=
  ⟨s.macIp.lookup, s.ipMac.lookup⟩

/-- The binding writes of this event succeed, if it makes any. -/
def BindingsWritable (s : HgMaps ncpu) : HostEvent ncpu → Prop
  | .ingress env skb =>
    s.macIp.lookup (hSource skb.data) ≠ some (saddr skb.data) →
      (env.updateMacIp = true ∧ s.macIp.HasRoom (hSource skb.data)) ∧
        (env.updateIpMac = true ∧ s.ipMac.HasRoom (saddr skb.data))
  | .egress _ _ | .add _ _ | .del _ _ | .mapDel _ _ => True

/-- A host with the sightings so far, newest first. -/
structure BindingHost (ncpu : Nat) where
  maps : HgMaps ncpu
  seen : List (HgMacKey × IpAddr)

def BindingHost.step (st : BindingHost ncpu) (e : HostEvent ncpu) : BindingHost ncpu where
  maps := st.maps.step e
  seen := (st.maps.sighting e).toList ++ st.seen

/-- An add that is given only the address `ip` installs a session for `m`, if it installs one. -/
def LoginCredits (s : HgMaps ncpu) (ip : IpAddr) (m : HgMacKey) : Prop :=
  ∀ (env : SysEnv) (opts : List AddOpt) (a : AddArgs), parseAdd opts = some a → a.mac = none →
    a.ip.bind inetPton = some ip →
      ∀ k x client rate rateOk, addEffect env s opts = .installed k x client rate rateOk → k = m

/-- Once a packet has passed the binding step, both maps name its sender and address, and a
    login from the address is credited to the sender. -/
def BindingFresh (st : BindingHost ncpu) (e : HostEvent ncpu) : Prop :=
  ∀ o ∈ st.maps.sighting e,
    (st.step e).maps.macIp.lookup o.1 = some o.2 ∧ (st.step e).maps.ipMac.lookup o.2 = some o.1 ∧
      LoginCredits (st.step e).maps o.2 o.1

/-- The sender of the packet arrives at its address, or arrived there last. -/
def AddressHeld (st : BindingHost ncpu) (e : HostEvent ncpu) : Prop :=
  ∀ o ∈ st.maps.sighting e, Binding.Holds st.seen o.1 o.2

/-! ## The binding step refines the tables -/

theorem bindings_bindClient {s : HgMaps ncpu} {env : BpfEnv ncpu} {m : HgMacKey} {ip : IpAddr}
    (hwrite : s.macIp.lookup m ≠ some ip →
      (env.updateMacIp = true ∧ s.macIp.HasRoom m) ∧
        (env.updateIpMac = true ∧ s.ipMac.HasRoom ip)) :
    (s.bindClient env m ip).bindings = s.bindings.observe m ip := by
  have hfwd : s.bindings.fwd m = s.macIp.lookup m := rfl
  rw [HgMaps.bindClient, Binding.Tables.observe, hfwd]
  by_cases h : s.macIp.lookup m = some ip
  · rw [if_pos h, if_pos h]
  · obtain ⟨⟨hmac, hmacRoom⟩, hip, hipRoom⟩ := hwrite h
    rw [if_neg h, if_neg h, HgMaps.bindings, hmac, hip]
    simp only [if_true, HgMaps.bindings]
    congr 1
    · funext k
      simp [BoundedMap.lookup_put, hmacRoom, Function.update_apply]
    · funext a
      simp [BoundedMap.lookup_put, hipRoom, Function.update_apply]

/-- An event observes its sighting, if it has one, and changes no binding otherwise. -/
theorem bindings_step {s : HgMaps ncpu} {e : HostEvent ncpu} (hwrite : BindingsWritable s e) :
    (s.step e).bindings =
      (s.sighting e).elim s.bindings fun o => s.bindings.observe o.1 o.2 := by
  cases e with
  | ingress env skb =>
    have hmaps : (s.step (.ingress env skb)).bindings = (s.bindFrame env skb.data).bindings := by
      rw [HgMaps.step, HgMaps.bindings, macIp_hgTcIngress, ipMac_hgTcIngress, HgMaps.bindings]
    rw [hmaps, HgMaps.bindFrame, HgMaps.sighting]
    cases filterProto skb.data with
    | l2Only p => rfl
    | invalid => rfl
    | l3Ok key =>
      dsimp only
      split
      · rfl
      · exact bindings_bindClient hwrite
  | egress env skb =>
    rw [HgMaps.step, HgMaps.bindings, macIp_hgTcEgress, ipMac_hgTcEgress]
    rfl
  | add env opts =>
    rw [HgMaps.step_add]
    cases addEffect env s opts <;> rfl
  | del env opts =>
    rw [HgMaps.step_del]
    cases delVictim s env opts <;> rfl
  | mapDel env opts =>
    rw [HgMaps.step_mapDel]
    rfl

/-- The maps hold what the sightings leave in the tables. -/
def BindingHost.Replays (st : BindingHost ncpu) : Prop :=
  st.maps.bindings = Binding.replay st.seen

theorem BindingHost.Replays.step {st : BindingHost ncpu} (h : st.Replays) {e : HostEvent ncpu}
    (hwrite : BindingsWritable st.maps e) : (st.step e).Replays := by
  have hb := bindings_step hwrite
  rw [h] at hb
  rw [BindingHost.Replays, BindingHost.step]
  cases hsight : st.maps.sighting e with
  | none =>
    rw [hsight] at hb
    exact hb
  | some o =>
    rw [hsight] at hb
    exact hb

/-! ## Logins -/

/-- An add by address takes the MAC from the reverse map. -/
theorem loginCredits_of_bound {s : HgMaps ncpu} {ip : IpAddr} {m : HgMacKey}
    (h : s.ipMac.lookup ip = some m) : LoginCredits s ip m := by
  intro env opts a ha hmac hip k x client rate rateOk heff
  obtain ⟨a', ha', htarget, -⟩ := addEffect_installed heff
  obtain rfl := Option.some.inj (ha.symm.trans ha')
  obtain ⟨text, htext, hparse⟩ := Option.bind_eq_some_iff.mp hip
  rw [hmac, htext, addTargetOf, hparse, Option.bind_some] at htarget
  split at htarget
  · rw [h] at htarget
    exact (Prod.mk.inj (Option.some.inj htarget)).1.symm
  · cases htarget

/-! ## Runs -/

theorem bindingFresh_iff_addressHeld {st : BindingHost ncpu} (h : st.Replays) {e : HostEvent ncpu}
    (hwrite : BindingsWritable st.maps e) : BindingFresh st e ↔ AddressHeld st e := by
  refine forall_congr' fun o => forall_congr' fun hsight => ?_
  obtain ⟨m, ip⟩ := o
  have hb := bindings_step hwrite
  rw [Option.mem_def.mp hsight, h] at hb
  have hfwd : (st.step e).maps.macIp.lookup m = some ip := by
    have hm := congrFun (congrArg Binding.Tables.fwd hb) m
    rw [Option.elim_some, Binding.observe_fwd, if_pos rfl] at hm
    exact hm
  have hrev : (st.step e).maps.ipMac.lookup ip = some m ↔ Binding.Holds st.seen m ip := by
    have hi : (st.step e).maps.ipMac.lookup ip =
        ((Binding.replay st.seen).observe m ip).rev ip :=
      congrFun (congrArg Binding.Tables.rev hb) ip
    rw [hi, Binding.observe_rev_self_iff]
  constructor
  · intro hfresh
    exact hrev.mp hfresh.2.1
  · intro hheld
    have hbound := hrev.mpr hheld
    exact ⟨hfwd, hbound, loginCredits_of_bound hbound⟩

/-- From empty binding maps, with binding writes that succeed, both maps name the sender of
    every packet just seen exactly when each sender arrives at its address with the packet
    or arrived there last. -/
theorem binding_fresh_iff {st : BindingHost ncpu} (hmac : ∀ m, st.maps.macIp.lookup m = none)
    (hip : ∀ a, st.maps.ipMac.lookup a = none) (hseen : st.seen = [])
    {es : List (HostEvent ncpu)}
    (hwrite : Always BindingHost.step (fun st e => BindingsWritable st.maps e) st es) :
    Always BindingHost.step BindingFresh st es ↔ Always BindingHost.step AddressHeld st es := by
  have hinit : st.Replays := by
    rw [BindingHost.Replays, hseen, HgMaps.bindings, Binding.replay, Binding.Tables.empty]
    congr 1
    · exact funext hmac
    · exact funext hip
  exact always_congr (fun st e h hw => h.step hw) (fun st e h hw => bindingFresh_iff_addressHeld h hw)
    hinit hwrite

/-- An upload of a client, as far as the binding step is concerned. -/
def uploadOf (m : HgMacKey) (ip : IpAddr) : HostEvent 1 :=
  .ingress (.good ⟨0, Nat.one_pos⟩ 0)
    ⟨tcpFrame m ip (addrOfOctets 93 184 216 34) 40000 443, 54⟩

/-- Two clients that take turns at different addresses are bound freshly. -/
theorem binding_fresh_two_addresses :
    let es := [uploadOf (localMac 1) (addrOfOctets 192 168 99 82),
      uploadOf (localMac 2) (addrOfOctets 192 168 99 83),
      uploadOf (localMac 1) (addrOfOctets 192 168 99 82)]
    Always BindingHost.step BindingFresh ⟨.start 1 .standard 0, []⟩ es := by
  intro es
  have hwrite : Always BindingHost.step (fun st e => BindingsWritable st.maps e)
      ⟨.start 1 .standard 0, []⟩ es :=
    ⟨fun _ => by decide +kernel, fun _ => by decide +kernel, fun _ => by decide +kernel, trivial⟩
  exact (binding_fresh_iff (fun _ => rfl) (fun _ => rfl) rfl hwrite).mpr
    ⟨by unfold AddressHeld; decide +kernel, by unfold AddressHeld; decide +kernel,
      by unfold AddressHeld; decide +kernel, trivial⟩

/-- A client that shares its address with another keeps sending, and the address stays
    bound to the other. -/
theorem binding_stale_after_conflict :
    ¬ Always BindingHost.step BindingFresh ⟨.start 1 .standard 0, []⟩
      [uploadOf (localMac 1) (addrOfOctets 192 168 99 82),
        uploadOf (localMac 2) (addrOfOctets 192 168 99 82),
        uploadOf (localMac 1) (addrOfOctets 192 168 99 82)] := by
  intro h
  have hrev := (h.2.2.1 (localMac 1, addrOfOctets 192 168 99 82)
    (by decide +kernel)).2.1
  exact absurd hrev (by decide +kernel)

end HawkGate
