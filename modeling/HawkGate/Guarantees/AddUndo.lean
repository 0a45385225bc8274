-- SUMMARY: What is left of an add: after it fails, and after packets and a del of the same client.
import HawkGate.System.Host

/-!
# Undoing an add

An add that fails half-way takes its client entry back by deleting it, so that a
session that was there before is lost. A del looks the address of the counter up
again, so that it finds the counter of the add only if the client is still bound
to the address of the add.
-/

namespace HawkGate

open Bytes CString HawkGate.Frame Transition

variable {ncpu : Nat}

/-! ## Failed adds -/

/-- If the add fails, sessions, counters and profiles are as before. -/
def FailedAddHarmless (s : HgMaps ncpu) (env : SysEnv) (a : AddArgs) : Prop :=
  ((addAction a).run env s).1 = .failed →
    ((addAction a).run env s).2.clients = s.clients ∧
      ((addAction a).run env s).2.counters = s.counters ∧
        ((addAction a).run env s).2.rates = s.rates

/-- The client entry is written, and then the allocation or the counter insert fails. -/
def FailsBehindClient (s : HgMaps ncpu) (env : SysEnv) (m : HgMacKey) (ip : IpAddr) : Prop :=
  env.opensAll = true ∧ env.Accepts .hgClients s.clients m ∧
    ¬ (env.calloc = true ∧ env.Accepts .hgCounters s.counters ip)

theorem addActionEffect_eq_rolledBack_iff (s : HgMaps ncpu) (env : SysEnv) (a : AddArgs)
    (m : HgMacKey) :
    addActionEffect env s a = .rolledBack m ↔
      ∃ ip, addTargetOf env s a.mac a.ip = some (m, ip) ∧ FailsBehindClient s env m ip := by
  unfold addActionEffect FailsBehindClient
  cases addTargetOf env s a.mac a.ip with
  | none => simp
  | some t =>
    obtain ⟨k, ip⟩ := t
    simp only [Option.some.injEq, Prod.mk.injEq]
    constructor
    · intro h
      split at h
      · next hopen =>
        unfold addWriteEffect at h
        split at h
        · next hclient =>
          split at h
          · cases h
          · next hlate =>
            obtain rfl := AddEffect.rolledBack.inj h
            exact ⟨ip, ⟨rfl, rfl⟩, hopen, hclient, hlate⟩
        · cases h
      · cases h
    · rintro ⟨ip', ⟨rfl, rfl⟩, hopen, hclient, hlate⟩
      rw [if_pos hopen, addWriteEffect, if_pos hclient, if_neg hlate]

/-- Erasing a key changes nothing exactly if the key is not there. -/
theorem erase_eq_self_iff {K V : Type} [DecidableEq K] {cap : Nat} (t : BoundedMap K V cap) (k : K) :
    t.erase k = t ↔ t.lookup k = none := by
  constructor
  · intro h
    rw [← h]
    exact BoundedMap.lookup_erase_self t k
  · exact BoundedMap.erase_of_lookup_none

/-- A failed add leaves no trace exactly if its client has no session whenever the add fails
    behind the client entry. -/
theorem failed_add_harmless_iff (s : HgMaps ncpu) (env : SysEnv) (a : AddArgs) :
    FailedAddHarmless s env a ↔
      ∀ m ip, addTargetOf env s a.mac a.ip = some (m, ip) → FailsBehindClient s env m ip →
        s.clients.lookup m = none := by
  have hrolled := addActionEffect_eq_rolledBack_iff s env a
  have hcond : (∀ m ip, addTargetOf env s a.mac a.ip = some (m, ip) → FailsBehindClient s env m ip →
      s.clients.lookup m = none) ↔
        ∀ m, addActionEffect env s a = .rolledBack m → s.clients.lookup m = none := by
    simp only [hrolled]
    constructor
    · rintro h m ⟨ip, ht, hf⟩
      exact h m ip ht hf
    · intro h m ip ht hf
      exact h m ⟨ip, ht, hf⟩
  rw [hcond, FailedAddHarmless, run_addAction]
  cases addActionEffect env s a with
  | refused => simp [HgMaps.afterAdd]
  | installed m ip client rate rateOk => simp [AddEffect.status]
  | rolledBack m =>
    simp only [AddEffect.status, HgMaps.afterAdd, true_implies, and_self, and_true,
      AddEffect.rolledBack.injEq, forall_eq']
    exact erase_eq_self_iff s.clients m

/-- A client with a session is added again and the allocation fails: the session is gone. -/
theorem failed_add_drops_session :
    ¬ FailedAddHarmless
      { HgMaps.start 1 .standard 0 with clients := BoundedMap.empty.put (localMac 1) ⟨0, 0, 5, 1, 5, 5⟩ }
      { SysEnv.good ⟨9, 0⟩ with calloc := false }
      ⟨some "02:00:00:00:00:01".toList, some "192.168.99.82".toList, 0, 0, 64, 64, 1⟩ := by
  intro h
  have hsession := congrArg (fun t => t.lookup (localMac 1)) (h (by decide +kernel)).1
  revert hsession
  decide +kernel

/-! ## Del after add -/

/-- The event is a packet. -/
def HostEvent.IsPacket : HostEvent ncpu → Prop
  | .ingress _ _ | .egress _ _ => True
  | .add _ _ | .del _ _ | .mapDel _ _ => False

/-- `s'` is `s` without the session of `m` and the counter of `ip`. -/
structure Removed (m : HgMacKey) (ip : IpAddr) (s s' : HgMaps ncpu) : Prop where
  session : s'.clients.lookup m = none
  counter : s'.counters.lookup ip = none
  otherSessions : ∀ k, k ≠ m → s'.clients.lookup k = s.clients.lookup k
  otherCounters : ∀ a, a ≠ ip → s'.counters.lookup a = s.counters.lookup a

/-- A successful add of a target installs it. -/
theorem addActionEffect_of_success {s : HgMaps ncpu} {env : SysEnv} {a : AddArgs} {m : HgMacKey}
    {ip : IpAddr} (htarget : addTargetOf env s a.mac a.ip = some (m, ip))
    (hadd : ((addAction a).run env s).1 = .success) :
    s.counters.HasRoom ip ∧ ∃ rateOk,
      addActionEffect env s a = .installed m ip (a.client env) a.rate rateOk := by
  rw [run_addAction] at hadd
  cases heff : addActionEffect env s a with
  | refused =>
    rw [heff] at hadd
    cases hadd
  | rolledBack k =>
    rw [heff] at hadd
    cases hadd
  | installed k addr client rate rateOk =>
    obtain ⟨hinstalls, rfl, rfl, -⟩ := addActionEffect_installed heff
    obtain ⟨rfl, rfl⟩ := Prod.mk.inj (Option.some.inj (hinstalls.target.symm.trans htarget))
    exact ⟨hinstalls.counter.2, rateOk, rfl⟩

/-- The add has created its counter. -/
theorem isSome_counters_of_success {s : HgMaps ncpu} {env : SysEnv} {a : AddArgs} {m : HgMacKey}
    {ip : IpAddr} (htarget : addTargetOf env s a.mac a.ip = some (m, ip))
    (hadd : ((addAction a).run env s).1 = .success) :
    (((addAction a).run env s).2.counters.lookup ip).isSome = true := by
  obtain ⟨hroom, rateOk, heff⟩ := addActionEffect_of_success htarget hadd
  rw [run_addAction, heff]
  simp [HgMaps.afterAdd, BoundedMap.lookup_put_self _ _ hroom]

/-- Packets neither create nor remove counters. -/
theorem isSome_counters_packets {s : HgMaps ncpu} {es : List (HostEvent ncpu)}
    (hes : ∀ e ∈ es, e.IsPacket) {ip : IpAddr} (h : (s.counters.lookup ip).isSome = true) :
    ((run HgMaps.step s es).counters.lookup ip).isSome = true := by
  have hstep : ∀ (t : HgMaps ncpu) (e : HostEvent ncpu), (t.counters.lookup ip).isSome = true →
      e.IsPacket → ((t.step e).counters.lookup ip).isSome = true := by
    intro t e ht he
    cases e with
    | ingress env skb => exact (isSome_counters_hgTcIngress env t skb ip).trans ht
    | egress env skb => exact (isSome_counters_hgTcEgress env t skb ip).trans ht
    | add env opts => exact he.elim
    | del env opts => exact he.elim
    | mapDel env opts => exact he.elim
  exact run_of_inv hstep h hes

/-- A del removes the counter of `ip` and no other one exactly if it finds `ip` as the binding. -/
theorem removed_afterDel_iff {s : HgMaps ncpu} {env : SysEnv} {m : HgMacKey} {ip : IpAddr}
    (hip : (s.counters.lookup ip).isSome = true) :
    Removed m ip s (s.afterDel env m) ↔
      env.objGet .hgMacIp = true ∧ s.macIp.lookup m = some ip := by
  constructor
  · intro h
    have hcounter := h.counter
    simp only [HgMaps.afterDel] at hcounter
    cases hbound : s.macIp.lookup m with
    | none =>
      rw [hbound] at hcounter
      simp only at hcounter
      simp [hcounter] at hip
    | some b =>
      rw [hbound] at hcounter
      simp only at hcounter
      by_cases hopen : env.objGet .hgMacIp = true
      · rw [if_pos hopen, BoundedMap.lookup_erase] at hcounter
        split at hcounter
        · next heq => exact ⟨hopen, by rw [heq]⟩
        · simp [hcounter] at hip
      · rw [if_neg hopen] at hcounter
        simp [hcounter] at hip
  · rintro ⟨hopen, hbound⟩
    have hcounters : (s.afterDel env m).counters = s.counters.erase ip := by
      simp only [HgMaps.afterDel, hbound, hopen, if_true]
    refine ⟨BoundedMap.lookup_erase_self _ _, ?_, fun k hk => ?_, fun a ha => ?_⟩
    · rw [hcounters, BoundedMap.lookup_erase_self]
    · rw [HgMaps.afterDel, BoundedMap.lookup_erase, if_neg hk]
    · rw [hcounters, BoundedMap.lookup_erase, if_neg ha]

/-- A del of `m` removes exactly its session and the counter of `ip` if and only if it can open the
    maps and `m` is bound to `ip`. -/
theorem removed_delAction_iff {s : HgMaps ncpu} (env : SysEnv) {m : HgMacKey} {ip : IpAddr}
    (hip : (s.counters.lookup ip).isSome = true) {mac : CString} (hmac : scanMacKey mac = some m) :
    Removed m ip s ((delAction mac).run env s).2 ↔
      env.opensBoth = true ∧ env.objGet .hgMacIp = true ∧ s.macIp.lookup m = some ip := by
  rw [run_delAction, hmac]
  dsimp only
  by_cases hopen : env.opensBoth = true
  · rw [if_pos hopen, removed_afterDel_iff hip]
    exact (and_iff_right hopen).symm
  · rw [if_neg hopen]
    refine iff_of_false (fun h => ?_) fun h => hopen h.1
    rw [h.counter] at hip
    cases hip

/-- After a successful add of `m` with counter `ip` and any packets, a del of `m` undoes the add
    exactly if it can open the maps and `m` is bound to `ip`. -/
theorem del_undoes_add_iff {s : HgMaps ncpu} {env env' : SysEnv} {a : AddArgs} {m : HgMacKey}
    {ip : IpAddr} (htarget : addTargetOf env s a.mac a.ip = some (m, ip))
    (hadd : ((addAction a).run env s).1 = .success) {es : List (HostEvent ncpu)}
    (hes : ∀ e ∈ es, e.IsPacket) {mac : CString} (hmac : scanMacKey mac = some m) :
    let s₂ := run HgMaps.step ((addAction a).run env s).2 es
    Removed m ip s₂ ((delAction mac).run env' s₂).2 ↔
      env'.opensBoth = true ∧ env'.objGet .hgMacIp = true ∧ s₂.macIp.lookup m = some ip :=
  removed_delAction_iff env'
    (isSome_counters_packets hes (isSome_counters_of_success htarget hadd)) hmac

/-- The first packet of client 1 at 192.168.99.82. -/
def homePacket : HostEvent 1 :=
  .ingress (.good ⟨0, Nat.one_pos⟩ 0)
    ⟨tcpFrame (localMac 1) (addrOfOctets 192 168 99 82) (addrOfOctets 93 184 216 34) 40000 443, 54⟩

/-- A packet of client 1 at 192.168.99.83. -/
def roamingPacket : HostEvent 1 :=
  .ingress (.good ⟨0, Nat.one_pos⟩ 0)
    ⟨tcpFrame (localMac 1) (addrOfOctets 192 168 99 83) (addrOfOctets 93 184 216 34) 40000 443, 54⟩

/-- The add of client 1 by its MAC. -/
def addClientOne : AddArgs := ⟨some "02:00:00:00:00:01".toList, none, 0, 0, 0, 0, 0⟩

/-- A client that stays at its address. -/
theorem del_undoes_add_in_place :
    let s := (HgMaps.start 1 .standard 0).step homePacket
    let s₂ := run HgMaps.step ((addAction addClientOne).run (.good ⟨1, 0⟩) s).2 [homePacket]
    Removed (localMac 1) (addrOfOctets 192 168 99 82) s₂
      ((delAction "02:00:00:00:00:01".toList).run (.good ⟨2, 0⟩) s₂).2 :=
  (del_undoes_add_iff (by decide +kernel) (by decide +kernel)
    (fun e he => by obtain rfl := List.mem_singleton.mp he; trivial) (by decide +kernel)).mpr
    ⟨by decide, by decide, by decide +kernel⟩

/-- The client moves to the address of client 2 between its add and its del: the del removes the
    counter of client 2, and the counter of the add stays. -/
theorem del_after_roaming :
    let s := (HgMaps.start 1 .standard 0).step homePacket
    let s₁ := ((addAction addClientOne).run (.good ⟨1, 0⟩)
      ((addAction ⟨some "02:00:00:00:00:02".toList, some "192.168.99.83".toList, 0, 0, 0, 0, 0⟩).run
        (.good ⟨1, 0⟩) s).2).2
    let s₂ := run HgMaps.step s₁ [roamingPacket]
    let s₃ := ((delAction "02:00:00:00:00:01".toList).run (.good ⟨2, 0⟩) s₂).2
    ¬ Removed (localMac 1) (addrOfOctets 192 168 99 82) s₂ s₃ ∧
      (s₂.counters.lookup (addrOfOctets 192 168 99 83)).isSome = true ∧
        s₃.counters.lookup (addrOfOctets 192 168 99 83) = none := by
  refine ⟨fun h => ?_, by decide +kernel, ?_⟩
  · have hcounter := congrArg Option.isSome h.counter
    revert hcounter
    decide +kernel
  · exact Option.isNone_iff_eq_none.mp (by decide +kernel)

/-! ## Clients that stay -/

/-- The event is a packet, and if it comes from `m` and reaches the binding step, its source is
    `ip`. -/
def HostEvent.IsPacketFrom (m : HgMacKey) (ip : IpAddr) : HostEvent ncpu → Prop
  | .ingress _ skb =>
    (∃ key, filterProto skb.data = .l3Ok key) → hSource skb.data = m → saddr skb.data = ip
  | .egress _ _ => True
  | .add _ _ | .del _ _ | .mapDel _ _ => False

/-- A frame of another client, or of `m` from its bound address, keeps the binding of `m`. -/
theorem lookup_macIp_bindFrame_keep {s : HgMaps ncpu} {env : BpfEnv ncpu} {d : Bytes}
    {m : HgMacKey} {ip : IpAddr} (hbound : s.macIp.lookup m = some ip)
    (hfrom : (∃ key, filterProto d = .l3Ok key) → hSource d = m → saddr d = ip) :
    (s.bindFrame env d).macIp.lookup m = some ip := by
  rw [HgMaps.bindFrame]
  split
  · next key hkey =>
    split
    · exact hbound
    · rw [HgMaps.bindClient]
      split
      · exact hbound
      · next hfwd =>
        have hne : ¬ m = hSource d := by
          intro h
          rw [← h, hbound, hfrom ⟨key, hkey⟩ h.symm] at hfwd
          exact hfwd rfl
        cases env.updateMacIp with
        | false => simpa using hbound
        | true => simpa [BoundedMap.lookup_put, hne] using hbound
  · exact hbound

/-- As long as `m` sends from the address it is bound to, the binding stays. -/
theorem lookup_macIp_packets {s : HgMaps ncpu} {m : HgMacKey} {ip : IpAddr}
    {es : List (HostEvent ncpu)} (hes : ∀ e ∈ es, e.IsPacketFrom m ip)
    (h : s.macIp.lookup m = some ip) : (run HgMaps.step s es).macIp.lookup m = some ip := by
  have hstep : ∀ (t : HgMaps ncpu) (e : HostEvent ncpu), t.macIp.lookup m = some ip →
      e.IsPacketFrom m ip → (t.step e).macIp.lookup m = some ip := by
    intro t e ht he
    cases e with
    | ingress env skb =>
      rw [HgMaps.step, macIp_hgTcIngress]
      exact lookup_macIp_bindFrame_keep ht he
    | egress env skb =>
      rw [HgMaps.step, macIp_hgTcEgress]
      exact ht
    | add env opts => exact he.elim
    | del env opts => exact he.elim
    | mapDel env opts => exact he.elim
  exact run_of_inv hstep h hes

/-- A client that is bound to the address of its add and sends from no other one until the del
    leaves nothing behind. -/
theorem del_undoes_add_steady {s : HgMaps ncpu} {env env' : SysEnv} {a : AddArgs} {m : HgMacKey}
    {ip : IpAddr} (htarget : addTargetOf env s a.mac a.ip = some (m, ip))
    (hadd : ((addAction a).run env s).1 = .success) (hbound : s.macIp.lookup m = some ip)
    {es : List (HostEvent ncpu)} (hes : ∀ e ∈ es, e.IsPacketFrom m ip) {mac : CString}
    (hmac : scanMacKey mac = some m) (hopen : env'.opensBoth = true)
    (hopenIp : env'.objGet .hgMacIp = true) :
    let s₂ := run HgMaps.step ((addAction a).run env s).2 es
    Removed m ip s₂ ((delAction mac).run env' s₂).2 := by
  intro s₂
  have hpackets : ∀ e ∈ es, e.IsPacket := by
    intro e he
    have h := hes e he
    cases e with
    | ingress env skb => trivial
    | egress env skb => trivial
    | add env opts => exact h.elim
    | del env opts => exact h.elim
    | mapDel env opts => exact h.elim
  have hadded : ((addAction a).run env s).2.macIp.lookup m = some ip := by
    obtain ⟨-, rateOk, heff⟩ := addActionEffect_of_success htarget hadd
    rw [run_addAction, heff]
    exact hbound
  exact (removed_delAction_iff env'
    (isSome_counters_packets hpackets (isSome_counters_of_success htarget hadd)) hmac).mpr
    ⟨hopen, hopenIp, lookup_macIp_packets hes hadded⟩

end HawkGate
