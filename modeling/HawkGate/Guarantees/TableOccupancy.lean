-- SUMMARY: When a new client finds room in the tables: how far departed clients use them up.
import HawkGate.Guarantees.BindingFreshness
import HawkGate.Kernel.Stages
import HawkGate.Lib.WriteLog

/-!
# Table occupancy

A new client needs an entry in each binding map, in `hg_clients` and in
`hg_counters`. Sessions and counters are freed by `del` and by the packet that
meets an expired session; nothing frees a binding. The history of a host says how
full the four tables are.
-/

namespace HawkGate

open Bytes HawkGate.Frame CString Transition

variable {ncpu : Nat}

/-! ## History -/

/-- What an event does to the sessions: it adds that of a client or removes it. -/
def HgMaps.sessionWrite (s : HgMaps ncpu) : HostEvent ncpu → Option (HgMacKey × Option Unit)
  | .ingress env skb => (s.endedSession env skb.data).map fun m => (m, none)
  | .egress _ _ => none
  | .add env opts =>
    match addEffect env s opts with
    | .refused => none
    | .rolledBack m => some (m, none)
    | .installed m _ _ _ _ => some (m, some ())
  | .del env opts => (delVictim s env opts).map fun m => (m, none)
  | .mapDel env opts => (mapDelVictim env opts).map fun m => (m, none)

/-- What an event does to the counters. -/
def HgMaps.counterWrite (s : HgMaps ncpu) : HostEvent ncpu → Option (IpAddr × Option Unit)
  | .add env opts =>
    match addEffect env s opts with
    | .installed _ ip _ _ _ => some (ip, some ())
    | _ => none
  | .del env opts =>
    (delVictim s env opts).bind fun m =>
      if env.objGet .hgMacIp then (s.macIp.lookup m).map fun ip => (ip, none) else none
  | .ingress _ _ | .egress _ _ | .mapDel _ _ => none

/-- The binding of a packet that the forward map takes. -/
def HgMaps.macIpWrite (s : HgMaps ncpu) (e : HostEvent ncpu) : Option (HgMacKey × IpAddr) :=
  match e with
  | .ingress env _ => (s.sighting e).filter fun o =>
      s.macIp.lookup o.1 ≠ some o.2 ∧ env.updateMacIp = true ∧ s.macIp.HasRoom o.1
  | .egress _ _ | .add _ _ | .del _ _ | .mapDel _ _ => none

/-- The binding of a packet that the reverse map takes. -/
def HgMaps.ipMacWrite (s : HgMaps ncpu) (e : HostEvent ncpu) : Option (HgMacKey × IpAddr) :=
  match e with
  | .ingress env _ => (s.sighting e).filter fun o =>
      s.macIp.lookup o.1 ≠ some o.2 ∧ env.updateIpMac = true ∧ s.ipMac.HasRoom o.2
  | .egress _ _ | .add _ _ | .del _ _ | .mapDel _ _ => none

/-- A host with the sightings so far, the MACs and addresses that were bound, and the sessions and
    counters that were added and removed, newest first. -/
structure TallyHost (ncpu : Nat) extends BindingHost ncpu where
  macs : List HgMacKey
  addresses : List IpAddr
  sessions : WriteLog HgMacKey (Option Unit)
  counters : WriteLog IpAddr (Option Unit)

def TallyHost.step (st : TallyHost ncpu) (e : HostEvent ncpu) : TallyHost ncpu where
  toBindingHost := st.toBindingHost.step e
  macs := ((st.maps.macIpWrite e).map Prod.fst).toList ++ st.macs
  addresses := ((st.maps.ipMacWrite e).map Prod.snd).toList ++ st.addresses
  sessions := (st.maps.sessionWrite e).toList ++ st.sessions
  counters := (st.maps.counterWrite e).toList ++ st.counters

/-- A host on which nothing has happened. -/
def TallyHost.start (ncpu : Nat) (portal : HgPortalCfg) (ifb : UInt32) : TallyHost ncpu where
  maps := .start ncpu portal ifb
  seen := []
  macs := []
  addresses := []
  sessions := []
  counters := []

/-! ## What fills the tables -/

/-- Whether a key is present after a write. -/
def presentAfter {K V : Type} [DecidableEq K] (w : Option (K × Option V)) (k : K) (before : Bool) :
    Bool :=
  w.elim before fun w => if k = w.1 then w.2.isSome else before

theorem isSome_value_append {K V : Type} [DecidableEq K] (w : Option (K × Option V))
    (log : WriteLog K (Option V)) (k : K) :
    (WriteLog.value (w.toList ++ log) k).isSome =
      presentAfter w k (WriteLog.value log k).isSome := by
  cases w with
  | none => rfl
  | some w =>
    obtain ⟨j, u⟩ := w
    rw [Option.toList_some, List.singleton_append, WriteLog.value_cons, presentAfter,
      Option.elim_some]
    split
    · rfl
    · rfl

section
variable {K V : Type} [DecidableEq K] {cap : Nat} (m : BoundedMap K V cap) (j k : K)

theorem isSome_erase_eq :
    ((m.erase j).lookup k).isSome =
      presentAfter (some (j, (none : Option Unit))) k (m.lookup k).isSome :=
  m.isSome_erase j k

theorem isSome_put_eq {j : K} (hroom : m.HasRoom j) (v : V) :
    ((m.put j v).lookup k).isSome = presentAfter (some (j, some ())) k (m.lookup k).isSome :=
  m.isSome_put k hroom v

end

section
variable (s : HgMaps ncpu)

/-- Client entries come from adds and go as the history says. -/
theorem isSome_clients_step (e : HostEvent ncpu) (k : HgMacKey) :
    ((s.step e).clients.lookup k).isSome =
      presentAfter (s.sessionWrite e) k (s.clients.lookup k).isSome := by
  cases e with
  | ingress env skb =>
    rw [HgMaps.step, isSome_clients_hgTcIngress, HgMaps.sessionWrite]
    cases s.endedSession env skb.data with
    | none => rfl
    | some m =>
      by_cases hk : k = m
      · simp [hk, presentAfter]
      · simp [hk, presentAfter, eq_comm]
  | egress env skb =>
    have h := congrArg Option.isSome (session_hgTcEgress env s skb k)
    rw [HgMaps.session, HgMaps.session, Option.isSome_map, Option.isSome_map] at h
    exact h
  | add env opts =>
    rw [HgMaps.step_add, HgMaps.sessionWrite]
    cases heff : addEffect env s opts with
    | refused => rfl
    | rolledBack m => exact isSome_erase_eq _ _ _
    | installed m ip client rate rateOk =>
      obtain ⟨-, -, -, -, -, hroom, -⟩ := addEffect_installed heff
      exact isSome_put_eq _ _ hroom _
  | del env opts =>
    rw [HgMaps.step_del, HgMaps.sessionWrite]
    cases delVictim s env opts with
    | none => rfl
    | some m => exact isSome_erase_eq _ _ _
  | mapDel env opts =>
    rw [HgMaps.step_mapDel, HgMaps.sessionWrite]
    cases mapDelVictim env opts with
    | none => rfl
    | some m => exact isSome_erase_eq _ _ _

/-- Counters come from adds and go with dels. -/
theorem isSome_counters_step (e : HostEvent ncpu) (a : IpAddr) :
    ((s.step e).counters.lookup a).isSome =
      presentAfter (s.counterWrite e) a (s.counters.lookup a).isSome := by
  cases e with
  | ingress env skb => exact isSome_counters_hgTcIngress env s skb a
  | egress env skb => exact isSome_counters_hgTcEgress env s skb a
  | add env opts =>
    rw [HgMaps.step_add, HgMaps.counterWrite]
    cases heff : addEffect env s opts with
    | refused => rfl
    | rolledBack m => rfl
    | installed m ip client rate rateOk =>
      obtain ⟨-, -, -, -, -, -, hroom, -⟩ := addEffect_installed heff
      exact isSome_put_eq _ _ hroom _
  | del env opts =>
    rw [HgMaps.step_del, HgMaps.counterWrite]
    cases delVictim s env opts with
    | none => rfl
    | some m =>
      simp only [Option.elim_some, HgMaps.afterDel, Option.bind_some]
      cases s.macIp.lookup m with
      | none => by_cases hopen : env.objGet .hgMacIp = true <;> simp [hopen, presentAfter]
      | some ip =>
        by_cases hopen : env.objGet .hgMacIp = true
        · simp only [hopen, if_true]
          exact isSome_erase_eq _ _ _
        · simp [hopen, presentAfter]
  | mapDel env opts =>
    rw [HgMaps.step_mapDel]
    rfl

/-- The sighting of a packet is its sender at its address. -/
theorem sighting_ingress_iff {env : BpfEnv ncpu} {skb : SkBuff} {m : HgMacKey} {ip : IpAddr} :
    s.sighting (.ingress env skb) = some (m, ip) ↔
      ∃ key, filterProto skb.data = .l3Ok key ∧ s.bypass.lookup (saddr skb.data) = none ∧
        hSource skb.data = m ∧ saddr skb.data = ip := by
  unfold HgMaps.sighting
  dsimp only
  cases filterProto skb.data with
  | l2Only p => simp
  | invalid => simp
  | l3Ok key => cases s.bypass.lookup (saddr skb.data) <;> simp

theorem sighting_ingress_none {env : BpfEnv ncpu} {skb : SkBuff}
    (h : s.sighting (.ingress env skb) = none) : s.bindFrame env skb.data = s := by
  unfold HgMaps.sighting at h
  unfold HgMaps.bindFrame
  dsimp only at h
  cases hkey : filterProto skb.data with
  | l2Only p => rfl
  | invalid => rfl
  | l3Ok key =>
    rw [hkey] at h
    dsimp only at h ⊢
    split at h
    · next hsrc => rw [if_pos hsrc]
    · cases h

/-- The MACs in the forward map are those whose binding it took. -/
theorem isSome_macIp_step (e : HostEvent ncpu) (k : HgMacKey) :
    ((s.step e).macIp.lookup k).isSome = true ↔
      k ∈ ((s.macIpWrite e).map Prod.fst).toList ∨ (s.macIp.lookup k).isSome = true := by
  cases e with
  | ingress env skb =>
    rw [HgMaps.step, macIp_hgTcIngress, HgMaps.macIpWrite]
    cases hsight : s.sighting (.ingress env skb) with
    | none => simp [sighting_ingress_none s hsight]
    | some o =>
      obtain ⟨m, ip⟩ := o
      obtain ⟨key, hkey, hsrc, rfl, rfl⟩ := (sighting_ingress_iff s).mp hsight
      rw [HgMaps.bindFrame_l3Ok hkey hsrc, HgMaps.bindClient, Option.filter_some]
      by_cases hsame : s.macIp.lookup (hSource skb.data) = some (saddr skb.data)
      · rw [if_pos hsame, if_neg (by simp [hsame])]
        simp
      · rw [if_neg hsame]
        cases hupd : env.updateMacIp with
        | false => simp
        | true =>
          rw [if_pos rfl, BoundedMap.isSome_put_iff]
          by_cases hroom : s.macIp.HasRoom (hSource skb.data)
          · rw [if_pos (by simp [hsame, hroom])]
            simp [hroom]
          · rw [if_neg (by simp [hroom])]
            simp [hroom]
  | egress env skb =>
    rw [HgMaps.step, macIp_hgTcEgress]
    simp [HgMaps.macIpWrite]
  | add env opts =>
    rw [HgMaps.step_add]
    cases addEffect env s opts <;> simp [HgMaps.macIpWrite, HgMaps.afterAdd]
  | del env opts =>
    rw [HgMaps.step_del]
    cases delVictim s env opts <;> simp [HgMaps.macIpWrite, HgMaps.afterDel]
  | mapDel env opts =>
    rw [HgMaps.step_mapDel]
    simp [HgMaps.macIpWrite]

/-- The addresses in the reverse map are those whose binding it took. -/
theorem isSome_ipMac_step (e : HostEvent ncpu) (a : IpAddr) :
    ((s.step e).ipMac.lookup a).isSome = true ↔
      a ∈ ((s.ipMacWrite e).map Prod.snd).toList ∨ (s.ipMac.lookup a).isSome = true := by
  cases e with
  | ingress env skb =>
    rw [HgMaps.step, ipMac_hgTcIngress, HgMaps.ipMacWrite]
    cases hsight : s.sighting (.ingress env skb) with
    | none => simp [sighting_ingress_none s hsight]
    | some o =>
      obtain ⟨m, ip⟩ := o
      obtain ⟨key, hkey, hsrc, rfl, rfl⟩ := (sighting_ingress_iff s).mp hsight
      rw [HgMaps.bindFrame_l3Ok hkey hsrc, HgMaps.bindClient, Option.filter_some]
      by_cases hsame : s.macIp.lookup (hSource skb.data) = some (saddr skb.data)
      · rw [if_pos hsame, if_neg (by simp [hsame])]
        simp
      · rw [if_neg hsame]
        cases hupd : env.updateIpMac with
        | false => simp
        | true =>
          rw [if_pos rfl, BoundedMap.isSome_put_iff]
          by_cases hroom : s.ipMac.HasRoom (saddr skb.data)
          · rw [if_pos (by simp [hsame, hroom])]
            simp [hroom]
          · rw [if_neg (by simp [hroom])]
            simp [hroom]
  | egress env skb =>
    rw [HgMaps.step, ipMac_hgTcEgress]
    simp [HgMaps.ipMacWrite]
  | add env opts =>
    rw [HgMaps.step_add]
    cases addEffect env s opts <;> simp [HgMaps.ipMacWrite, HgMaps.afterAdd]
  | del env opts =>
    rw [HgMaps.step_del]
    cases delVictim s env opts <;> simp [HgMaps.ipMacWrite, HgMaps.afterDel]
  | mapDel env opts =>
    rw [HgMaps.step_mapDel]
    simp [HgMaps.ipMacWrite]

/-- A MAC that was never sighted is not in the forward map. -/
theorem mem_seen_of_macIpWrite {e : HostEvent ncpu} {m : HgMacKey}
    (h : m ∈ ((s.macIpWrite e).map Prod.fst).toList) :
    m ∈ ((s.sighting e).toList).map Prod.fst := by
  cases e with
  | ingress env skb =>
    rw [HgMaps.macIpWrite] at h
    cases hsight : s.sighting (.ingress env skb) with
    | none => simp [hsight] at h
    | some o =>
      rw [hsight, Option.filter_some] at h
      split at h
      · simpa using h
      · cases h
  | egress | add | del | mapDel => cases h

end

/-! ## The history gives the tables -/

/-- The keys of the four tables are those of the history. -/
structure TallyHost.Accounts (st : TallyHost ncpu) : Prop where
  seen : ∀ m, m ∈ st.macs → m ∈ st.seen.map Prod.fst
  macIp : ∀ m, (st.maps.macIp.lookup m).isSome = true ↔ m ∈ st.macs
  ipMac : ∀ a, (st.maps.ipMac.lookup a).isSome = true ↔ a ∈ st.addresses
  clients : ∀ m, (st.maps.clients.lookup m).isSome = (WriteLog.value st.sessions m).isSome
  counters : ∀ a, (st.maps.counters.lookup a).isSome = (WriteLog.value st.counters a).isSome

theorem TallyHost.accounts_start (portal : HgPortalCfg) (ifb : UInt32) :
    (TallyHost.start ncpu portal ifb).Accounts where
  seen _ h := (List.not_mem_nil h).elim
  macIp _ := ⟨fun h => (Bool.false_ne_true h).elim, fun h => (List.not_mem_nil h).elim⟩
  ipMac _ := ⟨fun h => (Bool.false_ne_true h).elim, fun h => (List.not_mem_nil h).elim⟩
  clients _ := rfl
  counters _ := rfl

theorem TallyHost.Accounts.step {st : TallyHost ncpu} (h : st.Accounts) (e : HostEvent ncpu) :
    (st.step e).Accounts where
  seen m hm := by
    have hmacs : (st.step e).macs = ((st.maps.macIpWrite e).map Prod.fst).toList ++ st.macs := rfl
    have hseen : (st.step e).seen = (st.maps.sighting e).toList ++ st.seen := rfl
    rw [hmacs] at hm
    rw [hseen, List.map_append]
    rcases List.mem_append.mp hm with hnew | hold
    · exact List.mem_append_left _ (mem_seen_of_macIpWrite st.maps hnew)
    · exact List.mem_append_right _ (h.seen m hold)
  macIp m := by
    have hmacs : (st.step e).macs = ((st.maps.macIpWrite e).map Prod.fst).toList ++ st.macs := rfl
    rw [hmacs, List.mem_append, ← h.macIp]
    exact isSome_macIp_step st.maps e m
  ipMac a := by
    have haddr : (st.step e).addresses =
        ((st.maps.ipMacWrite e).map Prod.snd).toList ++ st.addresses := rfl
    rw [haddr, List.mem_append, ← h.ipMac]
    exact isSome_ipMac_step st.maps e a
  clients m := by
    have hlog : (st.step e).sessions = (st.maps.sessionWrite e).toList ++ st.sessions := rfl
    rw [hlog, isSome_value_append, ← h.clients]
    exact isSome_clients_step st.maps e m
  counters a := by
    have hlog : (st.step e).counters = (st.maps.counterWrite e).toList ++ st.counters := rfl
    rw [hlog, isSome_value_append, ← h.counters]
    exact isSome_counters_step st.maps e a

theorem TallyHost.Accounts.run {st : TallyHost ncpu} (h : st.Accounts) (es : List (HostEvent ncpu)) :
    (run TallyHost.step st es).Accounts := by
  induction es generalizing st with
  | nil => exact h
  | cons e es ih => exact ih (h.step e)

/-- The history leaves room for a client that was never seen. A client and an address that were
    bound count for good; a session and a counter count until they are removed, run out or not. -/
structure TallyHost.HasRoomFor (st : TallyHost ncpu) (m : HgMacKey) (ip : IpAddr) : Prop where
  macs : st.macs.dedup.length < 4096
  addresses : ip ∈ st.addresses ∨ st.addresses.dedup.length < 4096
  sessions : m ∈ WriteLog.present st.sessions ∨ (WriteLog.present st.sessions).length < 4096
  counters : ip ∈ WriteLog.present st.counters ∨ (WriteLog.present st.counters).length < 4096

/-- The history and the tables agree on the room that is left. -/
theorem TallyHost.Accounts.hasRoom_iff {st : TallyHost ncpu} (h : st.Accounts) (m : HgMacKey)
    (ip : IpAddr) :
    (st.maps.macIp.size < 4096 ↔ st.macs.dedup.length < 4096) ∧
      (st.maps.ipMac.HasRoom ip ↔ ip ∈ st.addresses ∨ st.addresses.dedup.length < 4096) ∧
      (st.maps.clients.HasRoom m ↔ m ∈ WriteLog.present st.sessions ∨
        (WriteLog.present st.sessions).length < 4096) ∧
      (st.maps.counters.HasRoom ip ↔ ip ∈ WriteLog.present st.counters ∨
        (WriteLog.present st.counters).length < 4096) := by
  have hclients : ∀ k, (st.maps.clients.lookup k).isSome = true ↔
      k ∈ WriteLog.present st.sessions := by
    intro k
    rw [h.clients, WriteLog.mem_present_iff]
  have hcounters : ∀ a, (st.maps.counters.lookup a).isSome = true ↔
      a ∈ WriteLog.present st.counters := by
    intro a
    rw [h.counters, WriteLog.mem_present_iff]
  refine ⟨?_, ?_, ?_, ?_⟩
  · rw [BoundedMap.size_eq_length (List.nodup_dedup _) fun k => (h.macIp k).trans
      List.mem_dedup.symm]
  · rw [BoundedMap.HasRoom, h.ipMac, BoundedMap.size_eq_length (List.nodup_dedup _) fun a =>
      (h.ipMac a).trans List.mem_dedup.symm]
  · rw [BoundedMap.HasRoom, hclients, BoundedMap.size_eq_length (WriteLog.nodup_present _) hclients]
  · rw [BoundedMap.HasRoom, hcounters,
      BoundedMap.size_eq_length (WriteLog.nodup_present _) hcounters]

/-! ## A new client -/

/-- The first packet of a client gets past the binding step. -/
structure Arrival (st : TallyHost ncpu) (env : BpfEnv ncpu) (skb : SkBuff) (m : HgMacKey)
    (ip : IpAddr) : Prop where
  new : m ∉ st.seen.map Prod.fst
  sighted : st.maps.sighting (.ingress env skb) = some (m, ip)
  updateMacIp : env.updateMacIp = true
  updateIpMac : env.updateIpMac = true

/-- The maps can be opened, and updates fail for lack of room only. -/
structure SysEnv.CanAdd (env : SysEnv) : Prop where
  opens : ∀ map, env.objGet map = true
  calloc : env.calloc = true
  update : ∀ map, env.update map = true

/-- An add that is given only an address. -/
structure AddsAddress (opts : List AddOpt) (a : AddArgs) (ip : IpAddr) : Prop where
  args : parseAdd opts = some a
  mac : a.mac = none
  ip : a.ip.bind inetPton = some ip

/-- A client at an address has both bindings, and the add for the address installs its session:
    the client entry and the counter are there. -/
structure ObtainsSession (s : HgMaps ncpu) (env : SysEnv) (opts : List AddOpt) (a : AddArgs)
    (m : HgMacKey) (ip : IpAddr) : Prop where
  macIp : s.macIp.lookup m = some ip
  ipMac : s.ipMac.lookup ip = some m
  status : ((hgctlAdd opts).run env s).1 = .success
  client : ((hgctlAdd opts).run env s).2.clients.lookup m = some (a.client env)
  counter : ((hgctlAdd opts).run env s).2.counters.lookup ip = some fun _ => HgCounter.zero

/-- The packet of a new client writes its bindings exactly if there is room for them. -/
theorem Arrival.bound_iff {st : TallyHost ncpu} {env : BpfEnv ncpu} {skb : SkBuff} {m : HgMacKey}
    {ip : IpAddr} (h : Arrival st env skb m ip) (hacc : st.Accounts) :
    ((hgTcIngress env st.maps skb).maps.macIp.lookup m = some ip ↔ st.maps.macIp.size < 4096) ∧
      ((hgTcIngress env st.maps skb).maps.ipMac.lookup ip = some m → st.maps.ipMac.HasRoom ip) ∧
      (st.maps.ipMac.HasRoom ip → (hgTcIngress env st.maps skb).maps.ipMac.lookup ip = some m) := by
  obtain ⟨key, hkey, hsrc, rfl, rfl⟩ := (sighting_ingress_iff st.maps).mp h.sighted
  have hfwd : st.maps.macIp.lookup (hSource skb.data) = none := by
    rw [← Option.not_isSome_iff_eq_none]
    exact fun hsome => h.new (hacc.seen _ ((hacc.macIp _).mp hsome))
  have hne : st.maps.macIp.lookup (hSource skb.data) ≠ some (saddr skb.data) := by
    rw [hfwd]
    exact (Option.some_ne_none _).symm
  rw [macIp_hgTcIngress, ipMac_hgTcIngress, HgMaps.bindFrame_l3Ok hkey hsrc, HgMaps.bindClient,
    if_neg hne, h.updateMacIp, h.updateIpMac, if_pos rfl, if_pos rfl]
  refine ⟨?_, fun hbound => ?_, fun hroom => BoundedMap.lookup_put_self _ _ hroom⟩
  · constructor
    · intro hbound
      by_contra hfull
      rw [BoundedMap.lookup_put, if_neg, hfwd] at hbound
      · cases hbound
      · rintro ⟨-, hroom⟩
        rcases hroom with hsome | hlt
        · rw [hfwd] at hsome
          cases hsome
        · exact hfull hlt
    · exact fun hroom => BoundedMap.lookup_put_self _ _ (.inr hroom)
  · by_contra hroom
    rw [BoundedMap.lookup_put, if_neg fun hput => hroom hput.2] at hbound
    exact hroom (.inl (by rw [hbound]; rfl))

/-- The packet of a client leaves room for its session and its counter exactly if there was. -/
theorem Arrival.hasRoom_iff {st : TallyHost ncpu} {env : BpfEnv ncpu} {skb : SkBuff} {m : HgMacKey}
    {ip : IpAddr} (h : Arrival st env skb m ip) :
    ((hgTcIngress env st.maps skb).maps.clients.HasRoom m ↔ st.maps.clients.HasRoom m) ∧
      ((hgTcIngress env st.maps skb).maps.counters.HasRoom ip ↔ st.maps.counters.HasRoom ip) := by
  obtain ⟨key, hkey, hsrc, rfl, rfl⟩ := (sighting_ingress_iff st.maps).mp h.sighted
  have hcounters : ∀ a, ((hgTcIngress env st.maps skb).maps.counters.lookup a).isSome =
      (st.maps.counters.lookup a).isSome := isSome_counters_hgTcIngress env st.maps skb
  have hclients := isSome_clients_hgTcIngress env st.maps skb
  constructor
  · by_cases hsome : (st.maps.clients.lookup (hSource skb.data)).isSome = true
    · refine iff_of_true ?_ (.inl hsome)
      by_cases hend : st.maps.endedSession env skb.data = some (hSource skb.data)
      · -- the packet ends the session of its sender, whose place is free then
        have hgone : (hgTcIngress env st.maps skb).maps.clients.lookup (hSource skb.data) = none := by
          rw [← Option.not_isSome_iff_eq_none, hclients, if_pos hend]
          exact Bool.false_ne_true
        refine .inr (Nat.lt_of_lt_of_le (BoundedMap.size_lt_of_within (fun j hj => ?_) hgone hsome)
          st.maps.clients.bounded)
        rw [hclients] at hj
        split at hj
        · cases hj
        · exact hj
      · exact .inl (by rw [hclients, if_neg hend, hsome])
    · refine BoundedMap.hasRoom_congr (fun j => ?_) _
      rw [hclients]
      split
      · next hend =>
        rw [HgMaps.eq_of_endedSession hend, Bool.eq_false_iff.mpr hsome]
        rfl
      · rfl
  · exact BoundedMap.hasRoom_congr hcounters _

/-- An add for a bound address installs the session exactly if it finds room. -/
theorem run_hgctlAdd_bound_iff {s : HgMaps ncpu} {env : SysEnv} (henv : env.CanAdd)
    {opts : List AddOpt} {a : AddArgs} {m : HgMacKey} {ip : IpAddr} (hadd : AddsAddress opts a ip)
    (hbound : s.ipMac.lookup ip = some m) :
    ((hgctlAdd opts).run env s).1 = .success ∧
        ((hgctlAdd opts).run env s).2.clients.lookup m = some (a.client env) ∧
        ((hgctlAdd opts).run env s).2.counters.lookup ip = some (fun _ => HgCounter.zero) ↔
      s.clients.HasRoom m ∧ s.counters.HasRoom ip := by
  obtain ⟨text, htext, hparse⟩ := Option.bind_eq_some_iff.mp hadd.ip
  have htarget : addTargetOf env s a.mac a.ip = some (m, ip) := by
    rw [hadd.mac, htext, addTargetOf, hparse, Option.bind_some, henv.opens, hbound]
    rfl
  rw [run_hgctlAdd]
  constructor
  · rintro ⟨hstatus, -, -⟩
    cases heff : addEffect env s opts with
    | refused => rw [heff] at hstatus; cases hstatus
    | rolledBack k => rw [heff] at hstatus; cases hstatus
    | installed k x client rate rateOk =>
      obtain ⟨a', ha', htarget', -, -, hclients, hcounters, -⟩ := addEffect_installed heff
      obtain rfl := Option.some.inj (hadd.args.symm.trans ha')
      obtain ⟨rfl, rfl⟩ := Prod.mk.inj (Option.some.inj (htarget.symm.trans htarget'))
      exact ⟨hclients, hcounters⟩
  · rintro ⟨hclients, hcounters⟩
    have hopens : env.opensAll = true := by simp [SysEnv.opensAll, henv.opens]
    have hinstalls : a.Installs env s m ip :=
      ⟨htarget, hopens, ⟨henv.update _, hclients⟩, henv.calloc, henv.update _, hcounters⟩
    rw [addEffect_of_installs hadd.args hinstalls]
    exact ⟨rfl, BoundedMap.lookup_put_self _ _ hclients, BoundedMap.lookup_put_self _ _ hcounters⟩

/-- After any history, a new client that sends a packet and is then added by its address obtains
    its session exactly if the history leaves room: clients that were bound once count for good,
    sessions and counters until they are removed. -/
theorem new_client_obtains_session_iff {portal : HgPortalCfg} {ifb : UInt32}
    {es : List (HostEvent ncpu)} {st : TallyHost ncpu}
    (hst : st = run TallyHost.step (.start ncpu portal ifb) es)
    {env : BpfEnv ncpu} {skb : SkBuff} {m : HgMacKey} {ip : IpAddr} (harr : Arrival st env skb m ip)
    {senv : SysEnv} (hsys : senv.CanAdd) {opts : List AddOpt} {a : AddArgs}
    (hadd : AddsAddress opts a ip) :
    ObtainsSession (hgTcIngress env st.maps skb).maps senv opts a m ip ↔ st.HasRoomFor m ip := by
  have hacc : st.Accounts := hst ▸ (TallyHost.accounts_start portal ifb).run es
  obtain ⟨hmacs, haddresses, hsessions, hcounters⟩ := hacc.hasRoom_iff m ip
  obtain ⟨hfwd, hrev, hrev'⟩ := harr.bound_iff hacc
  obtain ⟨hclients', hcounters'⟩ := harr.hasRoom_iff
  constructor
  · intro h
    have hroom := (run_hgctlAdd_bound_iff hsys hadd h.ipMac).mp ⟨h.status, h.client, h.counter⟩
    exact ⟨hmacs.mp (hfwd.mp h.macIp), haddresses.mp (hrev h.ipMac),
      hsessions.mp (hclients'.mp hroom.1), hcounters.mp (hcounters'.mp hroom.2)⟩
  · intro h
    have hipMac := hrev' (haddresses.mpr h.addresses)
    obtain ⟨hstatus, hclient, hcounter⟩ := (run_hgctlAdd_bound_iff hsys hadd hipMac).mpr
      ⟨hclients'.mpr (hsessions.mpr h.sessions), hcounters'.mpr (hcounters.mpr h.counters)⟩
    exact ⟨hfwd.mpr (hmacs.mpr h.macs), hipMac, hstatus, hclient, hcounter⟩

/-- Two clients came and went: the first was added and deleted, the session of the second ran out
    and it fell silent. -/
def departedRun : List (HostEvent 1) :=
  [uploadOf (localMac 1) (addrOfOctets 192 168 99 82),
    .add (.good ⟨0, 0⟩) [.iface "br0".toList, .client "192.168.99.82".toList],
    .del (.good ⟨0, 0⟩) [.iface "br0".toList, .client "192.168.99.82".toList],
    uploadOf (localMac 2) (addrOfOctets 192 168 99 83),
    .add (.good ⟨0, 0⟩) [.iface "br0".toList, .client "192.168.99.83".toList, .expire "1".toList]]

/-- After them a third client obtains its session. -/
theorem new_client_obtains_session_third :
    ObtainsSession (hgTcIngress (.good 0 0) (run TallyHost.step (.start 1 .standard 0) departedRun).maps
        ⟨tcpFrame (localMac 3) (addrOfOctets 192 168 99 84) (addrOfOctets 93 184 216 34) 40000 443,
          54⟩).maps (.good ⟨0, 0⟩) [.iface "br0".toList, .client "192.168.99.84".toList]
      ⟨none, some "192.168.99.84".toList, 0, 0, 0, 0, 0⟩ (localMac 3)
      (addrOfOctets 192 168 99 84) := by
  have harr : Arrival (run TallyHost.step (.start 1 .standard 0) departedRun) (.good 0 0)
      ⟨tcpFrame (localMac 3) (addrOfOctets 192 168 99 84) (addrOfOctets 93 184 216 34) 40000 443,
        54⟩ (localMac 3) (addrOfOctets 192 168 99 84) :=
    ⟨by decide +kernel, by decide +kernel, rfl, rfl⟩
  have hsys : (SysEnv.good ⟨0, 0⟩).CanAdd := ⟨fun _ => rfl, rfl, fun _ => rfl⟩
  have hadd : AddsAddress [.iface "br0".toList, .client "192.168.99.84".toList]
      ⟨none, some "192.168.99.84".toList, 0, 0, 0, 0, 0⟩ (addrOfOctets 192 168 99 84) :=
    ⟨rfl, rfl, by decide +kernel⟩
  -- both departed clients still hold their bindings, the second its session too
  have hroom : (run TallyHost.step (.start 1 .standard 0) departedRun).HasRoomFor (localMac 3)
      (addrOfOctets 192 168 99 84) :=
    ⟨by decide +kernel, by decide +kernel, by decide +kernel, by decide +kernel⟩
  exact (new_client_obtains_session_iff rfl harr hsys hadd).mpr hroom

/-! ## Departed clients -/

theorem saddr_uploadOf (n : UInt8) (a : IpAddr) :
    saddr (tcpFrame (localMac n) a (addrOfOctets 93 184 216 34) 40000 443) = a := by
  have ha := a.toNat_lt
  apply UInt32.toNat.inj
  simp [saddr, tcpFrame, ofU32, load32, load16, load8, localMac, ethHLen]
  omega

theorem completeTcp_uploadOf (n : UInt8) (a : IpAddr) :
    CompleteTcp (tcpFrame (localMac n) a (addrOfOctets 93 184 216 34) 40000 443) where
  eth := by
    simp [ethProto, tcpFrame, load16, load8, localMac, ethPIp]
    decide
  tcp := by
    simp [protocol, tcpFrame, load8, localMac, ethHLen]
    decide
  ihl := by simp [ihl, tcpFrame, load8, localMac, ethHLen]
  room := by simp [ihl, tcpFrame, load8, localMac, ethHLen, l4Off, ofU16, ofU32, tcpHLen]

/-- Devices came and went under the addresses `as`, without ever logging in. -/
structure LeftBehind (s : HgMaps ncpu) (as : List IpAddr) : Prop where
  bound : ∀ a, (s.ipMac.lookup a).isSome = true ↔ a ∈ as
  fwd : ∀ m a, s.macIp.lookup m = some a → a ∈ as
  noSession : ∀ m, s.clients.lookup m = none
  noBypass : ∀ a, s.bypass.lookup a = none

/-- A packet from an address that is not yet bound leaves one more entry behind. -/
theorem LeftBehind.upload {s : HgMaps 1} {as : List IpAddr} (h : LeftBehind s as) (n : UInt8)
    {a : IpAddr} (ha : a ∉ as) (hroom : as.length < 4096) :
    LeftBehind (s.step (uploadOf (localMac n) a)) (a :: as) := by
  have hsize : s.ipMac.size < 4096 :=
    Nat.lt_of_le_of_lt (BoundedMap.size_le_of_subset fun b hb => (h.bound b).mp hb) hroom
  obtain ⟨key, hkey⟩ := (completeTcp_uploadOf n a).exists_l3Ok
  have hsrc := saddr_uploadOf n a
  have hne : s.macIp.lookup (localMac n) ≠ some a := fun hfwd => ha (h.fwd _ _ hfwd)
  have hbind : s.bindFrame (.good ⟨0, Nat.one_pos⟩ 0)
      (tcpFrame (localMac n) a (addrOfOctets 93 184 216 34) 40000 443) =
      s.bindClient (.good ⟨0, Nat.one_pos⟩ 0) (hSource _) (saddr _) :=
    HgMaps.bindFrame_l3Ok hkey (h.noBypass _)
  rw [hsrc, hSource_tcpFrame, HgMaps.bindClient, if_neg hne] at hbind
  constructor
  case bound =>
    intro b
    rw [uploadOf, HgMaps.step, ipMac_hgTcIngress, hbind, List.mem_cons, ← h.bound b]
    simp only [BpfEnv.good, if_true, BoundedMap.lookup_put, BoundedMap.HasRoom, hsize, or_true,
      and_true]
    by_cases hb : b = a
    · simp [hb]
    · simp [hb]
  case fwd =>
    intro m b hm
    rw [uploadOf, HgMaps.step, macIp_hgTcIngress, hbind] at hm
    simp only [BpfEnv.good, if_true, BoundedMap.lookup_put] at hm
    split at hm
    · rw [← Option.some.inj hm]
      exact List.mem_cons_self
    · exact List.mem_cons_of_mem a (h.fwd m b hm)
  case noSession =>
    intro m
    rw [uploadOf, HgMaps.step, ← Option.not_isSome_iff_eq_none, isSome_clients_hgTcIngress,
      h.noSession m, ite_self]
    exact Bool.false_ne_true
  case noBypass =>
    intro b
    rw [uploadOf, HgMaps.step, hgTcIngress_frame]
    dsimp only
    rw [HgMaps.bindFrame_bypass, h.noBypass]

theorem LeftBehind.uploads {s : HgMaps 1} {as : List IpAddr} (h : LeftBehind s as)
    (os : List (UInt8 × IpAddr)) (hnew : (os.map Prod.snd).Nodup) (hfree : ∀ o ∈ os, o.2 ∉ as)
    (hroom : as.length + os.length ≤ 4096) :
    LeftBehind (run HgMaps.step s (os.map fun o => uploadOf (localMac o.1) o.2))
      ((os.map Prod.snd).reverse ++ as) := by
  induction os generalizing s as with
  | nil => exact h
  | cons o os ih =>
    obtain ⟨hhead, htail⟩ := List.nodup_cons.mp hnew
    rw [List.length_cons] at hroom
    have hstep := h.upload o.1 (hfree o List.mem_cons_self) (by omega)
    have hrest := ih hstep htail (fun o' ho' => ?_) (by rw [List.length_cons]; omega)
    · simpa using hrest
    · rw [List.mem_cons, not_or]
      exact ⟨fun heq => hhead (heq ▸ List.mem_map_of_mem ho'), hfree o' (List.mem_cons_of_mem o ho')⟩

/-- Once 4096 addresses were left behind, a new one is not bound. -/
theorem LeftBehind.unbound {s : HgMaps 1} {as : List IpAddr} (h : LeftBehind s as)
    (hnodup : as.Nodup) (hfull : as.length = 4096) {ip : IpAddr} (hip : ip ∉ as) (n : UInt8) :
    (s.step (uploadOf (localMac n) ip)).ipMac.lookup ip = none := by
  have hnone : s.ipMac.lookup ip = none := by
    rw [← Option.not_isSome_iff_eq_none]
    exact fun hsome => hip ((h.bound ip).mp hsome)
  have hkeys : as ⊆ s.ipMac.keys :=
    fun a ha => (BoundedMap.mem_keys_iff _ a).mpr ((h.bound a).mpr ha)
  have hsize := (List.subperm_of_subset hnodup hkeys).length_le
  rw [hfull, BoundedMap.length_keys] at hsize
  rw [uploadOf, HgMaps.step, ipMac_hgTcIngress, HgMaps.lookup_ipMac_bindFrame_keep, hnone]
  rintro ⟨-, -, -, -, hroom⟩
  rw [saddr_uploadOf] at hroom
  rcases hroom with hsome | hlt
  · rw [hnone] at hsome
    cases hsome
  · omega

/-- The stay of the `i`-th device: its MAC and its address in 10.0.0.0/20. -/
def stay (i : Nat) : UInt8 × IpAddr :=
  (UInt8.ofNat (i % 250), addrOfOctets 10 0 (UInt8.ofNat (i / 256)) (UInt8.ofNat (i % 256)))

theorem toNat_stay {i : Nat} (hi : i < 4096) :
    (stay i).2.toNat = 10 + 65536 * (i / 256) + 16777216 * (i % 256) := by
  have hhigh : i / 256 < 16 := by omega
  have hlow : i % 256 < 256 := by omega
  simp only [stay, addrOfOctets, UInt32.toNat_ofNat', UInt8.toNat_ofNat', UInt8.reduceToNat]
  generalize i / 256 = q at hhigh
  generalize i % 256 = r at hlow
  omega

theorem stay_nodup : (((List.range 4096).map stay).map Prod.snd).Nodup := by
  rw [List.map_map]
  refine List.Nodup.map_on ?_ List.nodup_range
  intro i hi j hj h
  have hnat : (stay i).2.toNat = (stay j).2.toNat := congrArg UInt32.toNat h
  rw [toNat_stay (List.mem_range.mp hi), toNat_stay (List.mem_range.mp hj)] at hnat
  have hsum : i / 256 + 256 * (i % 256) = j / 256 + 256 * (j % 256) := by omega
  have hhigh : i / 256 < 16 ∧ j / 256 < 16 := by
    have hi' := List.mem_range.mp hi
    have hj' := List.mem_range.mp hj
    omega
  have hparts : i / 256 = j / 256 ∧ i % 256 = j % 256 := by
    generalize i / 256 = q at *
    generalize j / 256 = q' at *
    omega
  rw [← Nat.div_add_mod i 256, ← Nat.div_add_mod j 256, hparts.1, hparts.2]

/-- After any 4096 stays at different addresses, the add for a new address is refused. -/
theorem LeftBehind.exhausted {s : HgMaps 1} (h : LeftBehind s []) {os : List (UInt8 × IpAddr)}
    (hnodup : (os.map Prod.snd).Nodup) (hlen : os.length = 4096) {ip : IpAddr}
    (hip : ip ∉ os.map Prod.snd) {env : SysEnv} {opts : List AddOpt} {a : AddArgs}
    (hadd : AddsAddress opts a ip) (n : UInt8) :
    let s' := run HgMaps.step s (os.map fun o => uploadOf (localMac o.1) o.2)
    let t := s'.step (uploadOf (localMac n) ip)
    (∀ m, s'.clients.lookup m = none) ∧ t.ipMac.lookup ip = none ∧
      (hgctlAdd opts).run env t = (.failed, t) := by
  intro s' t
  have hs' := h.uploads os hnodup (fun _ _ => List.not_mem_nil) (by rw [hlen]; rfl)
  rw [List.append_nil] at hs'
  have hrev : t.ipMac.lookup ip = none :=
    hs'.unbound (List.nodup_reverse.mpr hnodup) (by rw [List.length_reverse, List.length_map, hlen])
      (fun hmem => hip (List.mem_reverse.mp hmem)) n
  refine ⟨hs'.noSession, hrev, ?_⟩
  obtain ⟨text, htext, hparse⟩ := Option.bind_eq_some_iff.mp hadd.ip
  have htarget : addTargetOf env t a.mac a.ip = none := by
    rw [hadd.mac, htext, addTargetOf, hparse, Option.bind_some, hrev]
    split
    · rfl
    · rfl
  have heff : addEffect env t opts = .refused := by
    rw [addEffect, hadd.args]
    simp only [addActionEffect, htarget]
  rw [run_hgctlAdd, heff]
  rfl

/-- Devices without any session have come and gone with 4096 addresses. Then a new client sends its
    packet and the add for its address finds no binding. -/
theorem departed_clients_exhaust_bindings :
    let s := run HgMaps.step (HgMaps.start 1 .standard 0)
      (((List.range 4096).map stay).map fun o => uploadOf (localMac o.1) o.2)
    let t := s.step (uploadOf (localMac 255) (addrOfOctets 192 168 99 82))
    (∀ m, s.clients.lookup m = none) ∧ t.ipMac.lookup (addrOfOctets 192 168 99 82) = none ∧
      (hgctlAdd [.iface "br0".toList, .client "192.168.99.82".toList]).run (.good ⟨0, 0⟩) t =
        (.failed, t) := by
  have hstart : LeftBehind (HgMaps.start 1 .standard 0) [] :=
    ⟨fun _ => ⟨fun h => (Bool.false_ne_true h).elim, fun h => by cases h⟩,
      fun _ _ h => (Option.some_ne_none _ h.symm).elim, fun _ => rfl, fun _ => rfl⟩
  refine hstart.exhausted stay_nodup (by rw [List.length_map, List.length_range]) ?_
    ⟨rfl, rfl, by decide +kernel⟩ 255
  rw [List.map_map]
  intro hmem
  obtain ⟨i, hi, heq⟩ := List.mem_map.mp hmem
  have hnat := congrArg UInt32.toNat heq
  rw [Function.comp_apply, toNat_stay (List.mem_range.mp hi)] at hnat
  have hval : (addrOfOctets 192 168 99 82).toNat = 1382262976 := by decide
  omega

end HawkGate
