-- SUMMARY: The books of the gateway: the totals of a summary are the traffic carried since the start, but for discarded counts.
import HawkGate.Guarantees.Provenance
import HawkGate.Guarantees.RequestedView
import HawkGate.Guarantees.TrafficAccounting
import HawkGate.Lib.Ledger

/-!
# Totals of the gateway

Every counter is an account. A packet that the authenticated path carries pays
into the account of its client, a login opens an account again at nothing, and a
logout closes it. The summary of `hg_read_all` is the sum over all accounts,
whatever part of the array its caller asks for.
-/

namespace HawkGate

open Sharded Transition

variable {ncpu : Nat}

/-! ## Accounts -/

/-- The traffic in a counter. -/
def counterUsage (c : Fin ncpu → HgCounter) : Usage := total fun cpu => (c cpu).usage

/-- The traffic counted for an address. -/
def HgMaps.account (s : HgMaps ncpu) (ip : IpAddr) : Usage := s.counters.balance counterUsage ip

/-- The traffic counted for all addresses. -/
def HgMaps.booked (s : HgMaps ncpu) : Usage := s.counters.sum counterUsage

/-- Packets of these lengths pay into the account of their client, if it has one. -/
def HgMaps.paidIn (s : HgMaps ncpu) (ip : IpAddr) (lens : List UInt32) (of : UInt32 → Usage) :
    List Usage :=
  if (s.counters.lookup ip).isSome then lens.map of else []

/-- What a call takes off the books: the account that it closes or opens again. -/
def Sys.paidOut (env : SysEnv) (s : HgMaps ncpu) {β : Type} : Sys ncpu β → List Usage
  | .updateCounter ip _ => if env.Accepts .hgCounters s.counters ip then [s.account ip] else []
  | .deleteCounter ip => [s.account ip]
  | _ => []

def GatewayOp.paidOut (env : GatewayEnv) (s : HgMaps ncpu) {β : Type} :
    GatewayOp ncpu β → List Usage
  | .map op => op.paidOut env.sys s
  | .list _ | .host _ => []

/-- The traffic that a packet adds to the account of its client. -/
def Gateway.carried (g : Gateway ncpu) : GatewayEvent ncpu → List Usage
  | .ingress env skb => g.maps.paidIn (Frame.saddr skb.data)
    (ingressUploads env g.maps skb (Frame.saddr skb.data)) uploadUsage
  | .egress env skb => g.maps.paidIn (Frame.daddr skb.data)
    (egressDownloads env g.maps skb (Frame.daddr skb.data)) downloadUsage
  | .start _ | .call _ _ => []

/-- The counts that a call discards. -/
def Gateway.discarded (g : Gateway ncpu) : GatewayEvent ncpu → List Usage
  | .call i env =>
    match g.running[i]? with
    | some ⟨_, .call op _⟩ => op.paidOut env g.maps
    | _ => []
  | .start _ | .ingress _ _ | .egress _ _ => []

/-! ## One step -/

theorem map_counterUsage (s : HgMaps ncpu) (ip : IpAddr) :
    (s.counters.lookup ip).map counterUsage = (s.usage ip).map total := by
  rw [HgMaps.usage, HgMaps.counted, Option.map_map]
  rfl

section
variable {s s' : HgMaps ncpu} {posts : IpAddr → List (Fin ncpu × Usage)}
  (h : ∀ j, s'.usage j = (s.usage j).map fun u => post u (posts j))
include h

/-- What is posted to the counter of an address is paid into its account. -/
theorem account_of_posts (ip : IpAddr) :
    s'.account ip = s.account ip +
      if (s.counters.lookup ip).isSome then ((posts ip).map Prod.snd).sum else 0 := by
  rw [HgMaps.account, HgMaps.account, BoundedMap.balance, BoundedMap.balance, map_counterUsage,
    map_counterUsage, h ip, ← Option.isSome_map (f := counterUsage), map_counterUsage]
  cases s.usage ip with
  | none => exact (add_zero 0).symm
  | some u => exact total_post u (posts ip)

/-- Posts to one address change what is on the books by as much. -/
theorem booked_of_posts {ip : IpAddr} (hothers : ∀ j, j ≠ ip → posts j = []) :
    s'.booked = s.booked +
      if (s.counters.lookup ip).isSome then ((posts ip).map Prod.snd).sum else 0 := by
  have hone : s'.booked + s.account ip = s.booked + s'.account ip := by
    refine BoundedMap.sum_add_balance_comm fun j hj => ?_
    rw [map_counterUsage, map_counterUsage, h j, hothers j hj]
    exact congrArg _ Option.map_id'
  rw [account_of_posts h ip, ← add_assoc, add_right_comm] at hone
  exact add_right_cancel hone

end

theorem HgMaps.sum_paidIn (s : HgMaps ncpu) (ip : IpAddr) (lens : List UInt32)
    (of : UInt32 → Usage) (cpu : Fin ncpu) :
    (s.paidIn ip lens of).sum = if (s.counters.lookup ip).isSome then
      ((lens.map fun len => (cpu, of len)).map Prod.snd).sum else 0 := by
  rw [paidIn, List.map_map, apply_ite List.sum, List.sum_nil]
  rfl

theorem booked_hgTcIngress (env : BpfEnv ncpu) (s : HgMaps ncpu) (skb : SkBuff) :
    (hgTcIngress env s skb).maps.booked = s.booked + (s.paidIn (Frame.saddr skb.data)
      (ingressUploads env s skb (Frame.saddr skb.data)) uploadUsage).sum := by
  have hothers : ∀ j, j ≠ Frame.saddr skb.data →
      ((ingressUploads env s skb j).map fun len => (env.cpu, uploadUsage len)) = [] := by
    intro j hj
    rw [ingressUploads, if_neg fun h => hj h.2.1.symm, List.map_nil]
  rw [booked_of_posts (usage_hgTcIngress env s skb) hothers, HgMaps.sum_paidIn _ _ _ _ env.cpu]

theorem booked_hgTcEgress (env : BpfEnv ncpu) (s : HgMaps ncpu) (skb : SkBuff) :
    (hgTcEgress env s skb).maps.booked = s.booked + (s.paidIn (Frame.daddr skb.data)
      (egressDownloads env s skb (Frame.daddr skb.data)) downloadUsage).sum := by
  have hothers : ∀ j, j ≠ Frame.daddr skb.data →
      ((egressDownloads env s skb j).map fun len => (env.cpu, downloadUsage len)) = [] := by
    intro j hj
    rw [egressDownloads, if_neg fun h => hj h.2.1.symm, List.map_nil]
  rw [booked_of_posts (usage_hgTcEgress env s skb) hothers, HgMaps.sum_paidIn _ _ _ _ env.cpu]

theorem counterUsage_zero : counterUsage (fun _ : Fin ncpu => HgCounter.zero) = 0 := total_zero

/-- A call that opens counters empty takes off the books what it discards. -/
theorem booked_exec {G : Permission → Prop} (env : GatewayEnv) (s : HgMaps ncpu) {β : Type}
    {op : GatewayOp ncpu β} (h : op.GrantsIn G) :
    (op.exec env s).2.booked + (op.paidOut env s).sum = s.booked := by
  cases op with
  | list op => cases op <;> exact add_zero _
  | host op => exact add_zero _
  | map op =>
    cases op with
    | updateCounter ip v =>
      obtain rfl : v = fun _ => HgCounter.zero := h
      simp only [GatewayOp.exec, Sys.exec, GatewayOp.paidOut, Sys.paidOut, commit_update]
      by_cases hok : env.sys.Accepts .hgCounters s.counters ip
      · have hone : (s.counters.put ip fun _ => HgCounter.zero).sum counterUsage + s.account ip =
            s.booked + (s.counters.put ip fun _ => HgCounter.zero).balance counterUsage ip :=
          BoundedMap.sum_add_balance_comm fun j hj => by
            rw [BoundedMap.lookup_put, if_neg fun h => hj h.1]
        rw [BoundedMap.balance, BoundedMap.lookup_put_self _ _ hok.2, Option.map_some,
          counterUsage_zero] at hone
        simpa [hok, HgMaps.booked] using hone
      · simp [hok]
    | deleteCounter ip =>
      simp only [GatewayOp.exec, Sys.exec, GatewayOp.paidOut, Sys.paidOut, commit_delete,
        List.sum_singleton]
      exact BoundedMap.sum_erase_add_balance s.counters counterUsage ip
    | _ => exact add_zero _

/-- The parties open counters empty. -/
def Gateway.OpensEmpty (g : Gateway ncpu) : Prop :=
  g.Authorised (fun _ _ => True) fun _ => True

theorem Gateway.OpensEmpty.step {g : Gateway ncpu} (h : g.OpensEmpty) (e : GatewayEvent ncpu) :
    (g.step e).OpensEmpty :=
  Authorised.step h ⟨fun _ _ _ => trivial, fun _ _ => trivial⟩

/-- What is on the books after an event: what was, and what came in without what went out. -/
theorem Gateway.OpensEmpty.booked_step {g : Gateway ncpu} (h : g.OpensEmpty)
    (e : GatewayEvent ncpu) :
    (g.step e).maps.booked + (g.discarded e).sum = g.maps.booked + (g.carried e).sum := by
  cases e with
  | start party => rfl
  | ingress env skb => exact (add_zero _).trans (booked_hgTcIngress env g.maps skb)
  | egress env skb => exact (add_zero _).trans (booked_hgTcEgress env g.maps skb)
  | call i env =>
    rw [Gateway.step, Gateway.discarded, Gateway.carried, List.sum_nil, add_zero]
    cases hi : g.running[i]? with
    | none => exact add_zero _
    | some rp =>
      obtain ⟨party, rest⟩ := rp
      cases rest with
      | ret a => exact add_zero _
      | call op k =>
        obtain ⟨-, hgrants⟩ := h _ (List.mem_of_getElem? hi)
        exact booked_exec env g.maps hgrants.next

theorem balanced_gateway : Balanced (@Gateway.step ncpu) Gateway.OpensEmpty
    (fun g => g.maps.booked) Gateway.carried Gateway.discarded where
  keeps := fun _ e h => h.step e
  balances := fun _ e h => h.booked_step e

/-! ## The summary -/

/-- The traffic in a summary. -/
def HgGatewayStats.usage (t : HgGatewayStats) : Usage :=
  ((t.totalUpBytes, t.totalUpPackets), (t.totalDnBytes, t.totalDnPackets))

/-- The number of clients in a view. -/
def HgGatewayStats.count (t : HgGatewayStats) : HgStateFilter → Nat
  | .all => t.totalClients
  | .active => t.activeClients
  | .expired => t.expiredClients
  | .blocked => t.blockedClients

theorem usage_summary (l : List HgClientStats) (r : HgReadAll) :
    (l.foldl HgReadAll.add r).summary.usage =
      r.summary.usage + (l.map HgClientStats.usage).sum := by
  induction l generalizing r with
  | nil => exact (add_zero _).symm
  | cons st l ih =>
    rw [List.foldl_cons, ih, List.map_cons, List.sum_cons, ← add_assoc]
    rfl

theorem count_accumulate (view : HgStateFilter) (t : HgGatewayStats) (st : HgClientStats) :
    (t.accumulate st).count view = t.count view + if view.keeps st then 1 else 0 := by
  cases view with
  | all => rfl
  | active | expired | blocked =>
    simp only [HgGatewayStats.count, HgGatewayStats.accumulate, HgStateFilter.keeps, beq_iff_eq]
    split <;> rfl

theorem count_summary (view : HgStateFilter) (l : List HgClientStats) (r : HgReadAll) :
    (l.foldl HgReadAll.add r).summary.count view =
      r.summary.count view + (l.filter view.keeps).length := by
  induction l generalizing r with
  | nil => rfl
  | cons st l ih =>
    have hadd : (r.add st).summary.count view =
        r.summary.count view + if view.keeps st then 1 else 0 := count_accumulate view r.summary st
    rw [List.foldl_cons, ih, hadd, List.filter_cons]
    split
    · rw [List.length_cons, Nat.add_assoc, Nat.add_comm 1]
    · rfl

section
variable {env : SysEnv} {s : HgMaps ncpu}

theorem HgMaps.reports_eq (s : HgMaps ncpu) (env : SysEnv) (macFd : Bool) :
    s.reports env macFd = s.counters.entries.map fun e => s.report env macFd e.1 e.2 := by
  rw [reports, BoundedMap.keys, List.filterMap_map, ← List.filterMap_eq_map]
  refine List.filterMap_congr fun e he => ?_
  rw [Function.comp, BoundedMap.lookup_of_mem_entries he]
  rfl

/-- The reports show all that is on the books. -/
theorem sum_usage_reports (macFd : Bool) :
    ((s.reports env macFd).map HgClientStats.usage).sum = s.booked := by
  rw [HgMaps.reports_eq, List.map_map, HgMaps.booked, BoundedMap.sum]
  congr 1
  refine List.map_congr_left fun e _ => ?_
  exact (usage_report s env macFd e.1 e.2).trans (usage_aggregatePercpu e.2)

theorem HgReadAll.summary_arrange (qsort : Qsort) (sort : HgSortKey) (filter : HgStateFilter)
    (limit : Int32) (r : HgReadAll) :
    (r.arrange qsort sort filter limit).summary = r.summary := rfl

/-- Without a limit the array of a view has the clients that the summary counts. -/
theorem length_arrange (qsort : Qsort) (sort : HgSortKey) (view : HgStateFilter) {limit : Int32}
    (hlimit : limit ≤ 0) (r : HgReadAll) :
    (r.arrange qsort sort view limit).stats.length = (r.stats.filter view.keeps).length := by
  have hnone : ¬ (0 < limit ∧ limit.toInt <
      ((qsort.sort sort.cmp r.stats).filter view.keeps).length) :=
    fun h => absurd hlimit (Int32.not_le.mpr h.1)
  rw [HgReadAll.arrange, limitTo, if_neg hnone]
  exact ((qsort.perm sort.cmp r.stats).filter view.keeps).length_eq

end

/-! ## Runs -/

/-- Whatever packets, commands and requests did since the start, and however a summary is asked
    for, its totals are the traffic that was carried for clients with a counter but for the counts
    that a new login or a logout discarded, and its numbers of clients are those of the views. -/
theorem summary_balances (portal : HgPortalCfg) (ifb : UInt32) (es : List (GatewayEvent ncpu))
    {env : SysEnv} (hread : env.CanReadAll) (qsort : Qsort) {fuel : Nat}
    (hfuel : (run Gateway.step (.start ncpu portal ifb) es).maps.counters.size < fuel)
    (sort : HgSortKey) (filter : HgStateFilter) (limit : Int32) :
    let g := Gateway.start ncpu portal ifb
    let s := (run Gateway.step g es).maps
    ∃ r, (hgReadAll qsort fuel sort filter limit).run env s = (.done r, s) ∧
      r.summary.usage + (emitted Gateway.step Gateway.discarded g es).sum =
        (emitted Gateway.step Gateway.carried g es).sum ∧
      ∀ sort' view limit', limit' ≤ 0 → ∃ r',
        (hgReadAll qsort fuel sort' view limit').run env s = (.done r', s) ∧
          r'.stats.length = r.summary.count view := by
  intro g s
  have hopens : env.opensRead = true ∧ env.calloc = true := hread
  have hreads : ∀ sort filter limit, (hgReadAll qsort fuel sort filter limit).run env s =
      (.done (((s.reports env (env.objGet .hgIpMac)).foldl HgReadAll.add .empty).arrange
        qsort sort filter limit), s) := by
    intro sort filter limit
    rw [run_hgReadAll, if_pos hopens, if_pos hfuel]
  have hbalance : s.booked + (emitted Gateway.step Gateway.discarded g es).sum =
      0 + (emitted Gateway.step Gateway.carried g es).sum :=
    balanced_gateway.run (fun rp hrp => absurd hrp List.not_mem_nil) es
  refine ⟨_, hreads sort filter limit, ?_, fun sort' view limit' hlimit =>
    ⟨_, hreads sort' view limit', ?_⟩⟩
  · have hbooked : HgReadAll.empty.summary.usage + s.booked = s.booked := zero_add _
    rw [HgReadAll.summary_arrange, usage_summary, sum_usage_reports, hbooked, hbalance, zero_add]
  · rw [length_arrange qsort sort' view hlimit, HgReadAll.stats_foldl_add,
      HgReadAll.summary_arrange, count_summary]
    have hcount : HgReadAll.empty.summary.count view = 0 := by cases view <;> rfl
    rw [hcount, Nat.zero_add]
    rfl

/-- A client is let in twice, and uploads before and after. -/
def twoLogins : List (GatewayEvent 1) :=
  let client := Bytes.addrOfOctets 192 168 99 7
  let upload := fun len => GatewayEvent.ingress (.good ⟨0, Nat.one_pos⟩ 0)
    ⟨tcpFrame (localMac 7) client (Bytes.addrOfOctets 9 9 9 9) 40000 443, len⟩
  let add := GatewayEvent.start
    (.hgctl (.add [.iface "br0".toList, .client "192.168.99.7".toList]))
  let call := fun i => GatewayEvent.call i ⟨.good ⟨0, 0⟩, true, true, fun _ => none⟩
  [upload 54, add] ++ List.replicate 16 (call 0) ++ [upload 54, upload 1500, add] ++
    List.replicate 16 (call 1) ++ [upload 60]

/-- The second login discards what was counted before it; one client needs no sorting. -/
theorem summary_balances_two_logins :
    ∃ r, (hgReadAll ⟨fun _ l => l, fun _ l => .refl l⟩ 2 .dnBytes .blocked 0).run (.good ⟨0, 0⟩)
      (run Gateway.step (.start 1 .standard 5) twoLogins).maps =
        (.done r, (run Gateway.step (.start 1 .standard 5) twoLogins).maps) ∧
      r.summary.usage + ((1554, 2), (0, 0)) = ((1614, 3), (0, 0)) := by
  have hdiscarded : (emitted Gateway.step Gateway.discarded (.start 1 .standard 5) twoLogins).sum =
      ((1554, 2), (0, 0)) := by decide +kernel
  have hcarried : (emitted Gateway.step Gateway.carried (.start 1 .standard 5) twoLogins).sum =
      ((1614, 3), (0, 0)) := by decide +kernel
  have hread : (SysEnv.good ⟨0, 0⟩).CanReadAll := ⟨rfl, rfl⟩
  have hfuel : (run Gateway.step (.start 1 .standard 5) twoLogins).maps.counters.size < 2 := by
    decide +kernel
  obtain ⟨r, hdone, hbalance, -⟩ := summary_balances .standard 5 twoLogins hread
    ⟨fun _ l => l, fun _ l => .refl l⟩ hfuel .dnBytes .blocked 0
  rw [hdiscarded, hcarried] at hbalance
  exact ⟨r, hdone, hbalance⟩

end HawkGate
