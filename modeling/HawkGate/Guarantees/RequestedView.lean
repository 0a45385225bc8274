-- SUMMARY: When a read of all clients returns them in the order that was asked for.
import HawkGate.Control.ReadAll
import HawkGate.Lib.Comparator

/-!
# The requested view

A read of all clients sorts, filters and limits its array. Two of the four
comparators return a difference of wall-clock seconds narrowed to 32 bits, and with
times that are far apart, such as 0 for a client that was never seen, the sign of
what is left need not be that of the difference.
-/

namespace HawkGate

open Comparator

variable {ncpu : Nat}

/-! ## An array as requested -/

/-- The documented order: more bytes first, most recently active first, oldest session first. -/
def HgSortKey.Before : HgSortKey → HgClientStats → HgClientStats → Prop
  | .dnBytes, x, y => y.dnBytes ≤ x.dnBytes
  | .upBytes, x, y => y.upBytes ≤ x.upBytes
  | .lastSeen, x, y => y.lastSeen ≤ x.lastSeen
  | .age, x, y => x.authTime ≤ y.authTime

/-- The array begins the clients that match the filter in the requested order, holds each once,
    and is as long as the limit lets it be. -/
structure RequestedView (sort : HgSortKey) (filter : HgStateFilter) (limit : Int32)
    (clients arr : List HgClientStats) : Prop where
  once : (arr.map HgClientStats.ipKey).Nodup
  ordered : ∃ l : List HgClientStats, l.Perm (clients.filter filter.keeps) ∧
    l.Pairwise sort.Before ∧ arr <+: l
  length : arr.length =
    if 0 < limit then min limit.toInt.toNat (clients.filter filter.keeps).length
    else (clients.filter filter.keeps).length

/-- The maps of a read of all clients open and there is memory. -/
def SysEnv.CanReadAll (env : SysEnv) : Prop := env.opensRead = true ∧ env.calloc = true

/-- With any correct sorting routine a read by this key returns the view that is asked for. -/
def ReturnsView (env : SysEnv) (s : HgMaps ncpu) (sort : HgSortKey) : Prop :=
  ∀ qsort : Qsort, Sorts qsort.sort → ∀ filter limit fuel, s.counters.size < fuel →
    match ((hgReadAll qsort fuel sort filter limit).run env s).1 with
    | .failed => ¬ env.CanReadAll
    | .done r =>
      RequestedView sort filter limit (s.reports env (env.objGet .hgIpMac)) r.stats
    | .outOfFuel => False

/-! ## Differences of times -/

/-- What separates the later time from the earlier one is positive in 32 bits, as every
    difference below 2^31 seconds is. -/
def KeepsOrder (t u : Int64) : Prop :=
  t < u → 0 < (u.toInt - t.toInt) % 2 ^ 32 ∧ (u.toInt - t.toInt) % 2 ^ 32 < 2 ^ 31

theorem toInt_toInt32_sub (t u : Int64) :
    (u - t).toInt32.toInt = (u.toInt - t.toInt).bmod (2 ^ 32) := by
  rw [Int64.toInt_toInt32, Int64.toInt_sub, Int.bmod_bmod_of_dvd (by norm_num)]

theorem toInt32_sub_pos_iff (t u : Int64) :
    0 < (u - t).toInt32 ↔
      0 < (u.toInt - t.toInt) % 2 ^ 32 ∧ (u.toInt - t.toInt) % 2 ^ 32 < 2 ^ 31 := by
  have hzero : (0 : Int32).toInt = 0 := rfl
  rw [Int32.lt_iff_toInt_lt, toInt_toInt32_sub, hzero, Int.bmod_def]
  split
  · omega
  · omega

theorem toInt32_sub_neg_iff (t u : Int64) :
    (u - t).toInt32 < 0 ↔ 2 ^ 31 ≤ (u.toInt - t.toInt) % 2 ^ 32 := by
  have hzero : (0 : Int32).toInt = 0 := rfl
  rw [Int32.lt_iff_toInt_lt, toInt_toInt32_sub, hzero, Int.bmod_def]
  split
  · omega
  · omega

/-- Then the narrowed difference has the sign of the difference. -/
theorem sign_sub_of_keepsOrder {t u : Int64} (htu : KeepsOrder t u) (hut : KeepsOrder u t) :
    ((u - t).toInt32 < 0 ↔ ¬ t ≤ u) ∧ (0 < (u - t).toInt32 ↔ ¬ u ≤ t) := by
  rw [toInt32_sub_neg_iff, toInt32_sub_pos_iff, Int64.not_le, Int64.not_le]
  unfold KeepsOrder at htu hut
  rw [Int64.lt_iff_toInt_lt] at htu hut ⊢
  rw [Int64.lt_iff_toInt_lt]
  constructor
  · constructor
    · intro h
      omega
    · intro h
      have := hut h
      omega
  · constructor
    · intro h
      omega
    · exact htu

/-! ## Correct sorting gives the view -/

theorem HgSortKey.before_trans (sort : HgSortKey) (x y z : HgClientStats) (hxy : sort.Before x y)
    (hyz : sort.Before y z) : sort.Before x z := by
  cases sort with
  | dnBytes => exact UInt64.le_trans hyz hxy
  | upBytes => exact UInt64.le_trans hyz hxy
  | lastSeen => exact Int64.le_trans hyz hxy
  | age => exact Int64.le_trans hxy hyz

theorem HgSortKey.before_refl (sort : HgSortKey) (x : HgClientStats) : sort.Before x x := by
  cases sort with
  | dnBytes => exact UInt64.le_refl _
  | upBytes => exact UInt64.le_refl _
  | lastSeen => exact Int64.le_refl _
  | age => exact Int64.le_refl _

/-- The time that a key sorts by; none for the two keys that sort by bytes. -/
def HgSortKey.time : HgSortKey → HgClientStats → Int64
  | .dnBytes, _ | .upBytes, _ => 0
  | .lastSeen, st => st.lastSeen
  | .age, st => st.authTime

theorem decidesOn_cmpBytes (bytes : HgClientStats → UInt64) (l : List HgClientStats) :
    DecidesOn (cmpBytes bytes) (fun x y => bytes y ≤ bytes x) l where
  neg x _ y _ := by
    rw [UInt64.not_le]
    unfold cmpBytes
    split
    · next h => exact iff_of_false (by decide) (UInt64.not_lt.mpr (UInt64.le_of_lt h))
    · split
      · next h => exact iff_of_true (by decide) h
      · next h => exact iff_of_false (by decide) h
  pos x _ y _ := by
    rw [UInt64.not_le]
    unfold cmpBytes
    split
    · next h => exact iff_of_true (by decide) h
    · next h =>
      split
      · exact iff_of_false (by decide) h
      · exact iff_of_false (by decide) h

/-- Times that keep their order are sorted by. -/
theorem HgSortKey.decidesOn {sort : HgSortKey} {l : List HgClientStats}
    (h : ∀ x ∈ l, ∀ y ∈ l, KeepsOrder (sort.time x) (sort.time y)) :
    DecidesOn sort.cmp sort.Before l := by
  cases sort with
  | dnBytes => exact decidesOn_cmpBytes HgClientStats.dnBytes l
  | upBytes => exact decidesOn_cmpBytes HgClientStats.upBytes l
  | lastSeen =>
    exact ⟨fun x hx y hy => (sign_sub_of_keepsOrder (h x hx y hy) (h y hy x hx)).1,
      fun x hx y hy => (sign_sub_of_keepsOrder (h x hx y hy) (h y hy x hx)).2⟩
  | age =>
    exact ⟨fun x hx y hy => (sign_sub_of_keepsOrder (h y hy x hx) (h x hx y hy)).1,
      fun x hx y hy => (sign_sub_of_keepsOrder (h y hy x hx) (h x hx y hy)).2⟩

theorem length_limitTo (limit : Int32) (l : List HgClientStats) :
    (limitTo limit l).length = if 0 < limit then min limit.toInt.toNat l.length else l.length := by
  unfold limitTo
  by_cases hlimit : 0 < limit
  · have hpos : 0 < limit.toInt := Int32.lt_iff_toInt_lt.mp hlimit
    by_cases hlen : limit.toInt < l.length
    · rw [if_pos ⟨hlimit, hlen⟩, if_pos hlimit, List.length_take]
    · rw [if_neg fun h => hlen h.2, if_pos hlimit]
      omega
  · rw [if_neg fun h => hlimit h.1, if_neg hlimit]

section
variable {env : SysEnv} {s : HgMaps ncpu}

/-- Every counter is reported once. -/
theorem HgMaps.nodup_reports (macFd : Bool) :
    ((s.reports env macFd).map HgClientStats.ipKey).Nodup := by
  have hkey : ∀ ip percpu, (s.report env macFd ip percpu).ipKey = ip := by
    intro ip percpu
    rw [HgMaps.report, fillStats, Tool.run_bind, run_isExpired]
    rfl
  have hsub : ∀ keys : List IpAddr, ((keys.filterMap fun ip =>
      (s.counters.lookup ip).map (s.report env macFd ip)).map HgClientStats.ipKey).Sublist keys := by
    intro keys
    induction keys with
    | nil => exact List.Sublist.refl []
    | cons ip keys ih =>
      cases hcounter : s.counters.lookup ip with
      | none =>
        rw [List.filterMap_cons_none (by rw [hcounter]; rfl)]
        exact ih.cons ip
      | some percpu =>
        rw [List.filterMap_cons_some (b := s.report env macFd ip percpu) (by rw [hcounter]; rfl),
          List.map_cons, hkey]
        exact ih.cons_cons ip
  exact s.counters.nodup.sublist (hsub s.counters.keys)

/-- Sorting, filtering and limiting the reports gives the view if the sorting is right. -/
theorem requestedView_of_sorted {qsort : Qsort} {sort : HgSortKey} {macFd : Bool}
    (hsorted : (qsort.sort sort.cmp (s.reports env macFd)).Pairwise sort.Before)
    (filter : HgStateFilter) (limit : Int32) :
    RequestedView sort filter limit (s.reports env macFd)
      (limitTo limit ((qsort.sort sort.cmp (s.reports env macFd)).filter filter.keeps)) := by
  have hperm := (qsort.perm sort.cmp (s.reports env macFd)).filter filter.keeps
  have hinitial := prefix_limitTo limit
    ((qsort.sort sort.cmp (s.reports env macFd)).filter filter.keeps)
  refine ⟨?_, ⟨_, hperm, hsorted.filter _, hinitial⟩, ?_⟩
  · have hnodup : (((s.reports env macFd).filter filter.keeps).map HgClientStats.ipKey).Nodup :=
      (s.nodup_reports macFd).sublist (List.filter_sublist.map _)
    exact ((hperm.map _).nodup_iff.mpr hnodup).sublist (hinitial.sublist.map _)
  · rw [length_limitTo, hperm.length_eq]

/-- What a read with a given sorting routine returns is the view. -/
theorem returnsView_iff_arranged (sort : HgSortKey) :
    ReturnsView env s sort ↔ (env.CanReadAll → ∀ qsort : Qsort, Sorts qsort.sort →
      ∀ filter limit, RequestedView sort filter limit (s.reports env (env.objGet .hgIpMac))
        (limitTo limit ((qsort.sort sort.cmp
          (s.reports env (env.objGet .hgIpMac))).filter filter.keeps))) := by
  have hstats : ((s.reports env (env.objGet .hgIpMac)).foldl HgReadAll.add .empty).stats =
      s.reports env (env.objGet .hgIpMac) := HgReadAll.stats_foldl_add _ _
  unfold ReturnsView
  by_cases hok : env.CanReadAll
  · have hboth : env.opensRead = true ∧ env.calloc = true := hok
    constructor
    · intro h _ qsort hsort filter limit
      have := h qsort hsort filter limit (s.counters.size + 1) (Nat.lt_succ_self _)
      rw [run_hgReadAll, if_pos hboth, if_pos (Nat.lt_succ_self _)] at this
      simpa only [HgReadAll.arrange, hstats] using this
    · intro h qsort hsort filter limit fuel hfuel
      rw [run_hgReadAll, if_pos hboth, if_pos hfuel]
      simpa only [HgReadAll.arrange, hstats] using h hok qsort hsort filter limit
  · constructor
    · exact fun _ h => absurd h hok
    · intro _ qsort hsort filter limit fuel hfuel
      rw [run_hgReadAll, if_neg (show ¬ (env.opensRead = true ∧ env.calloc = true) from hok)]
      exact hok

/-- Two reports that the comparator allows in this order are in order. -/
theorem ReturnsView.before {sort : HgSortKey} (h : ReturnsView env s sort) (hok : env.CanReadAll)
    {x y : HgClientStats} (hx : x ∈ s.reports env (env.objGet .hgIpMac))
    (hy : y ∈ s.reports env (env.objGet .hgIpMac)) (hle : sort.cmp x y ≤ 0) : sort.Before x y := by
  by_cases hne : x = y
  · exact hne ▸ sort.before_refl x
  · -- some correct routine leaves them in this order, and nothing is left out
    obtain ⟨qsort, hsort, hsub⟩ := exists_sorts_sublist hx hy hne hle
    have hview := (returnsView_iff_arranged sort).mp h hok ⟨qsort, hsort.perm⟩ hsort .all 0
    have hall : ∀ l : List HgClientStats, limitTo 0 (l.filter HgStateFilter.all.keeps) = l := by
      intro l
      rw [limitTo, if_neg fun h => absurd h.1 (by decide)]
      exact List.filter_eq_self.mpr fun _ _ => rfl
    obtain ⟨l, hperm, hbefore, hinitial⟩ := hview.ordered
    have hlen := hview.length
    rw [if_neg (by decide), ← hperm.length_eq] at hlen
    have heq := hinitial.eq_of_length hlen
    rw [hall] at heq
    rw [← heq] at hbefore
    exact List.pairwise_pair.mp (hbefore.sublist hsub)

/-! ## When it is so -/

/-- Seconds between the wall clock and the boot clock. -/
def SysEnv.bootOffset (env : SysEnv) : Int64 :=
  (env.clock .realtime).sec - (env.clock .boottime).sec

/-- The wall-clock time that a client is sorted by: of its last packet, or of the login of the
    session found for it. -/
def HgMaps.sortTime (s : HgMaps ncpu) (env : SysEnv) (sort : HgSortKey) (ip : IpAddr)
    (percpu : Fin ncpu → HgCounter) : Int64 :=
  match sort with
  | .dnBytes | .upBytes => 0
  | .lastSeen => wallSec env.bootOffset (aggregatePercpu percpu).lastSeen
  | .age => wallSec env.bootOffset (s.foundSession (env.objGet .hgIpMac) ip).2.authNs

/-- The times of any two clients keep their order when their difference is narrowed. -/
def TimesKeepOrder (env : SysEnv) (s : HgMaps ncpu) (sort : HgSortKey) : Prop :=
  ∀ ip percpu ip' percpu', s.counters.lookup ip = some percpu →
    s.counters.lookup ip' = some percpu' →
      KeepsOrder (s.sortTime env sort ip percpu) (s.sortTime env sort ip' percpu')

theorem time_report (sort : HgSortKey) (ip : IpAddr) (percpu : Fin ncpu → HgCounter) :
    sort.time (s.report env (env.objGet .hgIpMac) ip percpu) = s.sortTime env sort ip percpu := by
  cases sort with
  | dnBytes => rfl
  | upBytes => rfl
  | lastSeen =>
    rw [HgMaps.report, fillStats, Tool.run_bind, run_isExpired]
    rfl
  | age =>
    rw [HgMaps.report, fillStats, Tool.run_bind, run_isExpired]
    rfl

theorem HgMaps.report_mem_reports {macFd : Bool} {ip : IpAddr} {percpu : Fin ncpu → HgCounter}
    (h : s.counters.lookup ip = some percpu) :
    s.report env macFd ip percpu ∈ s.reports env macFd := by
  refine List.mem_filterMap.mpr ⟨ip, ?_, by rw [h]; rfl⟩
  rw [BoundedMap.mem_keys_iff, h]
  rfl

theorem ReturnsView.timesKeepOrder {sort : HgSortKey} (h : ReturnsView env s sort)
    (hok : env.CanReadAll) : TimesKeepOrder env s sort := by
  intro ip percpu ip' percpu' hcounter hcounter'
  rw [← time_report, ← time_report]
  have hx : s.report env (env.objGet .hgIpMac) ip percpu ∈ s.reports env (env.objGet .hgIpMac) :=
    HgMaps.report_mem_reports hcounter
  have hy : s.report env (env.objGet .hgIpMac) ip' percpu' ∈ s.reports env (env.objGet .hgIpMac) :=
    HgMaps.report_mem_reports hcounter'
  intro hlt
  by_contra hnot
  -- the later time does not come out later, so the clients may stand in the wrong order
  rw [← toInt32_sub_pos_iff, Int32.not_lt] at hnot
  cases sort with
  | dnBytes => exact Int64.lt_irrefl hlt
  | upBytes => exact Int64.lt_irrefl hlt
  | lastSeen => exact absurd (h.before hok hx hy hnot) (Int64.not_le.mpr hlt)
  | age => exact absurd (h.before hok hy hx hnot) (Int64.not_le.mpr hlt)

/-- A read of all clients returns the view that is asked for exactly if the times it sorts by keep
    their order. -/
theorem returnsView_iff (env : SysEnv) (s : HgMaps ncpu) (sort : HgSortKey) :
    ReturnsView env s sort ↔ (env.CanReadAll → TimesKeepOrder env s sort) := by
  constructor
  · exact fun h hok => h.timesKeepOrder hok
  · intro h
    rw [returnsView_iff_arranged]
    intro hok qsort hsort filter limit
    refine requestedView_of_sorted (hsort.pairwise (HgSortKey.decidesOn ?_) sort.before_trans)
      filter limit
    intro x hx y hy
    obtain ⟨ip, percpu, hcounter, rfl⟩ := HgMaps.mem_reports hx
    obtain ⟨ip', percpu', hcounter', rfl⟩ := HgMaps.mem_reports hy
    rw [time_report, time_report]
    exact h hok ip percpu ip' percpu' hcounter hcounter'

end

/-- A client that sent a packet a day after the start of the host and one that never did. -/
def seenAndUnseen : HgMaps 1 :=
  { HgMaps.start 1 .standard 0 with
    counters := (BoundedMap.empty.put (Bytes.addrOfOctets 192 168 99 82)
      fun _ => { HgCounter.zero with lastSeen := 86400000000000 }).put
        (Bytes.addrOfOctets 192 168 99 83) fun _ => HgCounter.zero }

/-- A day after the start of the host, in the year 2040. -/
def inTheYear2040 : SysEnv :=
  { SysEnv.good ⟨2208988800, 0⟩ with
    clock := fun
      | .realtime => ⟨2208988800, 0⟩
      | _ => ⟨86400, 0⟩ }

def seenReport : HgClientStats :=
  seenAndUnseen.report inTheYear2040 true (Bytes.addrOfOctets 192 168 99 82)
    fun _ => { HgCounter.zero with lastSeen := 86400000000000 }

def unseenReport : HgClientStats :=
  seenAndUnseen.report inTheYear2040 true (Bytes.addrOfOctets 192 168 99 83)
    fun _ => HgCounter.zero

/-- The client that was never seen is sorted before the one that was seen just now. -/
theorem unseen_client_sorted_first :
    HgSortKey.lastSeen.cmp unseenReport seenReport < 0 ∧
      unseenReport.lastSeen < seenReport.lastSeen ∧
      ¬ ReturnsView inTheYear2040 seenAndUnseen .lastSeen := by
  have hcmp : HgSortKey.lastSeen.cmp unseenReport seenReport < 0 := by decide +kernel
  have hlater : unseenReport.lastSeen < seenReport.lastSeen := by decide +kernel
  refine ⟨hcmp, hlater, fun h => ?_⟩
  have hbefore : seenReport.lastSeen ≤ unseenReport.lastSeen :=
    h.before ⟨rfl, rfl⟩ (HgMaps.report_mem_reports rfl) (HgMaps.report_mem_reports rfl)
      (Int32.le_of_lt hcmp)
  exact absurd hlater (Int64.not_lt.mpr hbefore)

end HawkGate
