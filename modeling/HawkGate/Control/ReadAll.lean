-- SUMMARY: `hg_read_all`: the statistics of all clients with the totals of the gateway, and what it reports.
import HawkGate.Control.Reader

/-!
# Reading all clients

`hg_read_all` of `hg_reader.c` with the functions that only it calls. It counts
the counters in a first pass and reads each of them in a second. Both passes go
on until `bpf_map_get_next_key` fails, so they run on fuel; a read that nobody
disturbs needs one unit more than there are counters.
-/

namespace HawkGate

open CString

variable {ncpu : Nat}

/-! ## Order, filter and limit -/

/-- `qsort` of the C library. What matters here is that it only moves the entries. -/
structure Qsort where
  sort : (HgClientStats → HgClientStats → Int32) → List HgClientStats → List HgClientStats
  perm : ∀ cmp l, (sort cmp l).Perm l

/-- The entry with the larger number of bytes comes first. -/
def cmpBytes (bytes : HgClientStats → UInt64) (x y : HgClientStats) : Int32 :=
  if bytes x < bytes y then 1 else if bytes y < bytes x then -1 else 0

def cmpDnBytes : HgClientStats → HgClientStats → Int32 := cmpBytes HgClientStats.dnBytes

def cmpUpBytes : HgClientStats → HgClientStats → Int32 := cmpBytes HgClientStats.upBytes

def cmpLastSeen (x y : HgClientStats) : Int32 := (y.lastSeen - x.lastSeen).toInt32

def cmpAge (x y : HgClientStats) : Int32 := (x.authTime - y.authTime).toInt32

inductive HgSortKey where
  | dnBytes | upBytes | lastSeen | age

def HgSortKey.cmp : HgSortKey → HgClientStats → HgClientStats → Int32
  | .dnBytes => cmpDnBytes
  | .upBytes => cmpUpBytes
  | .lastSeen => cmpLastSeen
  | .age => cmpAge

inductive HgStateFilter where
  | all | active | expired | blocked

def HgStateFilter.keeps (filter : HgStateFilter) (s : HgClientStats) : Bool :=
  match filter with
  | .all => true
  | .active => s.state == ClientStatus.authOk.code.toInt32
  | .expired => s.state == ClientStatus.expire.code.toInt32
  | .blocked => s.state == ClientStatus.block.code.toInt32

/-- At most `limit` entries; 0 and negative limits are none. -/
def limitTo (limit : Int32) (l : List HgClientStats) : List HgClientStats :=
  if 0 < limit ∧ limit.toInt < l.length then l.take limit.toInt.toNat else l

/-! ## Totals -/

/-- Totals of the gateway. -/
structure HgGatewayStats where
  totalClients : Nat
  activeClients : Nat
  expiredClients : Nat
  blockedClients : Nat
  totalUpBytes : UInt64
  totalDnBytes : UInt64
  totalUpPackets : UInt64
  totalDnPackets : UInt64

def HgGatewayStats.zero : HgGatewayStats := ⟨0, 0, 0, 0, 0, 0, 0, 0⟩

/-- Add one client, whose traffic is what `fill_stats` took from the same counter. -/
def HgGatewayStats.accumulate (t : HgGatewayStats) (s : HgClientStats) : HgGatewayStats where
  totalClients := t.totalClients + 1
  activeClients :=
    if s.state = ClientStatus.authOk.code.toInt32 then t.activeClients + 1 else t.activeClients
  expiredClients :=
    if s.state = ClientStatus.expire.code.toInt32 then t.expiredClients + 1 else t.expiredClients
  blockedClients :=
    if s.state = ClientStatus.block.code.toInt32 then t.blockedClients + 1 else t.blockedClients
  totalUpBytes := t.totalUpBytes + s.upBytes
  totalDnBytes := t.totalDnBytes + s.dnBytes
  totalUpPackets := t.totalUpPackets + s.upPackets
  totalDnPackets := t.totalDnPackets + s.dnPackets

/-- The array of a read and, where the caller asks for it, the summary. -/
structure HgReadAll where
  stats : List HgClientStats
  summary : HgGatewayStats

def HgReadAll.empty : HgReadAll := ⟨[], .zero⟩

def HgReadAll.add (r : HgReadAll) (s : HgClientStats) : HgReadAll :=
  ⟨r.stats ++ [s], r.summary.accumulate s⟩

/-- Sort, filter and limit the array. The summary covers all clients. -/
def HgReadAll.arrange (qsort : Qsort) (sort : HgSortKey) (filter : HgStateFilter) (limit : Int32)
    (r : HgReadAll) : HgReadAll :=
  { r with stats := limitTo limit ((qsort.sort sort.cmp r.stats).filter filter.keeps) }

/-! ## hg_read_all -/

/-- The first pass counts the keys behind `prev`; `none` when the fuel runs out. -/
def countCounters : Nat → Option IpAddr → Nat → Tool ncpu (Option Nat)
  | 0, _, _ => pure none
  | fuel + 1, prev, total => do
    match ← sys (.nextCounterKey prev) with
    | none => pure (some total)
    | some key => countCounters fuel (some key) (total + 1)

/-- The second pass reads the keys behind `prev`, and stops when the array is full. -/
def fillStatsBuf (macFd : Bool) (total : Nat) :
    Nat → Option IpAddr → HgReadAll → Tool ncpu (Option HgReadAll)
  | 0, _, _ => pure none
  | fuel + 1, prev, r => do
    match ← sys (.nextCounterKey prev) with
    | none => pure (some r)
    | some key =>
      if r.stats.length < total then
        let entry ← readEntry macFd key
        fillStatsBuf macFd total fuel (some key) (entry.elim r r.add)
      else pure (some r)

/-- How a read ends. -/
inductive ReadAllOutcome where
  | failed
  | done (r : HgReadAll)
  | outOfFuel

def closeReadMaps : Tool ncpu Unit := do
  sys (.close .hgCounters)
  sys (.close .hgClients)
  sys (.close .hgRates)

def hgReadAll (qsort : Qsort) (fuel : Nat) (sort : HgSortKey) (filter : HgStateFilter)
    (limit : Int32) : Tool ncpu ReadAllOutcome := do
  if ← openReadMaps then
    let macFd ← sys (.objGet .hgIpMac)
    if ← sys .calloc then
      match ← countCounters fuel none 0 with
      | none => pure .outOfFuel
      | some 0 =>
        -- neither this exit nor the one without memory for the array closes the binding map
        closeReadMaps
        pure (.done .empty)
      | some total =>
        if ← sys .calloc then
          match ← fillStatsBuf macFd total fuel none .empty with
          | none => pure .outOfFuel
          | some r =>
            closeIf macFd .hgIpMac
            closeReadMaps
            pure (.done (r.arrange qsort sort filter limit))
        else
          closeReadMaps
          pure .failed
    else
      closeIf macFd .hgIpMac
      closeReadMaps
      pure .failed
  else pure .failed

/-! ## What a read of all clients reports -/

section
variable {env : SysEnv} {s : HgMaps ncpu}

/-- The reports of all counters, in the order of the keys. -/
def HgMaps.reports (s : HgMaps ncpu) (env : SysEnv) (macFd : Bool) : List HgClientStats :=
  s.counters.keys.filterMap fun ip => (s.counters.lookup ip).map (s.report env macFd ip)

theorem HgMaps.mem_reports {macFd : Bool} {st : HgClientStats} (h : st ∈ s.reports env macFd) :
    ∃ ip percpu, s.counters.lookup ip = some percpu ∧ st = s.report env macFd ip percpu := by
  obtain ⟨ip, -, hst⟩ := List.mem_filterMap.mp h
  obtain ⟨percpu, hcounter, hst⟩ := Option.map_eq_some_iff.mp hst
  exact ⟨ip, percpu, hcounter, hst.symm⟩

theorem HgReadAll.stats_foldl_add (l : List HgClientStats) (r : HgReadAll) :
    (l.foldl HgReadAll.add r).stats = r.stats ++ l := by
  induction l generalizing r with
  | nil => simp
  | cons a l ih =>
    rw [List.foldl_cons, ih, HgReadAll.add, List.append_assoc]
    rfl

theorem prefix_limitTo (limit : Int32) (l : List HgClientStats) : limitTo limit l <+: l := by
  unfold limitTo
  split
  · exact List.take_prefix _ _
  · exact List.prefix_rfl

/-- Arranging the array repeats no address. -/
theorem HgReadAll.nodup_arrange {qsort : Qsort} {sort : HgSortKey} {filter : HgStateFilter}
    {limit : Int32} {r : HgReadAll} (h : (r.stats.map HgClientStats.ipKey).Nodup) :
    ((r.arrange qsort sort filter limit).stats.map HgClientStats.ipKey).Nodup := by
  have hsorted := ((qsort.perm sort.cmp r.stats).map HgClientStats.ipKey).nodup_iff.mpr h
  exact hsorted.sublist (((prefix_limitTo _ _).sublist.trans List.filter_sublist).map _)

/-- Arranging the array adds nothing to it. -/
theorem HgReadAll.mem_arrange {qsort : Qsort} {sort : HgSortKey} {filter : HgStateFilter}
    {limit : Int32} {r : HgReadAll} {st : HgClientStats}
    (h : st ∈ (r.arrange qsort sort filter limit).stats) : st ∈ r.stats := by
  have hsorted := (List.mem_filter.mp ((prefix_limitTo _ _).mem h)).1
  exact (qsort.perm _ _).mem_iff.mp hsorted

theorem HgReadAll.arrange_empty (qsort : Qsort) (sort : HgSortKey) (filter : HgStateFilter)
    (limit : Int32) : HgReadAll.empty.arrange qsort sort filter limit = .empty := by
  have hnil : qsort.sort sort.cmp [] = [] := (qsort.perm _ _).eq_nil
  simp [HgReadAll.arrange, HgReadAll.empty, hnil, limitTo]

/-- The first pass counts the keys that are left. -/
theorem run_countCounters (env : SysEnv) (fuel : Nat) {visited rest : List IpAddr} (total : Nat)
    (h : s.counters.keys = visited ++ rest) :
    (countCounters fuel visited.getLast? total).run env s =
      (if rest.length < fuel then some (total + rest.length) else none, s) := by
  -- the last key visited is the one that the next call passes
  induction fuel generalizing visited rest total with
  | zero => rfl
  | succ fuel ih =>
    rw [countCounters, Tool.run_bind, Tool.run_sys, Sys.exec, BoundedMap.nextKey_getLast? h]
    cases rest with
    | nil => simp
    | cons key rest =>
      have hnext : s.counters.keys = (visited ++ [key]) ++ rest := by rw [h, List.append_cons]
      have := ih (total + 1) hnext
      rw [List.getLast?_concat] at this
      rw [List.head?_cons]
      simpa [Nat.add_assoc, Nat.add_comm 1] using this

/-- The second pass reports the keys that are left, if the array has room for them. -/
theorem run_fillStatsBuf (env : SysEnv) (macFd : Bool) (total fuel : Nat)
    {visited rest : List IpAddr} {r : HgReadAll} (h : s.counters.keys = visited ++ rest)
    (hroom : r.stats.length + rest.length ≤ total) :
    (fillStatsBuf macFd total fuel visited.getLast? r).run env s =
      (if rest.length < fuel then
        some ((rest.filterMap fun ip =>
          (s.counters.lookup ip).map (s.report env macFd ip)).foldl HgReadAll.add r)
        else none, s) := by
  -- a key takes at most one slot, so there is a slot for each key that is left
  induction fuel generalizing visited rest r with
  | zero => rfl
  | succ fuel ih =>
    rw [fillStatsBuf, Tool.run_bind, Tool.run_sys, Sys.exec, BoundedMap.nextKey_getLast? h]
    cases rest with
    | nil => simp
    | cons key rest =>
      have hnext : s.counters.keys = (visited ++ [key]) ++ rest := by rw [h, List.append_cons]
      have hstate : ((readEntry macFd key).run env s).2 = s :=
        (only_readEntry_reads macFd key).run_state (fun s _ h => h.exec_state env s) s
      rw [List.length_cons] at hroom
      rw [List.head?_cons]
      simp only [if_pos (show r.stats.length < total by omega), Tool.run_bind, hstate,
        run_readEntry]
      have hlast : some key = (visited ++ [key]).getLast? := List.getLast?_concat.symm
      rw [hlast]
      cases hentry : s.counters.lookup key with
      | none =>
        rw [Option.map_none, Option.elim_none, ih hnext (by omega)]
        simp [hentry]
      | some percpu =>
        rw [Option.map_some, Option.elim_some, ih hnext (by simp [HgReadAll.add]; omega)]
        simp [hentry]

/-- A read with enough fuel arranges the reports of all counters if the maps open and there is
    memory, and changes no map. -/
theorem run_hgReadAll (qsort : Qsort) (fuel : Nat) (sort : HgSortKey) (filter : HgStateFilter)
    (limit : Int32) :
    (hgReadAll qsort fuel sort filter limit).run env s =
      (if env.opensRead = true ∧ env.calloc = true then
        if s.counters.size < fuel then
          .done (((s.reports env (env.objGet .hgIpMac)).foldl HgReadAll.add .empty).arrange
            qsort sort filter limit)
        else .outOfFuel
      else .failed, s) := by
  have hkeys : s.counters.keys = [] ++ s.counters.keys := rfl
  have hcount : (countCounters fuel none 0).run env s =
      (if s.counters.size < fuel then some s.counters.size else none, s) := by
    have := run_countCounters env fuel 0 hkeys
    rwa [BoundedMap.length_keys, Nat.zero_add] at this
  have hfill : (fillStatsBuf (env.objGet .hgIpMac) s.counters.size fuel none .empty).run env s =
      (if s.counters.size < fuel then
        some ((s.reports env (env.objGet .hgIpMac)).foldl HgReadAll.add .empty) else none, s) := by
    have hroom : HgReadAll.empty.stats.length + s.counters.keys.length ≤ s.counters.size := by
      rw [BoundedMap.length_keys]
      exact Nat.le_of_eq (Nat.zero_add _)
    have := run_fillStatsBuf env (env.objGet .hgIpMac) s.counters.size fuel hkeys hroom
    rwa [BoundedMap.length_keys] at this
  unfold hgReadAll
  simp only [Tool.run_bind, run_openReadMaps]
  cases hopen : env.opensRead with
  | false => rfl
  | true =>
    cases hcalloc : env.calloc with
    | false => simp [hcalloc, Sys.exec, run_closeIf, closeReadMaps]
    | true =>
      by_cases hfuel : s.counters.size < fuel
      · rw [if_pos hfuel] at hcount hfill
        cases hsize : s.counters.size with
        | zero =>
          -- the early exit hands out what both passes would have
          have hnone : s.reports env (env.objGet .hgIpMac) = [] := by
            rw [HgMaps.reports, List.eq_nil_of_length_eq_zero (s.counters.length_keys.trans hsize)]
            rfl
          rw [hsize] at hcount hfuel
          simp [hcalloc, Sys.exec, hcount, hfuel, hnone, HgReadAll.arrange_empty, closeReadMaps]
        | succ n =>
          rw [hsize] at hcount hfill hfuel
          simp [hcalloc, Sys.exec, hcount, hfill, hfuel, closeReadMaps, run_closeIf]
      · rw [if_neg hfuel] at hcount
        simp [hcalloc, Sys.exec, hcount, hfuel]

end

end HawkGate
