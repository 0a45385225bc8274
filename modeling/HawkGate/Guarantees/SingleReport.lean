-- SUMMARY: When a read of all clients reports no client twice while commands insert and delete counters.
import HawkGate.Lib.Interference
import HawkGate.System.Host
import HawkGate.System.Reading
import Mathlib.Data.List.Sort

/-!
# One report for each client

The second pass of a read walks through the counters by their keys, and the walk
starts again when the key it stands on has been deleted. It reports no address
twice as long as that does not happen and no address is put behind it again.
-/

namespace HawkGate

open HawkGate.Frame Cursor Transition

variable {ncpu : Nat}

/-- No address is reported twice, and the summary adds up one report for each address whose
    counter was read. -/
structure SingleReports (log : ReadLog) (r : HgReadAll) : Prop where
  array : (r.stats.map HgClientStats.ipKey).Nodup
  counted : log.counted.Nodup
  summary : ∃ entries : List HgClientStats, entries.map HgClientStats.ipKey = log.counted ∧
    r.summary = entries.foldl HgGatewayStats.accumulate .zero

/-- A read that has returned reports no client twice. -/
def ReportsOnce (st : ReadingHost ncpu) : Prop :=
  ∀ r, st.reader = .ret (.done r) → SingleReports st.log r

/-- While the second pass has room left, the counter it stands on stays, and no address that it
    was given is put behind it again. -/
def ReadLog.CursorKept (log : ReadLog) (before after : List IpAddr) : Prop :=
  log.passes = 2 → log.counted.length < log.total → ∀ c ∈ log.cursor,
    c ∈ after ∧ ∀ a ∈ log.visited, a ∉ before → ¬ [c, a].Sublist after

instance (log : ReadLog) (before after : List IpAddr) :
    Decidable (log.CursorKept before after) :=
  haveI (c : IpAddr) : Decidable (∀ a ∈ log.visited, a ∉ before → ¬ [c, a].Sublist after) :=
    List.decidableBAll _ log.visited
  haveI : Decidable (∀ c ∈ log.cursor,
      c ∈ after ∧ ∀ a ∈ log.visited, a ∉ before → ¬ [c, a].Sublist after) :=
    Option.decidableForallMem log.cursor
  @instDecidableForall _ _ _ instDecidableForall

def KeepsCursor (st : ReadingHost ncpu) (e : ReadingEvent ncpu) : Prop :=
  match e with
  | .read _ => True
  | .other _ _ =>
    st.log.CursorKept st.host.maps.counters.keys (st.step e).host.maps.counters.keys

instance (st : ReadingHost ncpu) (e : ReadingEvent ncpu) : Decidable (KeepsCursor st e) :=
  match e with
  | .read _ => inferInstanceAs (Decidable True)
  | .other _ _ => inferInstanceAs (Decidable (ReadLog.CursorKept _ _ _))

/-! ## The program of a read -/

/-- What the read has seen and the maps. -/
abbrev ReadState (ncpu : Nat) := ReadLog × HgMaps ncpu

/-- A call of the read. -/
def ReadCall {β : Type} (st : ReadState ncpu) (op : Sys ncpu β) (b : β) (st' : ReadState ncpu) :
    Prop :=
  ∃ env, (Sys.exec env st.2 op).1 = b ∧ st' = (st.1.note op b, (Sys.exec env st.2 op).2)

/-- A step of others that does not disturb the read. -/
def OthersStep (st st' : ReadState ncpu) : Prop :=
  st'.1 = st.1 ∧ OrderKept st.2.counters.keys st'.2.counters.keys ∧
    st.1.CursorKept st.2.counters.keys st'.2.counters.keys

/-- The precondition of a part of the read. -/
abbrev readWp {α : Type} (p : Tool ncpu α) (Q : α → ReadState ncpu → Prop)
    (st : ReadState ncpu) : Prop :=
  Prog.wp ReadCall OthersStep p Q st

/-- The calls that the log does not show. -/
def Sys.Unlogged {β : Type} : Sys ncpu β → Prop
  | .nextCounterKey _ | .lookupCounter _ => False
  | op => op.Reads

theorem Sys.Unlogged.call {β : Type} {op : Sys ncpu β} (h : op.Unlogged) {st st' : ReadState ncpu}
    {b : β} (hcall : ReadCall st op b st') : st' = st := by
  obtain ⟨env, -, rfl⟩ := hcall
  cases op with
  | objGet | close | calloc | clockGettime | lookupClient | lookupRate | lookupMacIp
  | lookupIpMac => rfl
  | _ => exact h.elim

theorem unlogged_objGet (map : MapName) : (Sys.objGet map : Sys ncpu Bool).Unlogged := trivial

theorem unlogged_close (map : MapName) : (Sys.close map : Sys ncpu Unit).Unlogged := trivial

theorem unlogged_calloc : (Sys.calloc : Sys ncpu Bool).Unlogged := trivial

theorem allowsRead_unlogged : AllowsRead (fun op : Sys ncpu _ => op.Unlogged) := by
  constructor
  all_goals exact fun _ => trivial

/-- What a step of others keeps, any number of them keep. -/
theorem of_reach (Inv : ReadState ncpu → Prop) {st st' : ReadState ncpu}
    (hreach : Relation.ReflTransGen OthersStep st st') (hst : Inv st)
    (hothers : ∀ st st', Inv st → OthersStep st st' → Inv st') : Inv st' :=
  Prog.inv_of_rely hothers hst hreach

theorem ensures_readFound (macFd : Bool) (ip : IpAddr) (percpu : Fin ncpu → HgCounter) :
    (readFound macFd ip percpu).Ensures fun entry => ∃ st, entry = some st ∧ st.ipKey = ip := by
  refine Prog.ensures_bind _ fun session => Prog.ensures_bind _ fun rate => ?_
  refine Prog.Ensures.bind ?_ fun st hst => Prog.ensures_pure ⟨st, rfl, hst⟩
  exact Prog.ensures_bind _ fun expired => Prog.ensures_bind _ fun real =>
    Prog.ensures_bind _ fun boot => Prog.ensures_pure rfl

/-- A program whose calls the log does not show returns with what others keep. -/
theorem readWp_unlogged {α : Type} {p : Tool ncpu α} {R : α → Prop} (Inv : ReadState ncpu → Prop)
    (hp : p.Only Sys.Unlogged) (hR : p.Ensures R)
    (hothers : ∀ st st', Inv st → OthersStep st st' → Inv st') {st : ReadState ncpu}
    (hst : Inv st) : readWp p (fun a st => R a ∧ Inv st) st := by
  refine Prog.wp_of_inv hothers ?_ hp hR hst
  intro β st op b st' hinv hop hcall
  exact hop.call hcall ▸ hinv

/-! ## The first pass -/

/-- The first pass has counted `total` addresses. -/
structure FirstPass (prev : Option IpAddr) (total : Nat) (st : ReadState ncpu) : Prop where
  passes : st.1.passes = if prev = none then 0 else 1
  total : st.1.total = total
  visited : st.1.visited = []
  counted : st.1.counted = []

/-- The first pass is over. -/
structure Counted (total : Nat) (log : ReadLog) : Prop where
  passes : log.passes = 1
  total : log.total = total
  visited : log.visited = []
  counted : log.counted = []

theorem FirstPass.others {prev : Option IpAddr} {total : Nat} {st st' : ReadState ncpu}
    (h : FirstPass prev total st) (hstep : OthersStep st st') : FirstPass prev total st' := by
  obtain ⟨hlog, -, -⟩ := hstep
  constructor
  · rw [hlog, h.passes]
  · rw [hlog, h.total]
  · rw [hlog, h.visited]
  · rw [hlog, h.counted]

theorem readWp_countCounters (fuel : Nat) {prev : Option IpAddr} {total : Nat}
    {st : ReadState ncpu} (h : FirstPass prev total st) :
    readWp (countCounters fuel prev total)
      (fun res st => ∀ n, res = some n → Counted n st.1) st := by
  induction fuel generalizing prev total st with
  | zero =>
    refine Prog.wp_pure ?_
    rintro n ⟨⟩
  | succ fuel ih =>
    refine Prog.wp_bind (Prog.wp_perform ?_)
    rintro st₁ hreach key st₂ ⟨env, hkey, rfl⟩
    have h₁ : FirstPass prev total st₁ := of_reach _ hreach h fun _ _ => FirstPass.others
    have hpass : (if prev = none then st₁.1.passes + 1 else st₁.1.passes) = 1 := by
      rw [h₁.passes]
      split
      · rfl
      · rfl
    cases key with
    | none =>
      refine Prog.wp_pure ?_
      rintro n ⟨⟩
      simp only [ReadLog.note, hpass, if_true, Option.toList_none, List.length_nil, Nat.add_zero]
      exact ⟨rfl, h₁.total, h₁.visited, h₁.counted⟩
    | some key =>
      refine ih ?_
      simp only [ReadLog.note, hpass, if_true, Option.toList_some, List.length_singleton]
      exact ⟨rfl, congrArg (· + 1) h₁.total, h₁.visited, h₁.counted⟩

/-! ## The second pass -/

/-- The second pass stands behind `prev`, in its place while it has room left. -/
structure Walk (total : Nat) (prev : Option IpAddr) (st : ReadState ncpu) : Prop where
  passes : st.1.passes = if prev = none then 1 else 2
  counts : st.1.total = total
  fresh : prev = none → st.1.visited = []
  cursor : prev ≠ none → st.1.cursor = prev
  visited : st.1.visited.Nodup
  counted : st.1.counted.Sublist st.1.visited
  placed : st.1.counted.length < total → ∀ c, prev = some c →
    Placed st.1.visited c st.2.counters.keys

/-- The reports are those of the counters that were read. -/
structure ReportsRead (r : HgReadAll) (log : ReadLog) : Prop where
  stats : r.stats.map HgClientStats.ipKey = log.counted
  summary : r.summary = r.stats.foldl HgGatewayStats.accumulate .zero

theorem Walk.others {total : Nat} {prev : Option IpAddr} {st st' : ReadState ncpu}
    (h : Walk total prev st) (hstep : OthersStep st st') : Walk total prev st' := by
  obtain ⟨hlog, horder, hundisturbed⟩ := hstep
  obtain ⟨log', maps'⟩ := st'
  obtain rfl := hlog
  refine ⟨h.passes, h.counts, h.fresh, h.cursor, h.visited, h.counted, ?_⟩
  rintro hroom c rfl
  have hpasses : st.1.passes = 2 := h.passes
  have hcursor : st.1.cursor = some c := h.cursor (by simp)
  obtain ⟨hmem, hnew⟩ := hundisturbed hpasses (h.counts ▸ hroom) c hcursor
  exact (h.placed hroom c rfl).of_orderKept horder hmem hnew

/-- The next key is one that the walk has not visited. -/
theorem Walk.next {total : Nat} {prev : Option IpAddr} {st : ReadState ncpu}
    (h : Walk total prev st) {key : IpAddr} (hkey : st.2.counters.nextKey prev = some key)
    (hroom : st.1.counted.length < total) :
    key ∉ st.1.visited ∧ Placed (st.1.visited ++ [key]) key st.2.counters.keys := by
  have hnodup : st.2.counters.keys.Nodup := st.2.counters.nodup
  cases prev with
  | none =>
    rw [h.fresh rfl, List.nil_append]
    obtain ⟨rest, hkeys⟩ := List.head?_eq_some_iff.mp hkey
    rw [hkeys] at hnodup ⊢
    exact ⟨List.not_mem_nil, placed_first hnodup⟩
  | some c =>
    have hplaced := h.placed hroom c rfl
    obtain ⟨before, behind, hkeys⟩ := BoundedMap.exists_of_nextKey hplaced.mem hkey
    exact hplaced.next hkeys hnodup

/-- The read of a counter that the walk was just given. -/
theorem readWp_readEntry (macFd : Bool) {total : Nat} {key : IpAddr} {visited : List IpAddr}
    {r : HgReadAll} {st : ReadState ncpu} (h : Walk total (some key) st)
    (hvisited : st.1.visited = visited ++ [key]) (hcounted : st.1.counted.Sublist visited)
    (hr : ReportsRead r st.1) :
    readWp (readEntry macFd key)
      (fun entry st => ReportsRead (entry.elim r r.add) st.1 ∧ Walk total (some key) st) st := by
  rw [readEntry_eq]
  refine Prog.wp_bind (Prog.wp_perform ?_)
  rintro st₁ hreach percpu st₂ ⟨env, -, rfl⟩
  -- until the counter is looked up the log stays
  have hwalk : Walk total (some key) st₁ := of_reach _ hreach h fun _ _ => Walk.others
  have hlog : st₁.1 = st.1 :=
    of_reach (fun st₁ => st₁.1 = st.1) hreach rfl fun _ _ h hs => hs.1.trans h
  cases percpu with
  | none =>
    refine Prog.wp_pure ⟨?_, hwalk⟩
    exact hlog ▸ hr
  | some percpu =>
    have hcalls : (readFound macFd key percpu).Only Sys.Unlogged :=
      only_readFound allowsRead_unlogged macFd key percpu
    have hnoted : Walk total (some key)
        (st₁.1.note (Sys.lookupCounter key) (some percpu), st₁.2) := by
      refine ⟨hwalk.passes, hwalk.counts, hwalk.fresh, hwalk.cursor, hwalk.visited, ?_, ?_⟩
      · simp only [ReadLog.note, Option.isSome_some, if_true, hlog, hvisited]
        exact hcounted.append (List.Sublist.refl [key])
      · intro hroom
        simp only [ReadLog.note, Option.isSome_some, if_true, List.length_append] at hroom
        exact hwalk.placed (by omega)
    refine Prog.wp_mono (readWp_unlogged
      (fun st => st.1 = st₁.1.note (Sys.lookupCounter key) (some percpu) ∧
        Walk total (some key) st) hcalls (ensures_readFound macFd key percpu)
      (fun _ _ h hs => ⟨hs.1.trans h.1, h.2.others hs⟩) ⟨rfl, hnoted⟩) ?_
    rintro entry st₂ ⟨⟨e, rfl, hkey⟩, hlog₂, hwalk₂⟩
    refine ⟨?_, hwalk₂⟩
    rw [hlog₂, hlog]
    constructor
    · simp only [Option.elim_some, HgReadAll.add, List.map_append, hr.stats, List.map_singleton, hkey]
      rfl
    · simp only [Option.elim_some, HgReadAll.add, List.foldl_append, hr.summary]
      rfl

/-- The second pass reports the counters it reads, none of them twice. -/
theorem readWp_fillStatsBuf (macFd : Bool) (total fuel : Nat) {prev : Option IpAddr}
    {r : HgReadAll} {st : ReadState ncpu} (h : Walk total prev st) (hr : ReportsRead r st.1) :
    readWp (fillStatsBuf macFd total fuel prev r)
      (fun res st => ∀ r', res = some r' → ReportsRead r' st.1 ∧ st.1.counted.Nodup) st := by
  induction fuel generalizing prev r st with
  | zero =>
    refine Prog.wp_pure ?_
    rintro n ⟨⟩
  | succ fuel ih =>
    refine Prog.wp_bind (Prog.wp_perform ?_)
    rintro st₁ hreach key st₂ ⟨env, hkey, rfl⟩
    have hwalk : Walk total prev st₁ := of_reach _ hreach h fun _ _ => Walk.others
    have hlog : st₁.1 = st.1 :=
      of_reach (fun st₁ => st₁.1 = st.1) hreach rfl fun _ _ h hs => hs.1.trans h
    have hpasses : (if prev = none then st₁.1.passes + 1 else st₁.1.passes) = 2 := by
      rw [hwalk.passes]
      split
      · rfl
      · rfl
    have hnote : st₁.1.note (.nextCounterKey prev : Sys ncpu (Option IpAddr)) key =
        { st₁.1 with passes := 2, visited := st₁.1.visited ++ key.toList, cursor := key } := by
      simp [ReadLog.note, hpasses]
    have hr₁ : ReportsRead r st₁.1 := hlog ▸ hr
    rw [hnote]
    cases key with
    | none =>
      refine Prog.wp_pure ?_
      rintro r' ⟨⟩
      exact ⟨⟨hr₁.stats, hr₁.summary⟩, hwalk.visited.sublist hwalk.counted⟩
    | some key =>
      by_cases hroom : r.stats.length < total
      · have hlen : st₁.1.counted.length < total := by rwa [← hr₁.stats, List.length_map]
        obtain ⟨hfresh, hplaced⟩ := hwalk.next hkey hlen
        simp only [hroom, if_true]
        refine Prog.wp_bind (Prog.wp_mono (readWp_readEntry macFd ?_ rfl hwalk.counted
          ⟨hr₁.stats, hr₁.summary⟩) fun entry st₂ h₂ => ih h₂.2 h₂.1)
        refine ⟨rfl, hwalk.counts, nofun, fun _ => rfl, ?_, ?_, ?_⟩
        · exact List.nodup_append.mpr ⟨hwalk.visited, List.nodup_singleton key,
            fun a ha b hb => by
              rintro rfl
              exact hfresh (List.mem_singleton.mp hb ▸ ha)⟩
        · exact hwalk.counted.trans (List.sublist_append_left _ _)
        · rintro - c hc
          obtain rfl := Option.some.inj hc
          exact hplaced
      · -- the array is full, and the key just given is not looked at
        simp only [hroom, if_false]
        refine Prog.wp_pure ?_
        rintro r' ⟨⟩
        exact ⟨⟨hr₁.stats, hr₁.summary⟩, hwalk.visited.sublist hwalk.counted⟩

/-! ## The whole read -/

/-- Calls that the log does not show leave what holds of it. -/
theorem readWp_log {α : Type} {p : Tool ncpu α} (L : ReadLog → Prop) (hp : p.Only Sys.Unlogged)
    {st : ReadState ncpu} (h : L st.1) : readWp p (fun _ st => L st.1) st :=
  Prog.wp_mono (readWp_unlogged (fun st => L st.1) hp (Prog.ensures_true p)
    (fun _ _ h hs => hs.1 ▸ h) h) fun _ _ h => h.2

theorem only_closeReadMaps_unlogged : (closeReadMaps : Tool ncpu Unit).Only Sys.Unlogged :=
  (Prog.only_perform (unlogged_close _)).bind fun _ =>
    (Prog.only_perform (unlogged_close _)).bind fun _ => Prog.only_perform (unlogged_close _)

theorem SingleReports.of_reported {qsort : Qsort} {sort : HgSortKey} {filter : HgStateFilter}
    {limit : Int32} {r : HgReadAll} {log : ReadLog} (h : ReportsRead r log)
    (hnodup : log.counted.Nodup) : SingleReports log (r.arrange qsort sort filter limit) where
  array := HgReadAll.nodup_arrange (h.stats ▸ hnodup)
  counted := hnodup
  summary := ⟨r.stats, h.stats, h.summary⟩

/-- A read that others do not disturb returns no client twice. -/
theorem readWp_hgReadAll (qsort : Qsort) (fuel : Nat) (sort : HgSortKey) (filter : HgStateFilter)
    (limit : Int32) (s : HgMaps ncpu) :
    readWp (hgReadAll qsort fuel sort filter limit)
      (fun res st => ∀ r, res = .done r → SingleReports st.1 r) (.start, s) := by
  refine Prog.wp_bind (Prog.wp_mono (readWp_log (· = .start)
    (only_openReadMaps unlogged_objGet unlogged_close) rfl) ?_)
  rintro opened st hlog
  cases opened
  · refine Prog.wp_pure ?_
    rintro r ⟨⟩
  · refine Prog.wp_bind (Prog.wp_mono (readWp_log (· = .start)
      (Prog.only_perform (unlogged_objGet _)) hlog) ?_)
    rintro macFd st hlog
    refine Prog.wp_bind (Prog.wp_mono (readWp_log (· = .start)
      (Prog.only_perform unlogged_calloc) hlog) ?_)
    rintro ok st hlog
    cases ok
    · refine Prog.wp_bind (Prog.wp_mono (readWp_log (fun _ => True)
        (only_closeIf _ (unlogged_close _)) trivial) fun _ st _ => ?_)
      refine Prog.wp_bind (Prog.wp_mono (readWp_log (fun _ => True)
        only_closeReadMaps_unlogged trivial) fun _ st _ => Prog.wp_pure ?_)
      rintro r ⟨⟩
    · have hfirst : FirstPass none 0 st := by constructor <;> rw [hlog] <;> rfl
      refine Prog.wp_bind (Prog.wp_mono (readWp_countCounters fuel hfirst) ?_)
      rintro (_ | _ | n) st hcounted
      · refine Prog.wp_pure ?_
        rintro r ⟨⟩
      · refine Prog.wp_bind (Prog.wp_mono (readWp_log (Counted 0)
          only_closeReadMaps_unlogged (hcounted 0 rfl)) fun _ st h => Prog.wp_pure ?_)
        rintro r ⟨⟩
        refine ⟨List.nodup_nil, ?_, [], ?_, rfl⟩
        · rw [h.counted]
          exact List.nodup_nil
        · rw [h.counted]
          rfl
      · refine Prog.wp_bind (Prog.wp_mono (readWp_log (Counted (n + 1))
          (Prog.only_perform unlogged_calloc) (hcounted _ rfl)) ?_)
        rintro ok st h
        cases ok
        · refine Prog.wp_bind (Prog.wp_mono (readWp_log (fun _ => True)
            only_closeReadMaps_unlogged trivial) fun _ st _ => Prog.wp_pure ?_)
          rintro r ⟨⟩
        · have hwalk : Walk (n + 1) none st := by
            refine ⟨h.passes, h.total, fun _ => h.visited, fun hne => absurd rfl hne, ?_, ?_, nofun⟩
            · rw [h.visited]
              exact List.nodup_nil
            · rw [h.counted]
              exact List.nil_sublist _
          have hempty : ReportsRead .empty st.1 := ⟨h.counted.symm, rfl⟩
          refine Prog.wp_bind (Prog.wp_mono (readWp_fillStatsBuf macFd _ fuel hwalk hempty) ?_)
          rintro (_ | r) st hr
          · refine Prog.wp_pure ?_
            rintro r ⟨⟩
          · refine Prog.wp_bind (Prog.wp_mono (readWp_log
              (fun log => ReportsRead r log ∧ log.counted.Nodup) (only_closeIf _ (unlogged_close _))
              (hr r rfl)) fun _ st hr => ?_)
            refine Prog.wp_bind (Prog.wp_mono (readWp_log
              (fun log => ReportsRead r log ∧ log.counted.Nodup) only_closeReadMaps_unlogged
              hr) fun _ st hr => Prog.wp_pure ?_)
            rintro r' ⟨⟩
            exact .of_reported hr.1 hr.2

/-! ## Runs -/

/-- The rest of the read, not disturbed, returns no client twice. -/
def WillReportOnce (st : ReadingHost ncpu) : Prop :=
  readWp st.reader (fun res st => ∀ r, res = .done r → SingleReports st.1 r)
    (st.log, st.host.maps)

theorem WillReportOnce.reportsOnce {st : ReadingHost ncpu} (h : WillReportOnce st) :
    ReportsOnce st := by
  obtain ⟨host, reader, log⟩ := st
  rintro r rfl
  exact h r rfl

/-- Every undisturbed step keeps the precondition of the rest. -/
theorem WillReportOnce.step {st : ReadingHost ncpu} (h : WillReportOnce st)
    {e : ReadingEvent ncpu} (he : KeepsCursor st e) : WillReportOnce (st.step e) := by
  cases e with
  | other e slot =>
    have hothers : OthersStep (st.log, st.host.maps)
        (st.log, (st.step (.other e slot)).host.maps) := ⟨rfl, orderKept_other st e slot, he⟩
    exact Prog.wp_rely hothers (fun _ h => h) h
  | read env =>
    obtain ⟨host, reader, log⟩ := st
    cases reader with
    | ret a => exact h
    | call op k => exact Prog.wp_exec h ⟨env, rfl, rfl⟩

/-- From any host, with any commands running, a read that the steps of a run do not disturb reports
    no client twice. -/
theorem reports_once (qsort : Qsort) (fuel : Nat) (sort : HgSortKey) (filter : HgStateFilter)
    (limit : Int32) (host : CommandHost ncpu) {es : List (ReadingEvent ncpu)}
    (h : Always ReadingHost.step KeepsCursor
      ⟨host, hgReadAll qsort fuel sort filter limit, .start⟩ es) :
    Always ReadingHost.step (fun st e => ReportsOnce (st.step e))
      ⟨host, hgReadAll qsort fuel sort filter limit, .start⟩ es := by
  have hstep : ∀ (st : ReadingHost ncpu) e, WillReportOnce st → KeepsCursor st e →
      WillReportOnce (st.step e) := fun st e hst he => hst.step he
  exact always_of_inv hstep (fun st e hst he => (hstep st e hst he).reportsOnce)
    (readWp_hgReadAll qsort fuel sort filter limit host.maps) h

/-- `qsort` by insertion. -/
def insertionQsort : Qsort where
  sort cmp l := l.insertionSort fun x y => cmp x y ≤ 0
  perm _ l := List.perm_insertionSort _ l

/-- Two clients without limits, of which the one at 192.168.99.83 was added last. -/
def twoClients : HgMaps 1 :=
  run HgMaps.step (.start 1 .standard 0) [
    .ingress (.good ⟨0, Nat.one_pos⟩ 0) ⟨tcpFrame (localMac 1) (Bytes.addrOfOctets 192 168 99 82)
      (Bytes.addrOfOctets 93 184 216 34) 40000 443, 54⟩,
    .add (.good ⟨0, 0⟩) [.iface "br0".toList, .client "192.168.99.82".toList],
    .ingress (.good ⟨0, Nat.one_pos⟩ 0) ⟨tcpFrame (localMac 2) (Bytes.addrOfOctets 192 168 99 83)
      (Bytes.addrOfOctets 93 184 216 34) 40000 443, 54⟩,
    .add (.good ⟨0, 0⟩) [.iface "br0".toList, .client "192.168.99.83".toList]]

def readTwo : ReadingHost 1 :=
  ⟨⟨twoClients, []⟩, hgReadAll insertionQsort 10 .dnBytes .all 0, .start⟩

def readCalls (n : Nat) : List (ReadingEvent 1) := List.replicate n (.read (.good ⟨0, 0⟩))

/-- `hgctl del` for a client, from its start to its end. -/
def delCalls (client : String) : List (ReadingEvent 1) :=
  .other (.start (.del [.iface "br0".toList, .client client.toList])) 0 ::
    List.replicate 20 (.other (.call 0 (.good ⟨0, 0⟩)) 0)

/-- The addresses that a finished read reports. -/
def reportedAddrs (st : ReadingHost 1) : Option (List IpAddr) :=
  match st.reader with
  | .ret (.done r) => some (r.stats.map HgClientStats.ipKey)
  | _ => none

/-- A client that was read already may be deleted while the second pass stands on the other. -/
theorem reports_once_deleted_behind :
    Always ReadingHost.step (fun st e => ReportsOnce (st.step e)) readTwo
      (readCalls 16 ++ delCalls "192.168.99.83" ++ readCalls 20) :=
  reports_once insertionQsort 10 .dnBytes .all 0 ⟨twoClients, []⟩ (by decide +kernel)

/-- The client that the second pass stands on is deleted, and the other one is reported twice. -/
theorem client_reported_twice :
    let st := run ReadingHost.step readTwo
      (readCalls 16 ++ delCalls "192.168.99.82" ++ readCalls 20)
    reportedAddrs st =
        some [Bytes.addrOfOctets 192 168 99 83, Bytes.addrOfOctets 192 168 99 83] ∧
      ¬ ReportsOnce st := by
  intro st
  have haddrs : reportedAddrs st =
      some [Bytes.addrOfOctets 192 168 99 83, Bytes.addrOfOctets 192 168 99 83] := by
    decide +kernel
  refine ⟨haddrs, fun h => ?_⟩
  unfold reportedAddrs at haddrs
  split at haddrs
  · next r hr =>
    have hnodup := (h r hr).array
    rw [Option.some.inj haddrs] at hnodup
    exact absurd hnodup (by decide)
  · cases haddrs

end HawkGate
