-- SUMMARY: A summary that is taken while traffic flows: all that was counted before, and some of what is carried meanwhile.
import HawkGate.Guarantees.SingleReport
import HawkGate.Guarantees.Totals

/-!
# Totals while traffic flows

`hg_read_all` looks up one counter after another, and between any two of its
calls packets go through the hooks. The read is an audit of the counters: each is
seen with what was paid to it until then.
-/

namespace HawkGate

open Ledger Sharded Transition

variable {ncpu : Nat}

/-! ## Traffic -/

/-- A payment to the account of an address. -/
abbrev Payment := IpAddr × Usage

/-- The payments of an event, each with its account. -/
def ReadingHost.carried (st : ReadingHost ncpu) : ReadingEvent ncpu → List Payment
  | .other (.ingress env skb) _ => (st.host.maps.paidIn (Frame.saddr skb.data)
    (ingressUploads env st.host.maps skb (Frame.saddr skb.data)) uploadUsage).map
      (Prod.mk (Frame.saddr skb.data))
  | .other (.egress env skb) _ => (st.host.maps.paidIn (Frame.daddr skb.data)
    (egressDownloads env st.host.maps skb (Frame.daddr skb.data)) downloadUsage).map
      (Prod.mk (Frame.daddr skb.data))
  | .other (.start _) _ | .other (.call _ _) _ | .read _ => []

/-- A call of the read, or a packet. -/
def ReadingEvent.Flows : ReadingEvent ncpu → Prop
  | .read _ | .other (.ingress _ _) _ | .other (.egress _ _) _ => True
  | .other (.start _) _ | .other (.call _ _) _ => False

/-- The payments since the read began, and the maps. -/
abbrev FlowState (ncpu : Nat) := Multiset Payment × HgMaps ncpu

/-- A call of the read. -/
def FlowCall {β : Type} (st : FlowState ncpu) (op : Sys ncpu β) (b : β) (st' : FlowState ncpu) :
    Prop :=
  ∃ env, (Sys.exec env st.2 op).1 = b ∧ st' = (st.1, (Sys.exec env st.2 op).2)

/-- Packets pay into accounts, and open or close none. -/
structure FlowStep (st st' : FlowState ncpu) : Prop where
  keys : st'.2.counters.keys = st.2.counters.keys
  paid : ∃ later, st'.1 = st.1 + later ∧
    ∀ ip, st'.2.account ip = st.2.account ip + received later ip

/-- The precondition of a part of the read. -/
abbrev flowWp {α : Type} (p : Tool ncpu α) (Q : α → FlowState ncpu → Prop)
    (st : FlowState ncpu) : Prop :=
  Prog.wp FlowCall FlowStep p Q st

/-! ## One packet -/

/-- Payments to the account of one address. -/
theorem flowStep_of_posts {s s' : HgMaps ncpu} {T : Multiset Payment} {ip : IpAddr}
    (lens : IpAddr → List UInt32) {of : UInt32 → Usage} {cpu : Fin ncpu}
    (hkeys : s'.counters.keys = s.counters.keys)
    (h : ∀ j, s'.usage j = (s.usage j).map fun u => post u ((lens j).map fun len => (cpu, of len)))
    (hothers : ∀ j, j ≠ ip → lens j = []) :
    FlowStep (T, s) (T + ((s.paidIn ip (lens ip) of).map (Prod.mk ip) : List Payment), s') where
  keys := hkeys
  paid := by
    refine ⟨_, rfl, fun j => ?_⟩
    rw [account_of_posts h j, received_payments]
    by_cases hj : ip = j
    · subst hj
      rw [if_pos rfl, HgMaps.sum_paidIn _ _ _ _ cpu]
    · rw [if_neg hj, hothers j (Ne.symm hj)]
      exact congrArg _ (ite_self 0)

theorem flowStep_step (st : ReadingHost ncpu) (T : Multiset Payment) (e : CommandEvent ncpu)
    (slot : Nat) (he : (ReadingEvent.other e slot).Flows) :
    FlowStep (T, st.host.maps) (T + (st.carried (.other e slot) : Multiset Payment),
      (st.step (.other e slot)).host.maps) := by
  have hplace : ∀ s s' : HgMaps ncpu, s'.counters.keys = s.counters.keys →
      s.placeCounter s' slot = s' := by
    intro s s' hkeys
    rw [HgMaps.placeCounter, ← BoundedMap.length_keys, ← BoundedMap.length_keys, hkeys,
      if_neg (Nat.lt_irrefl _)]
  cases e with
  | start c => exact he.elim
  | call i env => exact he.elim
  | ingress env skb =>
    have hkeys := keys_counters_hgTcIngress env st.host.maps skb
    have hmaps : (st.step (.other (.ingress env skb) slot)).host.maps =
        (hgTcIngress env st.host.maps skb).maps := hplace _ _ hkeys
    rw [hmaps]
    refine flowStep_of_posts (ingressUploads env st.host.maps skb) hkeys
      (usage_hgTcIngress env st.host.maps skb) fun j hj => ?_
    rw [ingressUploads, if_neg fun h => hj h.2.1.symm]
  | egress env skb =>
    have hkeys := keys_counters_hgTcEgress env st.host.maps skb
    have hmaps : (st.step (.other (.egress env skb) slot)).host.maps =
        (hgTcEgress env st.host.maps skb).maps := hplace _ _ hkeys
    rw [hmaps]
    refine flowStep_of_posts (egressDownloads env st.host.maps skb) hkeys
      (usage_hgTcEgress env st.host.maps skb) fun j hj => ?_
    rw [egressDownloads, if_neg fun h => hj h.2.1.symm]

/-! ## The read -/

section
variable {base : HgMaps ncpu} {st st' : FlowState ncpu}

theorem FlowCall.state {β : Type} {op : Sys ncpu β} {b : β} (hcall : FlowCall st op b st')
    (h : op.Reads) : st' = st := by
  obtain ⟨env, -, rfl⟩ := hcall
  exact Prod.ext rfl (h.exec_state env st.2)

/-- The accounts have what they had when the read began and what was paid since. -/
structure KeptBooks (base : HgMaps ncpu) (st : FlowState ncpu) : Prop where
  keys : st.2.counters.keys = base.counters.keys
  accounts : ∀ ip, st.2.account ip = base.account ip + received st.1 ip

theorem KeptBooks.flow (h : KeptBooks base st) (hstep : FlowStep st st') : KeptBooks base st' := by
  obtain ⟨later, hpaid, haccounts⟩ := hstep.paid
  refine ⟨hstep.keys.trans h.keys, fun ip => ?_⟩
  rw [haccounts, h.accounts, hpaid, received_add, add_assoc]

/-- The summary covers the accounts seen so far. -/
structure SummaryCovers (base : HgMaps ncpu) (seen : List IpAddr) (r : HgReadAll)
    (st : FlowState ncpu) : Prop where
  books : KeptBooks base st
  total : Audited base.account st.1 seen r.summary.usage
  clients : r.summary.totalClients = seen.length

theorem SummaryCovers.flow {seen : List IpAddr} {r : HgReadAll} (h : SummaryCovers base seen r st)
    (hstep : FlowStep st st') : SummaryCovers base seen r st' := by
  refine ⟨h.books.flow hstep, ?_, h.clients⟩
  obtain ⟨later, hpaid, -⟩ := hstep.paid
  exact hpaid ▸ h.total.pay

/-- A part of the read that looks at no counter. -/
theorem flowWp_reads {α : Type} {p : Tool ncpu α} {R : α → Prop} (Inv : FlowState ncpu → Prop)
    (hflow : ∀ st st', Inv st → FlowStep st st' → Inv st') (hp : p.Only Sys.Reads)
    (hR : p.Ensures R) (hst : Inv st) : flowWp p (fun a st => R a ∧ Inv st) st := by
  refine Prog.wp_of_inv hflow ?_ hp hR hst
  intro β st op b st' hinv hop hcall
  exact hcall.state hop ▸ hinv

theorem ensures_readFound_usage (macFd : Bool) (ip : IpAddr) (percpu : Fin ncpu → HgCounter) :
    (readFound macFd ip percpu).Ensures fun entry =>
      ∃ e, entry = some e ∧ e.usage = counterUsage percpu := by
  refine Prog.ensures_bind _ fun session => Prog.ensures_bind _ fun rate => ?_
  refine Prog.Ensures.bind ?_ fun e he => Prog.ensures_pure ⟨e, rfl, he⟩
  exact Prog.ensures_bind _ fun expired => Prog.ensures_bind _ fun real =>
    Prog.ensures_bind _ fun boot => Prog.ensures_pure (usage_aggregatePercpu percpu)

/-- The first pass counts the accounts, of which there are as many as at the beginning. -/
theorem flowWp_countCounters (fuel : Nat) {visited rest : List IpAddr} {total : Nat}
    (hkeys : base.counters.keys = visited ++ rest) (htotal : total = visited.length)
    (h : KeptBooks base st) :
    flowWp (countCounters fuel visited.getLast? total)
      (fun res st => (∀ n, res = some n → n = base.counters.keys.length) ∧ KeptBooks base st)
      st := by
  induction fuel generalizing visited rest total st with
  | zero => exact Prog.wp_pure ⟨nofun, h⟩
  | succ fuel ih =>
    refine Prog.wp_bind (Prog.wp_perform ?_)
    intro st₁ hreach key st₂ hcall
    have h₁ : KeptBooks base st₁ := Prog.inv_of_rely (fun _ _ h hs => h.flow hs) h hreach
    obtain rfl : st₂ = st₁ := hcall.state trivial
    obtain ⟨env, hkey, -⟩ := hcall
    have hnext : key = rest.head? :=
      hkey.symm.trans (BoundedMap.nextKey_getLast? (h₁.keys.trans hkeys))
    cases rest with
    | nil =>
      subst hnext
      refine Prog.wp_pure ⟨?_, h₁⟩
      rintro n ⟨⟩
      rw [htotal, hkeys, List.append_nil]
    | cons ip rest =>
      subst hnext
      have hnext : base.counters.keys = (visited ++ [ip]) ++ rest := by rw [hkeys, List.append_cons]
      have hlength : total + 1 = (visited ++ [ip]).length := by simp [htotal]
      have hwp := ih hnext hlength h₁
      rwa [List.getLast?_concat] at hwp

/-- The second pass sees every account once. -/
theorem flowWp_fillStatsBuf (macFd : Bool) (total fuel : Nat) {visited rest : List IpAddr}
    {r : HgReadAll} (hkeys : base.counters.keys = visited ++ rest)
    (hroom : r.stats.length + rest.length ≤ total) (h : SummaryCovers base visited r st) :
    flowWp (fillStatsBuf macFd total fuel visited.getLast? r)
      (fun res st => ∀ r', res = some r' → SummaryCovers base base.counters.keys r' st) st := by
  induction fuel generalizing visited rest r st with
  | zero => exact Prog.wp_pure nofun
  | succ fuel ih =>
    refine Prog.wp_bind (Prog.wp_perform ?_)
    intro st₁ hreach key st₂ hcall
    have h₁ : SummaryCovers base visited r st₁ :=
      Prog.inv_of_rely (fun _ _ h hs => h.flow hs) h hreach
    obtain rfl : st₂ = st₁ := hcall.state trivial
    obtain ⟨env, hkey, -⟩ := hcall
    have hnext : key = rest.head? :=
      hkey.symm.trans (BoundedMap.nextKey_getLast? (h₁.books.keys.trans hkeys))
    cases rest with
    | nil =>
      subst hnext
      refine Prog.wp_pure ?_
      rintro r' ⟨⟩
      rw [hkeys, List.append_nil]
      exact h₁
    | cons ip rest =>
      subst hnext
      have hfresh : ip ∉ visited := by
        have hnodup : (visited ++ ip :: rest).Nodup := hkeys ▸ base.counters.nodup
        exact fun hmem => (List.nodup_append.mp hnodup).2.2 ip hmem ip List.mem_cons_self rfl
      have hlt : r.stats.length < total := by
        rw [List.length_cons] at hroom
        omega
      simp only [List.head?_cons, hlt, if_true]
      refine Prog.wp_bind ?_
      rw [readEntry_eq]
      refine Prog.wp_bind (Prog.wp_perform ?_)
      intro st₃ hreach₃ percpu st₄ hcall₃
      have h₃ : SummaryCovers base visited r st₃ :=
        Prog.inv_of_rely (fun _ _ h hs => h.flow hs) h₁ hreach₃
      obtain rfl : st₄ = st₃ := hcall₃.state trivial
      obtain ⟨env₃, hpercpu, -⟩ := hcall₃
      -- packets delete no counter, so it is still there
      have hthere : ip ∈ st₄.2.counters.keys := by
        rw [h₃.books.keys, hkeys]
        exact List.mem_append_right _ List.mem_cons_self
      obtain ⟨c, hc⟩ := Option.isSome_iff_exists.mp ((BoundedMap.mem_keys_iff _ _).mp hthere)
      obtain rfl : percpu = some c := hpercpu.symm.trans hc
      have haccount : counterUsage c = base.account ip + received st₄.1 ip := by
        rw [← h₃.books.accounts, HgMaps.account, BoundedMap.balance, hc]
        rfl
      have hcovers : ∀ e : HgClientStats, e.usage = counterUsage c →
          SummaryCovers base (visited ++ [ip]) (r.add e) st₄ := by
        intro e he
        refine ⟨h₃.books, ?_, ?_⟩
        · have htotal : (r.add e).summary.usage = r.summary.usage + e.usage := rfl
          rw [htotal, he, haccount]
          exact h₃.total.see hfresh
        · simp [HgReadAll.add, HgGatewayStats.accumulate, h₃.clients]
      have hcalls : (readFound macFd ip c).Only Sys.Reads := only_readFound allowsRead_reads _ _ _
      refine Prog.wp_mono (flowWp_reads (fun st => ∀ e : HgClientStats,
          e.usage = counterUsage c → SummaryCovers base (visited ++ [ip]) (r.add e) st)
        (fun _ _ h hs e he => (h e he).flow hs) hcalls (ensures_readFound_usage macFd ip c) hcovers) ?_
      rintro entry st₅ ⟨⟨e, rfl, he⟩, h₅⟩
      have hnext : base.counters.keys = (visited ++ [ip]) ++ rest := by rw [hkeys, List.append_cons]
      have hroom' : (r.add e).stats.length + rest.length ≤ total := by
        rw [HgReadAll.add, List.length_append, List.length_singleton]
        rw [List.length_cons] at hroom
        omega
      have hwp := ih hnext hroom' (h₅ e he)
      rwa [List.getLast?_concat] at hwp

/-- Calls that look at no counter leave what packets leave. -/
theorem flowWp_keeps {α : Type} {p : Tool ncpu α} {Inv : FlowState ncpu → Prop}
    (hflow : ∀ st st', Inv st → FlowStep st st' → Inv st') (hp : p.Only Sys.Reads)
    (hst : Inv st) : flowWp p (fun _ st => Inv st) st :=
  Prog.wp_mono (flowWp_reads Inv hflow hp (Prog.ensures_true p) hst) fun _ _ h => h.2

theorem only_closeReadMaps_reads : (closeReadMaps : Tool ncpu Unit).Only Sys.Reads :=
  (Prog.only_perform trivial).bind fun _ => (Prog.only_perform trivial).bind fun _ =>
    Prog.only_perform trivial

/-- A read that packets interrupt covers the accounts that were there when it began. -/
theorem flowWp_hgReadAll (qsort : Qsort) (fuel : Nat) (sort : HgSortKey) (filter : HgStateFilter)
    (limit : Int32) (base : HgMaps ncpu) :
    flowWp (hgReadAll qsort fuel sort filter limit)
      (fun res st => ∀ r, res = .done r → SummaryCovers base base.counters.keys r st) (0, base) := by
  have hflow : ∀ st st', KeptBooks base st → FlowStep st st' → KeptBooks base st' :=
    fun _ _ h hs => h.flow hs
  have hstart : KeptBooks base (0, base) := ⟨rfl, fun ip => (add_zero _).symm⟩
  refine Prog.wp_bind (Prog.wp_mono (flowWp_keeps hflow
    (only_openReadMaps (fun _ => trivial) fun _ => trivial) hstart) ?_)
  intro opened st h
  cases opened with
  | false => exact Prog.wp_pure nofun
  | true =>
    refine Prog.wp_bind (Prog.wp_mono (flowWp_keeps hflow (Prog.only_perform trivial) h) ?_)
    intro macFd st h
    refine Prog.wp_bind (Prog.wp_mono (flowWp_keeps hflow (Prog.only_perform trivial) h) ?_)
    intro mem st h
    cases mem with
    | false =>
      refine Prog.wp_bind (Prog.wp_mono (flowWp_keeps hflow (only_closeIf _ trivial) h) ?_)
      intro _ st h
      exact Prog.wp_bind (Prog.wp_mono (flowWp_keeps hflow only_closeReadMaps_reads h)
        fun _ _ _ => Prog.wp_pure nofun)
    | true =>
      have hkeys : base.counters.keys = [] ++ base.counters.keys := rfl
      refine Prog.wp_bind (Prog.wp_mono (flowWp_countCounters fuel hkeys rfl h) ?_)
      rintro (_ | _ | n) st ⟨htotal, h⟩
      · exact Prog.wp_pure nofun
      · refine Prog.wp_bind (Prog.wp_mono (flowWp_keeps hflow only_closeReadMaps_reads h)
          fun _ st h => Prog.wp_pure ?_)
        rintro r ⟨⟩
        have hnone : base.counters.keys = [] := List.eq_nil_of_length_eq_zero (htotal 0 rfl).symm
        rw [hnone]
        exact ⟨h, audited_nil, rfl⟩
      · refine Prog.wp_bind (Prog.wp_mono (flowWp_keeps hflow (Prog.only_perform trivial) h) ?_)
        intro mem st h
        cases mem with
        | false =>
          exact Prog.wp_bind (Prog.wp_mono (flowWp_keeps hflow only_closeReadMaps_reads h)
            fun _ _ _ => Prog.wp_pure nofun)
        | true =>
          have hroom : HgReadAll.empty.stats.length + base.counters.keys.length ≤ n + 1 := by
            rw [← htotal _ rfl]
            exact Nat.le_of_eq (Nat.zero_add _)
          have hnone : SummaryCovers base [] .empty st := ⟨h, audited_nil, rfl⟩
          have hfill := flowWp_fillStatsBuf macFd (n + 1) fuel hkeys hroom hnone
          refine Prog.wp_bind (Prog.wp_mono hfill ?_)
          rintro (_ | r) st hr
          · exact Prog.wp_pure nofun
          · have hcovers : SummaryCovers base base.counters.keys r st := hr r rfl
            refine Prog.wp_bind (Prog.wp_mono (flowWp_keeps (fun _ _ h hs => h.flow hs)
              (only_closeIf _ trivial) hcovers) ?_)
            intro _ st hcovers
            refine Prog.wp_bind (Prog.wp_mono (flowWp_keeps (fun _ _ h hs => h.flow hs)
              only_closeReadMaps_reads hcovers) fun _ st hcovers => Prog.wp_pure ?_)
            rintro r' ⟨⟩
            exact ⟨hcovers.books, hcovers.total, hcovers.clients⟩

end

/-! ## Runs -/

/-- The rest of the read returns a summary that covers the accounts. -/
def WillCover (base : HgMaps ncpu) (T : Multiset Payment) (st : ReadingHost ncpu) : Prop :=
  flowWp st.reader (fun res st => ∀ r, res = .done r → SummaryCovers base base.counters.keys r st)
    (T, st.host.maps)

theorem WillCover.step {base : HgMaps ncpu} {T : Multiset Payment} {st : ReadingHost ncpu}
    (h : WillCover base T st) {e : ReadingEvent ncpu} (he : e.Flows) :
    WillCover base (T + (st.carried e : Multiset Payment)) (st.step e) := by
  cases e with
  | other e slot =>
    have hstep := flowStep_step st T e slot he
    exact Prog.wp_rely hstep (fun res hcovers r hr => (hcovers r hr).flow hstep) h
  | read env =>
    obtain ⟨host, reader, log⟩ := st
    have hnone : T + (ReadingHost.carried ⟨host, reader, log⟩ (.read env) : Multiset Payment) = T :=
      add_zero T
    rw [hnone]
    cases reader with
    | ret a => exact h
    | call op k => exact Prog.wp_exec h ⟨env, rfl, rfl⟩

theorem WillCover.run {base : HgMaps ncpu} {T : Multiset Payment} {st : ReadingHost ncpu}
    (h : WillCover base T st) {es : List (ReadingEvent ncpu)} (hes : ∀ e ∈ es, e.Flows) :
    WillCover base (T + (emitted ReadingHost.step ReadingHost.carried st es : Multiset Payment))
      (Transition.run ReadingHost.step st es) := by
  induction es generalizing T st with
  | nil =>
    have hnone : T + (([] : List Payment) : Multiset Payment) = T := add_zero T
    rw [emitted, hnone]
    exact h
  | cons e es ih =>
    have hnext := ih (h.step (hes e List.mem_cons_self)) fun e' he' =>
      hes e' (List.mem_cons_of_mem e he')
    rwa [emitted, run_cons, ← Multiset.coe_add, ← add_assoc]

/-- However packets interrupt a read of all clients, its summary counts all clients with a counter,
    with the traffic that was on the books when it began and some of what is carried until it ends,
    each packet at most once. -/
theorem summary_of_live_read (qsort : Qsort) (fuel : Nat) (sort : HgSortKey)
    (filter : HgStateFilter) (limit : Int32) (host : CommandHost ncpu)
    {es : List (ReadingEvent ncpu)} (hes : ∀ e ∈ es, e.Flows) {r : HgReadAll}
    (hdone : (run ReadingHost.step ⟨host, hgReadAll qsort fuel sort filter limit, .start⟩ es).reader
      = .ret (.done r)) :
    r.summary.totalClients = host.maps.counters.size ∧
      ∃ counted, counted ≤ (emitted ReadingHost.step ReadingHost.carried
          ⟨host, hgReadAll qsort fuel sort filter limit, .start⟩ es : Multiset Payment) ∧
        r.summary.usage = host.maps.booked + (counted.map Prod.snd).sum := by
  have hstart : WillCover host.maps 0
      ⟨host, hgReadAll qsort fuel sort filter limit, .start⟩ :=
    flowWp_hgReadAll qsort fuel sort filter limit host.maps
  have hend := hstart.run hes
  rw [WillCover, hdone, zero_add] at hend
  obtain ⟨-, ⟨counted, hle, htotal⟩, hclients⟩ := hend r rfl
  refine ⟨hclients.trans (BoundedMap.length_keys _), counted,
    hle.trans (Multiset.filter_le _ _), ?_⟩
  rw [htotal, HgMaps.booked, BoundedMap.sum_eq_sum_balance]
  rfl

def ReadingHost.finished (st : ReadingHost ncpu) : Bool :=
  match st.reader with
  | .ret (.done _) => true
  | _ => false

theorem ReadingHost.exists_of_finished {st : ReadingHost ncpu} (h : st.finished = true) :
    ∃ r, st.reader = .ret (.done r) := by
  obtain ⟨host, reader, log⟩ := st
  cases reader with
  | call op k => cases h
  | ret a =>
    cases a with
    | done r => exact ⟨r, rfl⟩
    | failed | outOfFuel => cases h

/-- A read of one client, between two of whose calls the client uploads. -/
def interruptedRead : List (ReadingEvent 1) :=
  List.replicate 4 (.read (.good ⟨0, 0⟩)) ++
    .other (.ingress (.good ⟨0, Nat.one_pos⟩ 0) ⟨tcpFrame (localMac 7)
      (Bytes.addrOfOctets 192 168 99 7) (Bytes.addrOfOctets 9 9 9 9) 40000 443, 100⟩) 0 ::
    List.replicate 20 (.read (.good ⟨0, 0⟩))

/-- The upload may be counted or not. -/
theorem summary_of_interrupted_read :
    let host : CommandHost 1 := ⟨(run Gateway.step (.start 1 .standard 5) twoLogins).maps, []⟩
    let read := hgReadAll insertionQsort 5 .dnBytes .all 0
    ∃ r, (run ReadingHost.step ⟨host, read, .start⟩ interruptedRead).reader = .ret (.done r) ∧
      r.summary.totalClients = 1 ∧ ∃ counted : Multiset Payment,
        counted ≤ {(Bytes.addrOfOctets 192 168 99 7, ((100, 1), (0, 0)))} ∧
        r.summary.usage = ((60, 1), (0, 0)) + (counted.map Prod.snd).sum := by
  intro host read
  have hfinished : (run ReadingHost.step ⟨host, read, .start⟩ interruptedRead).finished = true := by
    decide +kernel
  have hflows : ∀ e ∈ interruptedRead, e.Flows := by simp [interruptedRead, ReadingEvent.Flows]
  have hsize : host.maps.counters.size = 1 := by decide +kernel
  have hbooked : host.maps.booked = ((60, 1), (0, 0)) := by decide +kernel
  have hcarried : emitted ReadingHost.step ReadingHost.carried ⟨host, read, .start⟩ interruptedRead =
      [(Bytes.addrOfOctets 192 168 99 7, ((100, 1), (0, 0)))] := by decide +kernel
  obtain ⟨r, hdone⟩ := ReadingHost.exists_of_finished hfinished
  obtain ⟨hclients, counted, hle, htotal⟩ :=
    summary_of_live_read insertionQsort 5 .dnBytes .all 0 host hflows hdone
  rw [hcarried, Multiset.coe_singleton] at hle
  rw [hbooked] at htotal
  exact ⟨r, hdone, hclients.trans hsize, counted, hle, htotal⟩

end HawkGate
