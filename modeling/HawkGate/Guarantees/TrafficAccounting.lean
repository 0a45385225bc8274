-- SUMMARY: The traffic that the reader reports for a client is the traffic that the authenticated path forwarded.
import HawkGate.Control.Reader
import HawkGate.Kernel.Accounting
import HawkGate.System.Host

/-!
# Traffic accounting

An add zeroes the counter of its address. From then on every packet that the
authenticated path forwards for the address is posted to the slot of its CPU, so
the totals that the reader reports are those of the forwarded packets, on
whatever CPUs they were.
-/

namespace HawkGate

open CString Sharded Transition

variable {ncpu : Nat}

/-! ## The reader -/

/-- The traffic in a report. -/
def HgClientStats.usage (st : HgClientStats) : Usage :=
  ((st.upBytes, st.upPackets), (st.dnBytes, st.dnPackets))

/-- The loop of `aggregate_percpu` computes the totals of the CPUs. -/
theorem usage_aggregatePercpu (percpu : Fin ncpu → HgCounter) :
    (aggregatePercpu percpu).usage = total fun cpu => (percpu cpu).usage := by
  have hfold : ∀ (l : List HgCounter) (out : HgCounter),
      (l.foldl aggregateStep out).usage = l.foldl (fun u c => u + c.usage) out.usage := by
    intro l
    induction l with
    | nil => exact fun out => rfl
    | cons c l ih =>
      intro out
      rw [List.foldl_cons, List.foldl_cons, ih]
      rfl
  rw [aggregatePercpu, hfold]
  exact foldl_ofFn_eq_total HgCounter.usage percpu

theorem usage_report (s : HgMaps ncpu) (env : SysEnv) (macFd : Bool) (ip : IpAddr)
    (percpu : Fin ncpu → HgCounter) :
    (s.report env macFd ip percpu).usage = (aggregatePercpu percpu).usage := by
  simp only [HgMaps.report, fillStats, Tool.run_bind]
  rfl

/-- A report has the totals of the counter of its address. -/
theorem usage_hgReadOne {env : SysEnv} {s : HgMaps ncpu} {text : CString} {ip : IpAddr}
    {st : HgClientStats} (htext : inetPton text = some ip)
    (h : ((hgReadOne text).run env s).1 = some st) :
    ∃ u, s.usage ip = some u ∧ st.usage = total u := by
  rw [run_hgReadOne htext] at h
  split at h
  · obtain ⟨c, hc, rfl⟩ := Option.map_eq_some_iff.mp h
    refine ⟨fun cpu => (c cpu).usage, ?_, (usage_report ..).trans (usage_aggregatePercpu c)⟩
    simp only [HgMaps.counted, hc, Option.map_some]
  · cases h

/-! ## What an event posts -/

/-- The lengths of the packets from an address that an event forwards. -/
def HgMaps.uploads (ip : IpAddr) (s : HgMaps ncpu) : HostEvent ncpu → List UInt32
  | .ingress env skb => ingressUploads env s skb ip
  | _ => []

/-- The lengths of the packets to an address that an event forwards. -/
def HgMaps.downloads (ip : IpAddr) (s : HgMaps ncpu) : HostEvent ncpu → List UInt32
  | .egress env skb => egressDownloads env s skb ip
  | _ => []

/-- The usage that an event adds to the counter of an address, with its CPU. -/
def HgMaps.posts (ip : IpAddr) (s : HgMaps ncpu) : HostEvent ncpu → List (Fin ncpu × Usage)
  | .ingress env skb => (ingressUploads env s skb ip).map fun len => (env.cpu, uploadUsage len)
  | .egress env skb => (egressDownloads env s skb ip).map fun len => (env.cpu, downloadUsage len)
  | _ => []

/-- The usage of the given uploads and downloads. -/
def usageOf (up down : List UInt32) : Usage :=
  (((up.map UInt32.toUInt64).sum, UInt64.ofNat up.length),
    ((down.map UInt32.toUInt64).sum, UInt64.ofNat down.length))

theorem usageOf_append (up up' down down' : List UInt32) :
    usageOf (up ++ up') (down ++ down') = usageOf up down + usageOf up' down' := by
  simp [usageOf]

theorem sum_posts (ip : IpAddr) (s : HgMaps ncpu) (e : HostEvent ncpu) :
    ((s.posts ip e).map Prod.snd).sum = usageOf (s.uploads ip e) (s.downloads ip e) := by
  cases e with
  | ingress env skb =>
    simp only [HgMaps.posts, HgMaps.uploads, HgMaps.downloads, ingressUploads]
    split
    · simp [usageOf, uploadUsage, Prod.zero_eq_mk]
    · rfl
  | egress env skb =>
    simp only [HgMaps.posts, HgMaps.uploads, HgMaps.downloads, egressDownloads]
    split
    · simp [usageOf, downloadUsage, Prod.zero_eq_mk]
    · rfl
  | _ => rfl

theorem sum_emitted_posts (ip : IpAddr) (s : HgMaps ncpu) (es : List (HostEvent ncpu)) :
    ((emitted HgMaps.step (HgMaps.posts ip) s es).map Prod.snd).sum =
      usageOf (emitted HgMaps.step (HgMaps.uploads ip) s es)
        (emitted HgMaps.step (HgMaps.downloads ip) s es) := by
  induction es generalizing s with
  | nil => rfl
  | cons e es ih =>
    rw [emitted, emitted, emitted, List.map_append, List.sum_append, sum_posts, ih, usageOf_append]

/-- A sum of 64 bits is the sum modulo 2^64. -/
theorem toNat_sum_toUInt64 (l : List UInt32) :
    (l.map UInt32.toUInt64).sum.toNat = (l.map UInt32.toNat).sum % 2 ^ 64 := by
  induction l with
  | nil => rfl
  | cons a l ih =>
    rw [List.map_cons, List.map_cons, List.sum_cons, List.sum_cons, UInt64.toNat_add, ih,
      UInt32.toNat_toUInt64, Nat.add_mod_mod]

/-! ## Runs -/

/-- An add or a del writes the counter of an address. -/
def HostEvent.TouchesCounter (ip : IpAddr) (s : HgMaps ncpu) : HostEvent ncpu → Prop
  | .add env opts =>
    ∃ m client rate rateOk, addEffect env s opts = .installed m ip client rate rateOk
  | .del env opts =>
    env.objGet .hgMacIp = true ∧ ∃ m, delVictim s env opts = some m ∧ s.macIp.lookup m = some ip
  | _ => False

/-- A command that does not write a counter leaves it as it is. -/
theorem usage_step {s : HgMaps ncpu} {ip : IpAddr} {e : HostEvent ncpu}
    (h : ¬ e.TouchesCounter ip s) :
    (s.step e).usage ip = (s.usage ip).map fun u => post u (s.posts ip e) := by
  have hkeep : (s.step e).counters.lookup ip = s.counters.lookup ip → s.posts ip e = [] →
      (s.step e).usage ip = (s.usage ip).map fun u => post u (s.posts ip e) := by
    intro hlookup hposts
    rw [HgMaps.usage, HgMaps.counted, hlookup, hposts]
    exact Option.map_id'.symm
  cases e with
  | ingress env skb => exact usage_hgTcIngress env s skb ip
  | egress env skb => exact usage_hgTcEgress env s skb ip
  | add env opts =>
    refine hkeep ?_ rfl
    rw [HgMaps.step_add]
    cases heff : addEffect env s opts with
    | refused => rfl
    | rolledBack m => rfl
    | installed m a client rate rateOk =>
      have hne : ip ≠ a := by
        rintro rfl
        exact h ⟨m, client, rate, rateOk, heff⟩
      rw [HgMaps.afterAdd, BoundedMap.lookup_put, if_neg fun hip => hne hip.1]
  | del env opts =>
    refine hkeep ?_ rfl
    rw [HgMaps.step_del]
    cases hvictim : delVictim s env opts with
    | none => rfl
    | some m =>
      rw [Option.elim_some, HgMaps.afterDel]
      dsimp only
      cases hbound : s.macIp.lookup m with
      | none => rfl
      | some a =>
        by_cases hopen : env.objGet .hgMacIp = true
        · have hne : ip ≠ a := by
            rintro rfl
            exact h ⟨hopen, m, hvictim, hbound⟩
          simp [hopen, BoundedMap.lookup_erase, hne]
        · simp [hopen]
  | mapDel env opts =>
    refine hkeep ?_ rfl
    rw [HgMaps.step_mapDel]

/-- A run posts what its steps forward to the counter of an address. -/
theorem usage_run {ip : IpAddr} {s : HgMaps ncpu} {es : List (HostEvent ncpu)}
    (h : Always HgMaps.step (fun s e => ¬ e.TouchesCounter ip s) s es) :
    (run HgMaps.step s es).usage ip =
      (s.usage ip).map fun u => post u (emitted HgMaps.step (HgMaps.posts ip) s es) := by
  induction es generalizing s with
  | nil => exact Option.map_id'.symm
  | cons e es ih =>
    rw [run_cons, ih h.2, usage_step h.1, Option.map_map]
    congr 1
    funext u
    rw [Function.comp, emitted, post_append]

/-! ## Other CPUs -/

/-- The same event on another CPU. -/
def HostEvent.onCpu (cpu : Fin ncpu) : HostEvent ncpu → HostEvent ncpu
  | .ingress env skb => .ingress { env with cpu := cpu } skb
  | .egress env skb => .egress { env with cpu := cpu } skb
  | .add env opts => .add env opts
  | .del env opts => .del env opts
  | .mapDel env opts => .mapDel env opts

/-- Two events that differ in the CPU only. -/
def SameButCpu (e e' : HostEvent ncpu) : Prop := ∃ cpu, e' = e.onCpu cpu

theorem spares_mapDelKey (map : MapName) (keySpec : CString) :
    (mapDelKey map keySpec : Tool ncpu Status).Only Sys.SparesCounters := by
  have hremoved : ∀ {op : Sys ncpu Bool}, op.SparesCounters →
      (do let ok ← sys op; pure (removed ok) : Tool ncpu Status).Only Sys.SparesCounters :=
    fun hop => (Prog.only_perform hop).bind fun _ => Prog.only_pure _
  cases map with
  | hgConntrack =>
    simp only [mapDelKey, mapDelConntrack]
    repeat' split
    all_goals first
      | exact Prog.only_pure _
      | exact hremoved trivial
  | hgClients =>
    simp only [mapDelKey, mapDelClient]
    split
    · exact Prog.only_pure _
    · exact hremoved trivial
  | hgProto =>
    simp only [mapDelKey, mapDelProto]
    split
    · exact hremoved trivial
    · exact Prog.only_pure _
  | _ => exact Prog.only_pure _

/-- `map-del` neither reads nor writes the counters. -/
theorem spares_hgctlMapDel (opts : List MapDelOpt) :
    (hgctlMapDel opts : Tool ncpu Status).Only Sys.SparesCounters := by
  rw [hgctlMapDel]
  cases parseMapDel opts with
  | none => exact Prog.only_pure _
  | some v =>
    dsimp only
    rw [mapDelAction]
    cases MapName.ofText v.mapName with
    | none => exact Prog.only_pure _
    | some map =>
      refine (Prog.only_perform trivial).bind fun opened => ?_
      cases opened with
      | false => exact Prog.only_pure _
      | true =>
        exact (spares_mapDelKey map v.keySpec).bind fun _ => (Prog.only_perform trivial).bind fun _ =>
          Prog.only_pure _

section
variable {s t : HgMaps ncpu} (h : SameKeys s t)

include h

theorem SameKeys.addEffect (env : SysEnv) (opts : List AddOpt) :
    addEffect env t opts = addEffect env s opts := by
  have hroom : ∀ ip,
      env.Accepts .hgCounters t.counters ip ↔ env.Accepts .hgCounters s.counters ip := by
    intro ip
    simp only [SysEnv.Accepts, BoundedMap.HasRoom, ← BoundedMap.mem_keys_iff,
      ← BoundedMap.length_keys, h.keys]
  have hwrite : ∀ m ip client rate,
      addWriteEffect env t m ip client rate = addWriteEffect env s m ip client rate := by
    intro m ip client rate
    have hclients : t.clients = s.clients := h.reads HgMaps.clients fun _ _ => rfl
    have hrates : t.rates = s.rates := h.reads HgMaps.rates fun _ _ => rfl
    simp only [addWriteEffect, hclients, hrates, hroom]
  have htarget : ∀ mac ip, addTargetOf env t mac ip = addTargetOf env s mac ip := fun mac ip =>
    h.reads (fun s => addTargetOf env s mac ip) fun _ _ => rfl
  simp only [HawkGate.addEffect, addActionEffect, hwrite, htarget]

theorem SameKeys.afterAdd (eff : AddEffect) : SameKeys (s.afterAdd eff) (t.afterAdd eff) := by
  cases eff with
  | refused => exact h
  | rolledBack m => exact h.map (fun s => { s with clients := s.clients.erase m }) fun _ _ => rfl
  | installed m ip client rate rateOk =>
    constructor
    · rw [h.rest]
      rfl
    · simp only [HgMaps.afterAdd, BoundedMap.keys_put, ← BoundedMap.length_keys, h.keys]

theorem SameKeys.afterDel (env : SysEnv) (m : HgMacKey) :
    SameKeys (s.afterDel env m) (t.afterDel env m) := by
  have hbound : t.macIp.lookup m = s.macIp.lookup m :=
    h.reads (fun s => s.macIp.lookup m) fun _ _ => rfl
  constructor
  · rw [h.rest]
    rfl
  · simp only [HgMaps.afterDel, hbound]
    cases s.macIp.lookup m with
    | none => exact h.keys
    | some ip =>
      dsimp only
      split
      · rw [BoundedMap.keys_erase, BoundedMap.keys_erase, h.keys]
      · exact h.keys

theorem SameKeys.step (e : HostEvent ncpu) (cpu : Fin ncpu) :
    SameKeys (s.step e) (t.step (e.onCpu cpu)) := by
  cases e with
  | ingress env skb => exact (h.hgTcIngress env cpu skb).maps
  | egress env skb => exact (h.hgTcEgress env cpu skb).maps
  | add env opts =>
    rw [HostEvent.onCpu, HgMaps.step_add, HgMaps.step_add, h.addEffect]
    exact h.afterAdd _
  | del env opts =>
    have hvictim : delVictim t env opts = delVictim s env opts :=
      h.reads (fun s => delVictim s env opts) fun _ _ => rfl
    rw [HostEvent.onCpu, HgMaps.step_del, HgMaps.step_del, hvictim]
    cases delVictim s env opts with
    | none => exact h
    | some m => exact h.afterDel env m
  | mapDel env opts =>
    refine h.map (fun s => s.step (.mapDel env opts)) fun s c => ?_
    exact congrArg Prod.snd ((spares_hgctlMapDel opts).run_map
      (fun s op hop => hop.exec_eq env s c) s)

theorem SameKeys.uploads (ip : IpAddr) (e : HostEvent ncpu) (cpu : Fin ncpu) :
    t.uploads ip (e.onCpu cpu) = s.uploads ip e := by
  cases e with
  | ingress env skb => exact h.ingressUploads env cpu skb ip
  | _ => rfl

theorem SameKeys.downloads (ip : IpAddr) (e : HostEvent ncpu) (cpu : Fin ncpu) :
    t.downloads ip (e.onCpu cpu) = s.downloads ip e := by
  cases e with
  | egress env skb => exact h.egressDownloads env cpu skb ip
  | _ => rfl

/-- The same calls write a counter whatever its contents are. -/
theorem SameKeys.touchesCounter_iff (ip : IpAddr) (e : HostEvent ncpu) (cpu : Fin ncpu) :
    (e.onCpu cpu).TouchesCounter ip t ↔ e.TouchesCounter ip s := by
  cases e with
  | add env opts =>
    simp only [HostEvent.onCpu, HostEvent.TouchesCounter, h.addEffect]
  | del env opts =>
    have hsame : (HostEvent.del env opts).TouchesCounter ip t =
        (HostEvent.del env opts).TouchesCounter ip s :=
      h.reads (fun s => (HostEvent.del env opts).TouchesCounter ip s) fun _ _ => rfl
    exact iff_of_eq hsame
  | _ => exact Iff.rfl

end

/-- A run on other CPUs forwards the same packets. -/
theorem emitted_of_sameButCpu {s t : HgMaps ncpu} (h : SameKeys s t) (ip : IpAddr)
    {es es' : List (HostEvent ncpu)} (hes : List.Forall₂ SameButCpu es es') :
    emitted HgMaps.step (HgMaps.uploads ip) t es' = emitted HgMaps.step (HgMaps.uploads ip) s es ∧
      emitted HgMaps.step (HgMaps.downloads ip) t es' =
        emitted HgMaps.step (HgMaps.downloads ip) s es ∧
      (Always HgMaps.step (fun s e => ¬ e.TouchesCounter ip s) t es' ↔
        Always HgMaps.step (fun s e => ¬ e.TouchesCounter ip s) s es) := by
  induction hes generalizing s t with
  | nil => exact ⟨rfl, rfl, Iff.rfl⟩
  | cons he _ ih =>
    obtain ⟨cpu, rfl⟩ := he
    obtain ⟨hup, hdown, halways⟩ := ih (h.step _ cpu)
    refine ⟨?_, ?_, ?_⟩
    · rw [emitted, emitted, hup, h.uploads]
    · rw [emitted, emitted, hdown, h.downloads]
    · rw [always_cons, always_cons, halways, h.touchesCounter_iff]

/-! ## Reports -/

/-- A run after an add that zeroes the counter of an address, in which no other command writes
    that counter. -/
structure AccountedRun (ncpu : Nat) where
  before : HgMaps ncpu
  env : SysEnv
  opts : List AddOpt
  mac : HgMacKey
  ip : IpAddr
  client : HgClient
  rate : HgRateCfg
  rateOk : Bool
  zeroes : addEffect env before opts = .installed mac ip client rate rateOk
  events : List (HostEvent ncpu)
  untouched : Always HgMaps.step (fun s e => ¬ e.TouchesCounter ip s)
    (before.step (.add env opts)) events

/-- The traffic of a report is that of the given packets. -/
structure HgClientStats.Counts (st : HgClientStats) (up down : List UInt32) : Prop where
  upBytes : st.upBytes.toNat = (up.map UInt32.toNat).sum % 2 ^ 64
  upPackets : st.upPackets.toNat = up.length % 2 ^ 64
  dnBytes : st.dnBytes.toNat = (down.map UInt32.toNat).sum % 2 ^ 64
  dnPackets : st.dnPackets.toNat = down.length % 2 ^ 64

theorem HgClientStats.counts_of_usage {st : HgClientStats} {up down : List UInt32}
    (h : st.usage = usageOf up down) : st.Counts up down := by
  obtain ⟨hup, hdown⟩ := Prod.mk.inj h
  obtain ⟨hub, hu⟩ := Prod.mk.inj hup
  obtain ⟨hdb, hd⟩ := Prod.mk.inj hdown
  refine ⟨?_, ?_, ?_, ?_⟩
  · rw [hub, toNat_sum_toUInt64]
  · rw [hu, UInt64.toNat_ofNat']
  · rw [hdb, toNat_sum_toUInt64]
  · rw [hd, UInt64.toNat_ofNat']

namespace AccountedRun

variable (r : AccountedRun ncpu)

/-- The maps after the add. -/
def start : HgMaps ncpu := r.before.step (.add r.env r.opts)

/-- The lengths of the packets from the address that the run forwards. -/
def uploads : List UInt32 := emitted HgMaps.step (HgMaps.uploads r.ip) r.start r.events

/-- The lengths of the packets to the address that the run forwards. -/
def downloads : List UInt32 := emitted HgMaps.step (HgMaps.downloads r.ip) r.start r.events

/-- `hg_read_one` reports `st` for the address after the given events. -/
def Reports (es : List (HostEvent ncpu)) (st : HgClientStats) : Prop :=
  ∃ env text, inetPton text = some r.ip ∧
    ((hgReadOne text).run env (run HgMaps.step r.start es)).1 = some st

theorem usage_start : r.start.usage r.ip = some fun _ => 0 := by
  rw [start, HgMaps.step_add, r.zeroes, HgMaps.usage, HgMaps.counted,
    lookup_counters_install r.zeroes, if_pos rfl]
  rfl

/-- What is counted after some of these events. -/
theorem usage_run {es : List (HostEvent ncpu)}
    (hes : Always HgMaps.step (fun s e => ¬ e.TouchesCounter r.ip s) r.start es) :
    ∃ u, (run HgMaps.step r.start es).usage r.ip = some u ∧
      total u = usageOf (emitted HgMaps.step (HgMaps.uploads r.ip) r.start es)
        (emitted HgMaps.step (HgMaps.downloads r.ip) r.start es) := by
  refine ⟨_, (HawkGate.usage_run hes).trans (by rw [r.usage_start, Option.map_some]), ?_⟩
  rw [total_post, total_zero, zero_add, sum_emitted_posts]

theorem usage_of_reports {es : List (HostEvent ncpu)}
    (hes : Always HgMaps.step (fun s e => ¬ e.TouchesCounter r.ip s) r.start es)
    {st : HgClientStats} (h : r.Reports es st) :
    st.usage = usageOf (emitted HgMaps.step (HgMaps.uploads r.ip) r.start es)
      (emitted HgMaps.step (HgMaps.downloads r.ip) r.start es) := by
  obtain ⟨env, text, htext, hread⟩ := h
  obtain ⟨u, hu, hst⟩ := usage_hgReadOne htext hread
  obtain ⟨u', hu', htotal⟩ := r.usage_run hes
  rw [hu] at hu'
  obtain rfl := Option.some.inj hu'
  rw [hst, htotal]

/-- The reader reports, modulo 2^64, the bytes and packets that the authenticated path has forwarded
    since the add, and the same for every assignment of the packets to CPUs. -/
theorem report_exact :
    (∀ env text, env.CanRead → inetPton text = some r.ip →
      ∃ st, ((hgReadOne text).run env (run HgMaps.step r.start r.events)).1 = some st) ∧
    (∀ st, r.Reports r.events st → st.Counts r.uploads r.downloads) ∧
    ∀ es, List.Forall₂ SameButCpu r.events es → ∀ st st', r.Reports r.events st →
      r.Reports es st' → st'.usage = st.usage := by
  refine ⟨fun env text henv htext => ?_, fun st h => ?_, fun es hes st st' h h' => ?_⟩
  · obtain ⟨u, hu, -⟩ := r.usage_run r.untouched
    obtain ⟨c, hc, -⟩ := Option.map_eq_some_iff.mp hu
    have hopens : env.opensRead = true ∧ env.calloc = true := by
      simp [SysEnv.opensRead, henv.counters, henv.clients, henv.rates, henv.calloc]
    rw [run_hgReadOne htext, if_pos hopens, hc]
    exact ⟨_, rfl⟩
  · exact HgClientStats.counts_of_usage (r.usage_of_reports r.untouched h)
  · obtain ⟨hup, hdown, halways⟩ := emitted_of_sameButCpu (SameKeys.refl r.start) r.ip hes
    rw [r.usage_of_reports r.untouched h, r.usage_of_reports (halways.mpr r.untouched) h', hup,
      hdown]

/-- A client of a host with two CPUs, with one upload on each and one download. -/
def twoCpus : AccountedRun 2 where
  before := (hgTcIngress (.good ⟨0, Nat.two_pos⟩ 0) (.start 2 .standard 0) ⟨tcpFrame (localMac 1)
    (Bytes.addrOfOctets 192 168 99 82) (Bytes.addrOfOctets 93 184 216 34) 40000 443, 54⟩).maps
  env := .good ⟨0, 0⟩
  opts := [.iface "br0".toList, .client "192.168.99.82".toList]
  mac := localMac 1
  ip := Bytes.addrOfOctets 192 168 99 82
  client := ⟨0, 0, 0, 0, 0, 0⟩
  rate := ⟨0, 0, hgHorizonNs⟩
  rateOk := true
  zeroes := by decide +kernel
  events :=
    [.ingress (.good ⟨0, Nat.two_pos⟩ 0) ⟨tcpFrame (localMac 1) (Bytes.addrOfOctets 192 168 99 82)
        (Bytes.addrOfOctets 93 184 216 34) 40000 443, 54⟩,
      .ingress (.good ⟨1, Nat.one_lt_two⟩ 0) ⟨tcpFrame (localMac 1) (Bytes.addrOfOctets 192 168 99 82)
        (Bytes.addrOfOctets 93 184 216 34) 40000 443, 1500⟩,
      .egress (.good ⟨1, Nat.one_lt_two⟩ 0) ⟨tcpFrame (localMac 2) (Bytes.addrOfOctets 93 184 216 34)
        (Bytes.addrOfOctets 192 168 99 82) 443 40000, 60⟩]
  untouched := ⟨id, id, id, trivial⟩

theorem report_exact_two_cpus : ∃ st, twoCpus.Reports twoCpus.events st ∧
    st.Counts [54, 1500] [60] := by
  obtain ⟨hreport, hcounts, -⟩ := twoCpus.report_exact
  obtain ⟨st, hst⟩ := hreport (.good ⟨0, 0⟩) "192.168.99.82".toList ⟨rfl, rfl, rfl, rfl, rfl⟩
    (by decide +kernel)
  have hreads : twoCpus.Reports twoCpus.events st := ⟨_, _, by decide +kernel, hst⟩
  have hup : twoCpus.uploads = [54, 1500] := by decide +kernel
  have hdown : twoCpus.downloads = [60] := by decide +kernel
  refine ⟨st, hreads, ?_⟩
  rw [← hup, ← hdown]
  exact hcounts st hreads

end AccountedRun

end HawkGate
