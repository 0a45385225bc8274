-- SUMMARY: `hg_read_one`: the shared reader of one client's statistics, and the state it reports.
import HawkGate.Control.Actions

/-!
# The reader

`hg_read_one` of `hg_reader.c` with the functions it calls. The reader starts
from the counter of an address; session data that it cannot find stays zero.
-/

namespace HawkGate

open CString

variable {ncpu : Nat}

/-- Aggregated statistics of one client. -/
structure HgClientStats where
  ip : CString
  ipKey : IpAddr
  mac : CString
  upBytes : UInt64
  upPackets : UInt64
  dnBytes : UInt64
  dnPackets : UInt64
  /-- A value of `enum client_status`. -/
  state : Int32
  rateId : UInt32
  rateKbpsDw : UInt64
  rateKbpsUp : UInt64
  horizonMs : UInt64
  authTime : Int64
  expiryTime : Int64
  lastSeen : Int64
  ageSec : Int64
  sessionSec : Int64
  /-- Seconds until expiry; -1 means never. -/
  ttlSec : Int64

/-! ## Helpers -/

/-- One turn of the loop of `aggregate_percpu`: sums, except for the maxima of the last
    packet time and the state. -/
def aggregateStep (out c : HgCounter) : HgCounter where
  uPackets := out.uPackets + c.uPackets
  uBytes := out.uBytes + c.uBytes
  dPackets := out.dPackets + c.dPackets
  dBytes := out.dBytes + c.dBytes
  lastSeen := if out.lastSeen < c.lastSeen then c.lastSeen else out.lastSeen
  state := if out.state < c.state then c.state else out.state

def aggregatePercpu (percpu : Fin ncpu → HgCounter) : HgCounter :=
  (List.ofFn percpu).foldl aggregateStep HgCounter.zero

/-- The expiry test of the reader, which counts the expiry instant as expired. -/
def HgClient.RunOut (cs : HgClient) (now : UInt64) : Prop :=
  cs.expiryNs ≠ 0 ∧ cs.expiryNs ≤ now

instance (cs : HgClient) (now : UInt64) : Decidable (cs.RunOut now) :=
  inferInstanceAs (Decidable (_ ∧ _))

def isExpired (cs : HgClient) : Tool ncpu Bool :=
  if cs.expiryNs = 0 then pure false
  else do
    let ts ← sys (.clockGettime .boottime)
    pure (decide (cs.expiryNs ≤ ts.toNs))

/-- A reading of the boot clock as wall-clock seconds, 0 for 0. -/
def wallSec (bootOffset : Int64) (ns : UInt64) : Int64 :=
  if 0 < ns then bootOffset + (ns / nsecPerSec).toInt64 else 0

/-- Seconds from a wall-clock time to now, 0 if there is none or it lies ahead. -/
def secondsSince (now t : Int64) : Int64 :=
  if 0 < t ∧ t ≤ now then now - t else 0

def resolveTimes (cs : HgClient) (lastSeenNs : UInt64) (s : HgClientStats) :
    Tool ncpu HgClientStats := do
  let tsReal ← sys (.clockGettime .realtime)
  let tsBoot ← sys (.clockGettime .boottime)
  let bootOffset := tsReal.sec - tsBoot.sec
  let now := tsReal.sec
  let authTime := wallSec bootOffset cs.authNs
  let expiryTime := wallSec bootOffset cs.expiryNs
  let lastSeen := wallSec bootOffset lastSeenNs
  pure { s with
    authTime := authTime
    expiryTime := expiryTime
    lastSeen := lastSeen
    ageSec := secondsSince now lastSeen
    sessionSec := secondsSince now authTime
    ttlSec := if 0 < expiryTime then expiryTime - now else -1 }

/-- Fill the statistics from raw map values. The expiry test overrides the state of the
    counter. -/
def fillStats (ipKey : IpAddr) (agg : HgCounter) (cs : HgClient) (rate : HgRateCfg)
    (macKey : HgMacKey) : Tool ncpu HgClientStats := do
  let expired ← isExpired cs
  resolveTimes cs agg.lastSeen {
    ip := inetNtop ipKey
    ipKey := ipKey
    mac := macToStr macKey
    upBytes := agg.uBytes
    upPackets := agg.uPackets
    dnBytes := agg.dBytes
    dnPackets := agg.dPackets
    state := if expired then ClientStatus.expire.code.toInt32 else agg.state.toInt32
    rateId := cs.rateLimitId
    rateKbpsDw := bpsToKbit rate.rateBpsD
    rateKbpsUp := bpsToKbit rate.rateBpsU
    horizonMs := rate.horizonNs / 1000000
    authTime := 0
    expiryTime := 0
    lastSeen := 0
    ageSec := 0
    sessionSec := 0
    ttlSec := 0 }

/-! ## hg_read_one -/

/-- Open the three maps of a read, or none of them. -/
def openReadMaps : Tool ncpu Bool := do
  let counterFd ← sys (.objGet .hgCounters)
  let clientFd ← sys (.objGet .hgClients)
  let rateFd ← sys (.objGet .hgRates)
  if counterFd && clientFd && rateFd then pure true
  else
    closeIf counterFd .hgCounters
    closeIf clientFd .hgClients
    closeIf rateFd .hgRates
    pure false

/-- The MAC bound to an address and its session data, zero where there is none. -/
def readSession (macFd : Bool) (ipKey : IpAddr) : Tool ncpu (HgMacKey × HgClient) := do
  if macFd then
    match ← sys (.lookupIpMac ipKey) with
    | none => pure (⟨.replicate 6 0⟩, .zero)
    | some m =>
      let cs ← sys (.lookupClient m)
      pure (m, cs.getD .zero)
  else pure (⟨.replicate 6 0⟩, .zero)

/-- The rate profile of a client, zero where there is none. -/
def readRate (cs : HgClient) : Tool ncpu HgRateCfg := do
  if cs.rateLimitId ≠ 0 then
    let rate ← sys (.lookupRate cs.rateLimitId)
    pure (rate.getD ⟨0, 0, 0⟩)
  else pure ⟨0, 0, 0⟩

/-- The read proper, once the maps are open. -/
def readEntry (macFd : Bool) (ipKey : IpAddr) : Tool ncpu (Option HgClientStats) := do
  match ← sys (.lookupCounter ipKey) with
  | none => pure none
  | some percpu =>
    let (macKey, cs) ← readSession macFd ipKey
    let rate ← readRate cs
    let s ← fillStats ipKey (aggregatePercpu percpu) cs rate macKey
    pure (some s)

/-- The read behind the counter. -/
def readFound (macFd : Bool) (ipKey : IpAddr) (percpu : Fin ncpu → HgCounter) :
    Tool ncpu (Option HgClientStats) := do
  let (macKey, cs) ← readSession macFd ipKey
  let rate ← readRate cs
  let s ← fillStats ipKey (aggregatePercpu percpu) cs rate macKey
  pure (some s)

theorem readEntry_eq (macFd : Bool) (ipKey : IpAddr) :
    (readEntry macFd ipKey : Tool ncpu _) =
      sys (.lookupCounter ipKey) >>= fun percpu =>
        match percpu with
        | none => pure none
        | some percpu => readFound macFd ipKey percpu := rfl

/-- `none` stands for -1. -/
def hgReadOne (ip : CString) : Tool ncpu (Option HgClientStats) :=
  match inetPton ip with
  | none => pure none
  | some ipKey => do
    if ← openReadMaps then
      let macFd ← sys (.objGet .hgIpMac)
      let found ← (do if ← sys .calloc then readEntry macFd ipKey else pure none)
      closeIf macFd .hgIpMac
      sys (.close .hgCounters)
      sys (.close .hgClients)
      sys (.close .hgRates)
      pure found
    else pure none

/-! ## The reader only reads -/

section
variable {P : ∀ {β : Type}, Sys ncpu β → Prop}

theorem only_closeIf (opened : Bool) {map : MapName} (hclose : P (.close map)) :
    (closeIf opened map : Tool ncpu Unit).Only P := by
  cases opened
  · exact Prog.only_pure ()
  · exact Prog.only_perform hclose

theorem only_openReadMaps (hget : ∀ map, P (.objGet map)) (hclose : ∀ map, P (.close map)) :
    (openReadMaps : Tool ncpu Bool).Only P := by
  refine (Prog.only_perform (hget _)).bind fun _ => (Prog.only_perform (hget _)).bind fun _ =>
    (Prog.only_perform (hget _)).bind fun _ => ?_
  split
  · exact Prog.only_pure _
  · exact (only_closeIf _ (hclose _)).bind fun _ => (only_closeIf _ (hclose _)).bind fun _ =>
      (only_closeIf _ (hclose _)).bind fun _ => Prog.only_pure _

/-- The operations of a read behind its counter. -/
structure AllowsRead (P : ∀ {β : Type}, Sys ncpu β → Prop) : Prop where
  ipMac : ∀ ip, P (.lookupIpMac ip)
  client : ∀ m, P (.lookupClient m)
  rate : ∀ id, P (.lookupRate id)
  clock : ∀ clock, P (.clockGettime clock)

theorem only_readFound (h : AllowsRead P) (macFd : Bool) (ipKey : IpAddr)
    (percpu : Fin ncpu → HgCounter) : (readFound macFd ipKey percpu).Only P := by
  have hsession : (readSession macFd ipKey : Tool ncpu _).Only P := by
    cases macFd
    · exact Prog.only_pure _
    · refine (Prog.only_perform (h.ipMac ipKey)).bind fun m => ?_
      cases m
      · exact Prog.only_pure _
      · exact (Prog.only_perform (h.client _)).bind fun _ => Prog.only_pure _
  have hrate : ∀ cs, (readRate cs : Tool ncpu _).Only P := by
    intro cs
    unfold readRate
    split
    · exact (Prog.only_perform (h.rate _)).bind fun _ => Prog.only_pure _
    · exact Prog.only_pure _
  have hexpired : ∀ cs, (isExpired cs : Tool ncpu Bool).Only P := by
    intro cs
    unfold isExpired
    split
    · exact Prog.only_pure _
    · exact (Prog.only_perform (h.clock _)).bind fun _ => Prog.only_pure _
  have hfill : ∀ cs rate macKey,
      (fillStats ipKey (aggregatePercpu percpu) cs rate macKey : Tool ncpu _).Only P :=
    fun cs rate macKey => (hexpired cs).bind fun _ => (Prog.only_perform (h.clock _)).bind fun _ =>
      (Prog.only_perform (h.clock _)).bind fun _ => Prog.only_pure _
  exact hsession.bind fun session => (hrate session.2).bind fun _ =>
    (hfill _ _ _).bind fun _ => Prog.only_pure _

theorem only_readEntry (h : AllowsRead P) (hcounter : ∀ ip, P (.lookupCounter ip)) (macFd : Bool)
    (ipKey : IpAddr) : (readEntry macFd ipKey : Tool ncpu _).Only P := by
  rw [readEntry_eq]
  refine (Prog.only_perform (hcounter ipKey)).bind fun percpu => ?_
  cases percpu with
  | none => exact Prog.only_pure _
  | some percpu => exact only_readFound h macFd ipKey percpu

end

theorem allowsRead_reads : AllowsRead (fun op : Sys ncpu _ => op.Reads) := by
  constructor
  all_goals exact fun _ => trivial

theorem only_readEntry_reads (macFd : Bool) (ipKey : IpAddr) :
    (readEntry macFd ipKey : Tool ncpu _).Only Sys.Reads := by
  refine only_readEntry allowsRead_reads ?_ macFd ipKey
  exact fun _ => trivial

theorem only_hgReadOne (ip : CString) : (hgReadOne ip : Tool ncpu _).Only Sys.Reads := by
  unfold hgReadOne
  cases inetPton ip with
  | none => exact Prog.only_pure _
  | some ipKey =>
    refine (only_openReadMaps (fun _ => trivial) fun _ => trivial).bind fun opened => ?_
    cases opened
    · exact Prog.only_pure _
    · refine (Prog.only_perform trivial).bind fun macFd => ?_
      have hfound : (do if ← sys .calloc then readEntry macFd ipKey else pure none :
          Tool ncpu (Option HgClientStats)).Only Sys.Reads := by
        refine (Prog.only_perform trivial).bind fun ok => ?_
        cases ok
        · exact Prog.only_pure _
        · exact only_readEntry_reads macFd ipKey
      exact hfound.bind fun _ => (only_closeIf _ trivial).bind fun _ =>
        (Prog.only_perform trivial).bind fun _ => (Prog.only_perform trivial).bind fun _ =>
          (Prog.only_perform trivial).bind fun _ => Prog.only_pure _

/-- Reading leaves the maps as they are. -/
theorem run_hgReadOne_maps (ip : CString) (env : SysEnv) (s : HgMaps ncpu) :
    ((hgReadOne ip).run env s).2 = s :=
  (only_hgReadOne ip).run_state (fun s _ h => h.exec_state env s) s

/-! ## What a read reports -/

section
variable {env : SysEnv} {s : HgMaps ncpu}

/-- The aggregated state is the largest state of any CPU. -/
theorem foldl_aggregateStep_state (l : List HgCounter) (out : HgCounter) :
    (l.foldl aggregateStep out).state = 0 ↔ out.state = 0 ∧ ∀ c ∈ l, c.state = 0 := by
  induction l generalizing out with
  | nil => simp
  | cons c l ih =>
    rw [List.foldl_cons, ih]
    have hmax : (aggregateStep out c).state = 0 ↔ out.state = 0 ∧ c.state = 0 := by
      simp only [aggregateStep]
      split
      · next h =>
        have hc : c.state ≠ 0 := by
          rintro h0
          rw [h0] at h
          exact absurd h (by simp)
        simp [hc]
      · next h =>
        constructor
        · intro h0
          rw [h0] at h
          refine ⟨h0, ?_⟩
          rw [UInt32.not_lt] at h
          exact UInt32.le_antisymm h (UInt32.zero_le)
        · exact fun h0 => h0.1
    rw [hmax]
    simp [and_assoc]

theorem aggregatePercpu_state (percpu : Fin ncpu → HgCounter) :
    (aggregatePercpu percpu).state = 0 ↔ ∀ cpu, (percpu cpu).state = 0 := by
  rw [aggregatePercpu, foldl_aggregateStep_state]
  simp [HgCounter.zero, List.mem_ofFn]

theorem run_isExpired (cs : HgClient) :
    (isExpired cs).run env s = (decide (cs.RunOut (env.clock .boottime).toNs), s) := by
  unfold isExpired
  split
  · next h => simp [HgClient.RunOut, h]
  · next h =>
    refine Prod.ext (decide_eq_decide.mpr ?_) rfl
    simp only [HgClient.RunOut, ne_eq, h, not_false_eq_true, true_and]
    rfl

theorem state_resolveTimes (cs : HgClient) (lastSeenNs : UInt64) (st : HgClientStats) :
    ((resolveTimes cs lastSeenNs st).run env s).1.state = st.state := rfl

/-- The maps of a read can be opened and memory is available. -/
structure SysEnv.CanRead (env : SysEnv) : Prop where
  counters : env.objGet .hgCounters = true
  clients : env.objGet .hgClients = true
  rates : env.objGet .hgRates = true
  ipMac : env.objGet .hgIpMac = true
  calloc : env.calloc = true

/-- The MAC and the session data that a read finds for an address. -/
def HgMaps.foundSession (s : HgMaps ncpu) (macFd : Bool) (ip : IpAddr) : HgMacKey × HgClient :=
  if macFd then
    match s.ipMac.lookup ip with
    | none => (⟨.replicate 6 0⟩, .zero)
    | some m => (m, (s.clients.lookup m).getD .zero)
  else (⟨.replicate 6 0⟩, .zero)

/-- The profile that a read finds for a session; none is looked up for id 0. -/
def HgMaps.foundRate (s : HgMaps ncpu) (cs : HgClient) : HgRateCfg :=
  if cs.rateLimitId ≠ 0 then (s.rates.lookup cs.rateLimitId).getD ⟨0, 0, 0⟩ else ⟨0, 0, 0⟩

/-- The report of a read that finds a counter. -/
def HgMaps.report (s : HgMaps ncpu) (env : SysEnv) (macFd : Bool) (ip : IpAddr)
    (percpu : Fin ncpu → HgCounter) : HgClientStats :=
  let session := s.foundSession macFd ip
  ((fillStats ip (aggregatePercpu percpu) session.2 (s.foundRate session.2) session.1).run env s).1

theorem run_readEntry (macFd : Bool) (ip : IpAddr) :
    ((readEntry macFd ip).run env s).1 =
      (s.counters.lookup ip).map (s.report env macFd ip) := by
  have hsession : (readSession macFd ip).run env s = (s.foundSession macFd ip, s) := by
    cases macFd with
    | false => rfl
    | true =>
      simp only [readSession, if_true, Tool.run_bind, Tool.run_sys, Sys.exec, HgMaps.foundSession]
      cases s.ipMac.lookup ip with
      | none => rfl
      | some m => rfl
  have hrate : ∀ cs : HgClient, (readRate cs).run env s = (s.foundRate cs, s) := by
    intro cs
    rw [readRate, HgMaps.foundRate]
    split
    · rfl
    · rfl
  simp only [readEntry, Tool.run_bind, Tool.run_sys, Sys.exec]
  cases s.counters.lookup ip with
  | none => rfl
  | some percpu =>
    simp only [Tool.run_bind, hsession, hrate]
    rfl

/-- The three maps of a read can be opened. -/
def SysEnv.opensRead (env : SysEnv) : Bool :=
  env.objGet .hgCounters && env.objGet .hgClients && env.objGet .hgRates

theorem run_openReadMaps : (openReadMaps : Tool ncpu Bool).run env s = (env.opensRead, s) := by
  have hopens : (env.objGet .hgCounters && env.objGet .hgClients && env.objGet .hgRates) =
      env.opensRead := rfl
  simp only [openReadMaps, Tool.run_bind, Tool.run_sys, Sys.exec, hopens]
  cases hopen : env.opensRead with
  | true => rfl
  | false => simp [run_closeIf]

/-- A read reports what it finds if the maps open and there is memory. -/
theorem run_hgReadOne {text : CString} {ip : IpAddr} (htext : inetPton text = some ip) :
    ((hgReadOne text).run env s).1 =
      if env.opensRead = true ∧ env.calloc = true then
        (s.counters.lookup ip).map (s.report env (env.objGet .hgIpMac) ip)
      else none := by
  rw [hgReadOne, htext]
  simp only [Tool.run_bind, run_openReadMaps]
  cases hopen : env.opensRead with
  | false => rfl
  | true =>
    cases hcalloc : env.calloc with
    | false => simp [hcalloc, Sys.exec]
    | true => simp [hcalloc, Sys.exec, run_readEntry]

/-- The session data that a read finds for an address. -/
def HgMaps.readClient (s : HgMaps ncpu) (ip : IpAddr) : HgClient :=
  ((s.ipMac.lookup ip).bind s.clients.lookup).getD .zero

theorem HgMaps.foundSession_snd (ip : IpAddr) : (s.foundSession true ip).2 = s.readClient ip := by
  rw [HgMaps.foundSession, if_pos rfl, HgMaps.readClient]
  cases s.ipMac.lookup ip with
  | none => rfl
  | some m => rfl

/-- A read that finds a counter reports its largest state, unless the session it finds has
    run out. -/
theorem run_hgReadOne_state (henv : env.CanRead) {text : CString} {ip : IpAddr}
    (htext : inetPton text = some ip) :
    ((hgReadOne text).run env s).1.map HgClientStats.state =
      (s.counters.lookup ip).map fun percpu =>
        if (s.readClient ip).RunOut (env.clock .boottime).toNs then
          ClientStatus.expire.code.toInt32
        else (aggregatePercpu percpu).state.toInt32 := by
  have hopens : env.opensRead = true ∧ env.calloc = true := by
    simp [SysEnv.opensRead, henv.counters, henv.clients, henv.rates, henv.calloc]
  rw [run_hgReadOne htext, if_pos hopens, Option.map_map, henv.ipMac, ← HgMaps.foundSession_snd]
  congr 1
  funext percpu
  simp only [Function.comp, HgMaps.report, fillStats, Tool.run_bind, state_resolveTimes,
    run_isExpired, decide_eq_true_eq]

end

end HawkGate
