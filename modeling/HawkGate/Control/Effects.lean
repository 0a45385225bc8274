-- SUMMARY: What an uninterrupted `add`, `del` or `map-del` does to the maps, as one effect computed from the state before it.
import HawkGate.Control.Cli

/-!
# Effects of the commands

A command that runs without interruption has one of a few effects on the maps.
The effect is computed from the arguments, the kernel's answers and the maps
before the command; the `run_` lemmas say that the command does just that.
-/

namespace HawkGate

open CString

variable {ncpu : Nat}

/-! ## add -/

/-- What an add does: nothing, remove the client again after a failed write, or
    install client, counter and (when `rateOk`) rate profile. -/
inductive AddEffect where
  | refused
  | rolledBack (m : HgMacKey)
  | installed (m : HgMacKey) (ip : IpAddr) (client : HgClient) (rate : HgRateCfg) (rateOk : Bool)
  deriving DecidableEq

def AddEffect.status : AddEffect → Status
  | .installed .. => .success
  | _ => .failed

def HgMaps.afterAdd (s : HgMaps ncpu) : AddEffect → HgMaps ncpu
  | .refused => s
  | .rolledBack m => { s with clients := s.clients.erase m }
  | .installed m ip client rate rateOk =>
    { s with
      clients := s.clients.put m client
      counters := s.counters.put ip fun _ => HgCounter.zero
      rates := if rateOk then s.rates.put client.rateLimitId rate else s.rates }

/-- The profile under a client's rate id after its add, which stores one if it can. -/
def HgMaps.profileAfterAdd (s : HgMaps ncpu) (client : HgClient) (rate : HgRateCfg)
    (rateOk : Bool) : Option HgRateCfg :=
  if rateOk then some rate else s.rates.lookup client.rateLimitId

/-- The MAC and address that an add is about. -/
def addTargetOf (env : SysEnv) (s : HgMaps ncpu) (mac ip : Option CString) :
    Option (HgMacKey × IpAddr) :=
  match mac, ip with
  | some mac, some ip => (scanMacKey mac).bind fun m => (inetPton ip).map fun a => (m, a)
  | some mac, none =>
    (scanMacKey mac).bind fun m =>
      if env.objGet .hgMacIp then (s.macIp.lookup m).map fun a => (m, a) else none
  | none, some ip =>
    (inetPton ip).bind fun a =>
      if env.objGet .hgIpMac then (s.ipMac.lookup a).map fun m => (m, a) else none
  | none, none => none

/-- The three maps of an add can be opened. -/
def SysEnv.opensAll (env : SysEnv) : Bool :=
  env.objGet .hgClients && env.objGet .hgCounters && env.objGet .hgRates

def addWriteEffect (env : SysEnv) (s : HgMaps ncpu) (m : HgMacKey) (ip : IpAddr)
    (client : HgClient) (rate : HgRateCfg) : AddEffect :=
  if env.Accepts .hgClients s.clients m then
    if env.calloc = true ∧ env.Accepts .hgCounters s.counters ip then
      .installed m ip client rate (decide (env.Accepts .hgRates s.rates client.rateLimitId))
    else .rolledBack m
  else .refused

/-- The client entry that an add with these arguments writes. -/
def AddArgs.client (a : AddArgs) (env : SysEnv) : HgClient :=
  addClientVal (env.clock .monotonic).toNs a.expire a.idle a.rateId

/-- The rate profile that an add with these arguments writes. -/
def AddArgs.rate (a : AddArgs) : HgRateCfg := addRateVal a.dLimit a.uLimit

def addActionEffect (env : SysEnv) (s : HgMaps ncpu) (a : AddArgs) : AddEffect :=
  match addTargetOf env s a.mac a.ip with
  | none => .refused
  | some (m, ip) =>
    if env.opensAll then addWriteEffect env s m ip (a.client env) a.rate else .refused

def addEffect (env : SysEnv) (s : HgMaps ncpu) (opts : List AddOpt) : AddEffect :=
  match parseAdd opts with
  | none => .refused
  | some a => addActionEffect env s a

/-- The session of an add can be installed: its maps open, its client and counter find room, and
    there is memory. -/
structure AddArgs.Installs (a : AddArgs) (env : SysEnv) (s : HgMaps ncpu) (m : HgMacKey)
    (ip : IpAddr) : Prop where
  target : addTargetOf env s a.mac a.ip = some (m, ip)
  opens : env.opensAll = true
  client : env.Accepts .hgClients s.clients m
  calloc : env.calloc = true
  counter : env.Accepts .hgCounters s.counters ip

theorem AddArgs.Installs.addActionEffect {a : AddArgs} {env : SysEnv} {s : HgMaps ncpu}
    {m : HgMacKey} {ip : IpAddr} (h : a.Installs env s m ip) :
    addActionEffect env s a = .installed m ip (a.client env) a.rate
      (decide (env.Accepts .hgRates s.rates a.rateId)) := by
  rw [HawkGate.addActionEffect, h.target]
  dsimp only
  rw [if_pos h.opens, addWriteEffect, if_pos h.client, if_pos ⟨h.calloc, h.counter⟩]
  rfl

/-- No other add installs, and the values are computed from the arguments. -/
theorem addActionEffect_installed {a : AddArgs} {env : SysEnv} {s : HgMaps ncpu} {m : HgMacKey}
    {ip : IpAddr} {client : HgClient} {rate : HgRateCfg} {rateOk : Bool}
    (h : addActionEffect env s a = .installed m ip client rate rateOk) :
    a.Installs env s m ip ∧ client = a.client env ∧ rate = a.rate ∧
      rateOk = decide (env.Accepts .hgRates s.rates client.rateLimitId) := by
  unfold addActionEffect at h
  split at h
  · cases h
  · next m' ip' htarget =>
    split at h
    · next hopens =>
      unfold addWriteEffect at h
      split at h
      · next hclient =>
        split at h
        · next hcounter =>
          obtain ⟨rfl, rfl, rfl, rfl, rfl⟩ := AddEffect.installed.inj h
          exact ⟨⟨htarget, hopens, hclient, hcounter.1, hcounter.2⟩, rfl, rfl, rfl⟩
        · cases h
      · cases h
    · cases h

/-- An add that can be installed is. -/
theorem addEffect_of_installs {env : SysEnv} {s : HgMaps ncpu} {opts : List AddOpt} {a : AddArgs}
    {m : HgMacKey} {ip : IpAddr} (ha : parseAdd opts = some a) (h : a.Installs env s m ip) :
    addEffect env s opts = .installed m ip (a.client env) a.rate
      (decide (env.Accepts .hgRates s.rates a.rateId)) := by
  rw [addEffect, ha]
  exact h.addActionEffect

section
variable {env : SysEnv} {s : HgMaps ncpu} {opts : List AddOpt} {m : HgMacKey} {ip : IpAddr}
  {client : HgClient} {rate : HgRateCfg} {rateOk : Bool}
  (h : addEffect env s opts = .installed m ip client rate rateOk)

include h

theorem installs_of_installed :
    ∃ a, parseAdd opts = some a ∧ a.Installs env s m ip ∧ client = a.client env ∧ rate = a.rate ∧
      rateOk = decide (env.Accepts .hgRates s.rates client.rateLimitId) := by
  unfold addEffect at h
  split at h
  · cases h
  · next a ha => exact ⟨a, ha, addActionEffect_installed h⟩

/-- An installing add had its target, found room for client and counter, and computed its
    values from its arguments. -/
theorem addEffect_installed :
    ∃ a, parseAdd opts = some a ∧ addTargetOf env s a.mac a.ip = some (m, ip) ∧
      client = a.client env ∧ rate = a.rate ∧ s.clients.HasRoom m ∧ s.counters.HasRoom ip ∧
      rateOk = decide (env.Accepts .hgRates s.rates client.rateLimitId) := by
  obtain ⟨a, ha, hinstalls, hclient, hrate, hok⟩ := installs_of_installed h
  exact ⟨a, ha, hinstalls.target, hclient, hrate, hinstalls.client.2, hinstalls.counter.2, hok⟩

/-- The client entries after an installing add. -/
theorem lookup_clients_install (k : HgMacKey) :
    (s.afterAdd (.installed m ip client rate rateOk)).clients.lookup k =
      if k = m then some client else s.clients.lookup k := by
  obtain ⟨-, -, -, -, -, hroom, -, -⟩ := addEffect_installed h
  simp [HgMaps.afterAdd, BoundedMap.lookup_put, hroom]

/-- The counters after an installing add. -/
theorem lookup_counters_install (k : IpAddr) :
    (s.afterAdd (.installed m ip client rate rateOk)).counters.lookup k =
      if k = ip then some fun _ => HgCounter.zero else s.counters.lookup k := by
  obtain ⟨-, -, -, -, -, -, hroom, -⟩ := addEffect_installed h
  simp [HgMaps.afterAdd, BoundedMap.lookup_put, hroom]

/-- The profiles after an installing add. -/
theorem lookup_rates_install (id : UInt32) :
    (s.afterAdd (.installed m ip client rate rateOk)).rates.lookup id =
      if id = client.rateLimitId then s.profileAfterAdd client rate rateOk
      else s.rates.lookup id := by
  obtain ⟨-, -, -, -, -, -, -, hok⟩ := addEffect_installed h
  cases rateOk with
  | false =>
    simp only [HgMaps.afterAdd, HgMaps.profileAfterAdd, Bool.false_eq_true, if_false]
    split
    · next hid => rw [hid]
    · rfl
  | true =>
    have haccepts : env.Accepts .hgRates s.rates client.rateLimitId := of_decide_eq_true hok.symm
    simp [HgMaps.afterAdd, HgMaps.profileAfterAdd, BoundedMap.lookup_put, haccepts.2]

end

section
variable (env : SysEnv) (s : HgMaps ncpu)

theorem run_addTarget (mac ip : Option CString) :
    (addTarget mac ip).run env s = (addTargetOf env s mac ip, s) := by
  cases mac with
  | some mac =>
    cases ip with
    | some ip => rfl
    | none =>
      rw [addTarget, addTargetOf]
      cases scanMacKey mac with
      | none => rfl
      | some m => by_cases hopen : env.objGet .hgMacIp = true <;> simp [Sys.exec, hopen]
  | none =>
    cases ip with
    | some ip =>
      rw [addTarget, addTargetOf]
      cases inetPton ip with
      | none => rfl
      | some a => by_cases hopen : env.objGet .hgIpMac = true <;> simp [Sys.exec, hopen]
    | none => rfl

theorem run_addWrite (m : HgMacKey) (ip : IpAddr) (client : HgClient) (rate : HgRateCfg) :
    (addWrite m ip client rate).run env s =
      ((addWriteEffect env s m ip client rate).status,
        s.afterAdd (addWriteEffect env s m ip client rate)) := by
  simp only [addWrite, addWriteEffect, Tool.run_bind, Tool.run_sys, Sys.exec, commit_update]
  by_cases hclient : env.Accepts .hgClients s.clients m
  · by_cases hcalloc : env.calloc = true
    · by_cases hcounter : env.Accepts .hgCounters s.counters ip
      · by_cases hrate : env.Accepts .hgRates s.rates client.rateLimitId <;>
          simp [Sys.exec, commit_update, hclient, hcalloc, hcounter, hrate, AddEffect.status,
            HgMaps.afterAdd]
      · simp [Sys.exec, commit_update, commit_delete, hclient, hcalloc, hcounter,
          AddEffect.status, HgMaps.afterAdd, BoundedMap.erase_put]
    · simp [Sys.exec, commit_delete, hclient, hcalloc, AddEffect.status, HgMaps.afterAdd,
        BoundedMap.erase_put]
  · simp [hclient, AddEffect.status, HgMaps.afterAdd]

theorem run_addInstall (m : HgMacKey) (ip : IpAddr) (client : HgClient) (rate : HgRateCfg) :
    (addInstall m ip client rate).run env s =
      if env.opensAll then
        ((addWriteEffect env s m ip client rate).status,
          s.afterAdd (addWriteEffect env s m ip client rate))
      else (.failed, s) := by
  have hopens : (env.objGet .hgClients && env.objGet .hgCounters && env.objGet .hgRates) =
      env.opensAll := rfl
  simp only [addInstall, Tool.run_bind, Tool.run_sys, Sys.exec, hopens]
  by_cases hopen : env.opensAll = true
  · simp [hopen, run_addWrite, Sys.exec]
  · simp [hopen, run_closeIf]

theorem run_addAction (a : AddArgs) :
    (addAction a).run env s =
      ((addActionEffect env s a).status, s.afterAdd (addActionEffect env s a)) := by
  simp only [addAction, addActionEffect, Tool.run_bind, run_addTarget]
  cases addTargetOf env s a.mac a.ip with
  | none => rfl
  | some t =>
    simp only [Tool.run_bind, Tool.run_sys, Sys.exec, run_addInstall]
    split
    · rfl
    · rfl

/-- An add does what its effect says. -/
theorem run_hgctlAdd (opts : List AddOpt) :
    (hgctlAdd opts).run env s = ((addEffect env s opts).status, s.afterAdd (addEffect env s opts)) := by
  rw [hgctlAdd, addEffect]
  cases parseAdd opts with
  | none => rfl
  | some a => exact run_addAction env s a

end

/-! ## del -/

/-- The maps without the session of a client: its profile if the rate map opens, its
    entry, and the counter of its bound address if the binding map opens. -/
def HgMaps.afterDel (s : HgMaps ncpu) (env : SysEnv) (m : HgMacKey) : HgMaps ncpu :=
  { s with
    clients := s.clients.erase m
    rates :=
      match s.clients.lookup m with
      | some val => if env.objGet .hgRates then s.rates.erase val.rateLimitId else s.rates
      | none => s.rates
    counters :=
      match s.macIp.lookup m with
      | some ip => if env.objGet .hgMacIp then s.counters.erase ip else s.counters
      | none => s.counters }

/-- The MAC that a del deletes: the given one, or the one bound to the given address. -/
def delTarget (env : SysEnv) (s : HgMaps ncpu) (opts : List DelOpt) : Option HgMacKey :=
  (parseDel opts).bind fun v =>
    if v.mac ≠ [] then scanMacKey v.mac
    else (inetPton v.ip).bind fun a => if env.objGet .hgIpMac then s.ipMac.lookup a else none

/-- The two maps of a del can be opened. -/
def SysEnv.opensBoth (env : SysEnv) : Bool := env.objGet .hgClients && env.objGet .hgCounters

section
variable (env : SysEnv) (s : HgMaps ncpu)

theorem run_delEntries (m : HgMacKey) : (delEntries m).run env s = ((), s.afterDel env m) := by
  have hrate : (delRate m).run env s = ((), { s with
      rates :=
        match s.clients.lookup m with
        | some val => if env.objGet .hgRates then s.rates.erase val.rateLimitId else s.rates
        | none => s.rates }) := by
    simp only [delRate, Tool.run_bind, Tool.run_sys, Sys.exec]
    cases s.clients.lookup m with
    | none => rfl
    | some val => by_cases hopen : env.objGet .hgRates = true <;>
        simp [Sys.exec, commit_delete, hopen]
  have hcounter : ∀ t : HgMaps ncpu, (delCounter m).run env t = ((), { t with
      counters :=
        match t.macIp.lookup m with
        | some ip => if env.objGet .hgMacIp then t.counters.erase ip else t.counters
        | none => t.counters }) := by
    intro t
    by_cases hopen : env.objGet .hgMacIp = true
    · simp only [delCounter, Tool.run_bind, Tool.run_sys, Sys.exec, hopen, if_true]
      cases t.macIp.lookup m with
      | none => rfl
      | some ip => simp [Sys.exec, commit_delete]
    · simp only [delCounter, Tool.run_bind, Tool.run_sys, Sys.exec, hopen]
      cases t.macIp.lookup m <;> rfl
  simp only [delEntries, Tool.run_bind, hrate, Tool.run_sys, Sys.exec, commit_delete, hcounter]
  rfl

theorem run_delAction (mac : CString) :
    (delAction mac).run env s =
      match scanMacKey mac with
      | none => (.failed, s)
      | some m => if env.opensBoth then (.success, s.afterDel env m) else (.failed, s) := by
  have hopens : (env.objGet .hgClients && env.objGet .hgCounters) = env.opensBoth := rfl
  rw [delAction]
  cases scanMacKey mac with
  | none => rfl
  | some m =>
    simp only [Tool.run_bind, Tool.run_sys, Sys.exec, hopens]
    by_cases hopen : env.opensBoth = true
    · simp [hopen, run_delEntries, Sys.exec]
    · simp [hopen, run_closeIf]

theorem run_resolveIpToMac (ip : CString) :
    (resolveIpToMac ip).run env s =
      (((inetPton ip).bind fun a =>
        if env.objGet .hgIpMac then s.ipMac.lookup a else none).map macToStr, s) := by
  rw [resolveIpToMac]
  cases inetPton ip with
  | none => rfl
  | some a => by_cases hopen : env.objGet .hgIpMac = true <;> simp [Sys.exec, hopen]

/-- A del removes the session of its target. -/
theorem run_hgctlDel (opts : List DelOpt) :
    (hgctlDel opts).run env s =
      match delTarget env s opts with
      | none => (.failed, s)
      | some m => if env.opensBoth then (.success, s.afterDel env m) else (.failed, s) := by
  rw [hgctlDel, delTarget]
  cases parseDel opts with
  | none => rfl
  | some v =>
    simp only [Option.bind_some]
    by_cases hmac : v.mac ≠ []
    · rw [if_pos hmac, if_pos hmac, run_delAction]
    · rw [if_neg hmac, if_neg hmac, Tool.run_bind, run_resolveIpToMac]
      cases (inetPton v.ip).bind fun a => if env.objGet .hgIpMac then s.ipMac.lookup a else none with
      | none => rfl
      | some m =>
        -- the text of a MAC address fits the buffer of `parse_del`
        have hbuf : strncpyInto 18 (macToStr m) = macToStr m :=
          List.take_of_length_le (by rw [macToStr, length_macText])
        simp only [Option.map_some, hbuf]
        rw [run_delAction, scanMacKey_macToStr]

end

/-! ## map-del -/

section
variable (env : SysEnv) (s : HgMaps ncpu)

/-- A `map-del` on `hg_clients` removes the entry of the given MAC. -/
theorem run_mapDelAction_clients (keySpec : CString) :
    (mapDelAction "hg_clients".toList keySpec).run env s =
      match scanMacKey keySpec with
      | none => (.failed, s)
      | some m =>
        if env.objGet .hgClients then
          (removed (s.clients.lookup m).isSome, { s with clients := s.clients.erase m })
        else (.failed, s) := by
  have hname : MapName.ofText "hg_clients".toList = some .hgClients := by decide
  rw [mapDelAction, hname]
  simp only [Tool.run_bind, Tool.run_sys, Sys.exec, mapDelKey, mapDelClient]
  by_cases hopen : env.objGet .hgClients = true
  · cases scanMacKey keySpec <;> simp [hopen, Sys.exec, commit_delete]
  · cases scanMacKey keySpec <;> simp [hopen]

/-- `map-del` with another map changes conntrack or the allow-list only. -/
theorem run_mapDelKey_frame {map : MapName} (hmap : map ≠ .hgClients) (keySpec : CString) :
    ((mapDelKey map keySpec).run env s).2 =
      { s with
        conntrack := ((mapDelKey map keySpec).run env s).2.conntrack
        proto := ((mapDelKey map keySpec).run env s).2.proto } := by
  cases map with
  | hgClients => exact absurd rfl hmap
  | hgConntrack =>
    simp only [mapDelKey, mapDelConntrack]
    repeat' split
    all_goals rfl
  | hgProto =>
    simp only [mapDelKey, mapDelProto]
    split
    · rfl
    · rfl
  | _ => rfl

/-- The MAC whose client entry a `map-del` removes, if any. -/
def mapDelVictim (env : SysEnv) (opts : List MapDelOpt) : Option HgMacKey :=
  (parseMapDel opts).bind fun v =>
    if v.mapName = "hg_clients".toList ∧ env.objGet .hgClients = true then scanMacKey v.keySpec
    else none

/-- A `map-del` removes one client entry, or changes conntrack or the allow-list only. -/
theorem run_hgctlMapDel_frame (opts : List MapDelOpt) :
    ((hgctlMapDel opts).run env s).2 =
      { s with
        clients := (mapDelVictim env opts).elim s.clients s.clients.erase
        conntrack := ((hgctlMapDel opts).run env s).2.conntrack
        proto := ((hgctlMapDel opts).run env s).2.proto } := by
  rw [hgctlMapDel, mapDelVictim]
  cases parseMapDel opts with
  | none => rfl
  | some v =>
    simp only [Option.bind_some]
    by_cases hname : v.mapName = "hg_clients".toList
    · rw [hname, run_mapDelAction_clients]
      by_cases hopen : env.objGet .hgClients = true
      · cases scanMacKey v.keySpec <;> simp [hopen]
      · cases scanMacKey v.keySpec <;> simp [hopen]
    · rw [if_neg (fun h => hname h.1), mapDelAction]
      cases hmap : MapName.ofText v.mapName with
      | none => rfl
      | some map =>
        have hne : map ≠ .hgClients := by
          rintro rfl
          exact hname (MapName.text_of_ofText hmap).symm
        simp only [Tool.run_bind, Tool.run_sys, Sys.exec]
        by_cases hopen : env.objGet map = true
        · simp only [hopen, if_true, Tool.run_bind, Tool.run_sys, Sys.exec, Tool.run_pure]
          exact run_mapDelKey_frame env s hne v.keySpec
        · simp [hopen]

end

end HawkGate
