-- SUMMARY: Whether the timeout and the rates of the configuration file reach the maps as they are written.
import HawkGate.Guarantees.ExplicitLogin
import HawkGate.Guarantees.RateIsolation
import Mathlib.Tactic.NormNum.IsCoprime

/-!
# Configured limits

A login installs the limits of the provider or, where it gives 0, those of the
configuration file. On the way from the text to the maps the numbers pass
through 64-bit and 32-bit fields, a command line and two conversions of units.
They arrive as written exactly if the ones in force fit 32 bits.
-/

namespace HawkGate

open CString StdString

variable {ncpu : Nat}

/-! ## The limits in force -/

/-- The provider's limit, or else the number in the file; nothing written is 0. -/
def limitInForce (provided : UInt32) (written : Option (List Char)) : Int :=
  if provided ≠ 0 then provided.toNat else written.elim 0 statedNumber

/-- The limit is not negative and below 2^32. -/
def Fits32 (limit : Int) : Prop := 0 ≤ limit ∧ limit < 2 ^ 32

instance (limit : Int) : Decidable (Fits32 limit) := inferInstanceAs (Decidable (_ ∧ _))

/-- The entry of a client expires when the timeout in force has passed since `now`. -/
structure ExpiryReaches (text : List Char) (result : AuthResult) (now : UInt64) (cs : HgClient) :
    Prop where
  at_timeout : (cs.expiryNs.toNat : Int) =
    now.toNat + limitInForce result.expireSec (writtenValue text .sessionTimeout) * 10 ^ 9
  expires : cs.expiryNs ≠ 0

/-- The profile of a client gives 125 bytes/s for each kbit/s in force; without a profile there
    is no limit, like with rate 0. -/
structure RatesReach (text : List Char) (result : AuthResult) (profile : Option HgRateCfg) :
    Prop where
  download : ((profile.elim 0 fun c => c.rateBpsD.toNat : Nat) : Int) =
    125 * limitInForce result.downKbps (writtenValue text .dRate)
  upload : ((profile.elim 0 fun c => c.rateBpsU.toNat : Nat) : Int) =
    125 * limitInForce result.upKbps (writtenValue text .uRate)

/-- The session of a client has the limits in force. -/
def LimitsReachKernel (text : List Char) (result : AuthResult) (now : UInt64) (m : HgMacKey)
    (s : HgMaps ncpu) : Prop :=
  ∃ cs, s.clients.lookup m = some cs ∧ ExpiryReaches text result now cs ∧
    RatesReach text result (s.rates.lookup cs.rateLimitId)

/-! ## From the text to the field -/

/-- A field that is narrowed to 32 bits holds the number in the file modulo 2^32. -/
theorem toNat_field {key : ConfigKey} {field : HgConfig → UInt32} (hf : FieldOf key field stoulU32)
    (hinit : field .init = 0) {text : List Char} {cfg : HgConfig} (h : loadConfig text = some cfg) :
    ((field cfg).toNat : Int) = (writtenValue text key).elim 0 statedNumber % 2 ^ 32 := by
  have hfield := loadConfig_field hf h
  cases hw : writtenValue text key with
  | none =>
    rw [hw] at hfield
    rw [hfield, hinit]
    rfl
  | some v =>
    rw [hw] at hfield
    obtain ⟨y, hy, hx⟩ := Option.map_eq_some_iff.mp hfield
    have hmod := toNat_stoull hy
    rw [← hx, UInt64.toNat_toUInt32, Option.elim_some]
    omega

/-- The limit that a login asks for: the provider's or else the field. -/
def usedLimit (provided field : UInt32) : UInt32 := if provided ≠ 0 then provided else field

/-- What a login asks for is the limit in force modulo 2^32. -/
theorem toNat_usedLimit (provided : UInt32) {field : UInt32} {written : Option (List Char)}
    (hfield : (field.toNat : Int) = written.elim 0 statedNumber % 2 ^ 32) :
    ((usedLimit provided field).toNat : Int) = limitInForce provided written % 2 ^ 32 := by
  unfold usedLimit limitInForce
  split
  · have hlt := provided.toNat_lt
    omega
  · exact hfield

/-! ## From the field to the maps -/

/-- A 32-bit number passes the command line unchanged. -/
theorem atoll_toText (n : UInt32) : atoll (toText n) = Int64.ofNat n.toNat := by
  have hn := n.toNat_lt
  rw [atoll, toText, strtol10_decimal (by omega), Int64.ofInt_eq_ofNat]

/-- The arguments of the command that a login runs. -/
theorem parseAdd_addOpts {auth : ClientAuth} {cfg : HgConfig} {a : AddArgs}
    (h : parseAdd (auth.addOpts cfg) = some a) :
    a.expire = Int64.ofNat auth.expirySec.toNat ∧ a.dLimit = auth.dnRate.toUInt64 ∧
      a.uLimit = auth.upRate.toUInt64 := by
  have hopts : ∃ v, (auth.addOpts cfg).foldlM AddVars.set .init = some v ∧
      v.expire = Int64.ofNat auth.expirySec.toNat ∧ v.dLimit = auth.dnRate.toUInt64 ∧
      v.uLimit = auth.upRate.toUInt64 := by
    unfold ClientAuth.addOpts
    split
    · refine ⟨_, rfl, ?_⟩
      simp [atoll_toText]
    · refine ⟨_, rfl, ?_⟩
      simp [atoll_toText]
  obtain ⟨v, hv, hvals⟩ := hopts
  unfold parseAdd at h
  rw [hv, Option.bind_eq_bind, Option.bind_some] at h
  split at h
  · cases h
  · obtain rfl := Option.some.inj h
    exact hvals

/-- The entry of an add never expires for a timeout of 0, else when the timeout has passed. -/
theorem expiryNs_addClientVal (now : UInt64) (n : UInt32) (idle : Int64) (rateId : UInt32) :
    (addClientVal now (Int64.ofNat n.toNat) idle rateId).expiryNs.toNat =
      if n = 0 then 0 else (now.toNat + n.toNat * 10 ^ 9) % 2 ^ 64 := by
  have hn := n.toNat_lt
  unfold addClientVal
  by_cases h0 : n = 0
  · subst h0
    rfl
  · have hpos : 0 < Int64.ofNat n.toNat := by
      rw [Int64.lt_iff_toInt_lt, Int64.toInt_ofNat_of_lt (by omega)]
      have : n.toNat ≠ 0 := fun h => h0 (UInt32.toNat_inj.mp h)
      simp
      omega
    rw [if_pos hpos, if_neg h0]
    have hsec : (Int64.ofNat n.toNat).toUInt64.toNat = n.toNat := by
      simp [Int64.toUInt64_ofNat']
    have hns : nsecPerSec.toNat = 10 ^ 9 := rfl
    rw [UInt64.toNat_add, UInt64.toNat_mul, hsec, hns, Nat.add_mod_mod]

/-- The limits of an add that come from 32 bits are converted exactly. -/
theorem toNat_kbitToBps_toUInt64 (n : UInt32) : (kbitToBps n.toUInt64).toNat = 125 * n.toNat := by
  have hn := n.toNat_lt
  rw [toNat_kbitToBps, UInt32.toNat_toUInt64]
  omega

/-! ## The login -/

/-- The options of the `hgctl add` that a login of the client runs. -/
def loginOpts (cfg : HgConfig) (result : AuthResult) (client : IpAddr) (port : UInt16) :
    List AddOpt := (result.clientAuth cfg (inetNtop client) port).addOpts cfg

/-- The file states a timeout, and not 0. -/
theorem statedTimeout_ne_zero {text : List Char} {cfg : HgConfig} (h : loadConfig text = some cfg) :
    (writtenValue text .sessionTimeout).elim 0 statedNumber ≠ 0 := by
  have hvalid : cfg.sessionTimeout ≠ 0 := by
    have := isValid_of_loadConfig h
    simp only [HgConfig.isValid, Bool.and_eq_true, decide_eq_true_eq] at this
    exact this.1.1.2
  have hfield := loadConfig_field fieldOf_sessionTimeout h
  cases hw : writtenValue text .sessionTimeout with
  | none =>
    rw [hw] at hfield
    exact absurd hfield hvalid
  | some v =>
    rw [hw] at hfield
    have hmod := toNat_stoull hfield
    have hne : cfg.sessionTimeout.toNat ≠ 0 := fun h0 => hvalid (UInt64.toNat_inj.mp h0)
    rw [Option.elim_some]
    omega

/-- The limit in force for the session is not 0. -/
theorem limitInForce_ne_zero {text : List Char} {cfg : HgConfig} (h : loadConfig text = some cfg)
    (provided : UInt32) : limitInForce provided (writtenValue text .sessionTimeout) ≠ 0 := by
  unfold limitInForce
  split
  · next hp =>
    have : provided.toNat ≠ 0 := fun h0 => hp (UInt32.toNat_inj.mp h0)
    omega
  · exact statedTimeout_ne_zero h

/-- What narrowing to 32 bits cuts off a number of seconds is a multiple of 2^64 ns only if it is
    0, or too large. -/
theorem eq_zero_of_cut {k q : Int} (hq : k * (2 ^ 32 * 10 ^ 9) = q * 2 ^ 64) (hk : |k| < 2 ^ 23) :
    k = 0 := by
  have hdvd : (2 ^ 23 : Int) ∣ k * 5 ^ 9 := ⟨q, by linarith⟩
  have hcop : IsCoprime (2 ^ 23 : Int) (5 ^ 9) := IsCoprime.pow (by norm_num)
  exact Int.eq_zero_of_abs_lt_dvd (hcop.dvd_of_dvd_mul_right hdvd) hk

/-- An expiry computed modulo 2^32 and 2^64, with 0 for never, is the one in force exactly if
    nothing wraps. -/
theorem expiry_eq_iff {now used expiry : Nat} {limit : Int} (hnow : now < 2 ^ 64)
    (hne : limit ≠ 0) (hused : (used : Int) = limit % 2 ^ 32)
    (hexpiry : expiry = if used = 0 then 0 else (now + used * 10 ^ 9) % 2 ^ 64) :
    ((expiry : Int) = now + limit * 10 ^ 9 ∧ expiry ≠ 0) ↔
      Fits32 limit ∧ now + limit * 10 ^ 9 < 2 ^ 64 := by
  unfold Fits32
  constructor
  · rintro ⟨heq, hpos⟩
    split at hexpiry
    · exact absurd hexpiry hpos
    · have hlt : expiry < 2 ^ 64 := hexpiry ▸ Nat.mod_lt _ (by decide)
      have hwrap := Nat.mod_add_div (now + used * 10 ^ 9) (2 ^ 64)
      rw [← hexpiry] at hwrap
      have hcut := Int.emod_add_mul_ediv limit (2 ^ 32)
      rw [← hused] at hcut
      generalize limit / 2 ^ 32 = k at hcut
      generalize (now + used * 10 ^ 9) / 2 ^ 64 = q at hwrap
      have hmod : (used : Int) < 2 ^ 32 := hused ▸ Int.emod_lt_of_pos limit (by norm_num)
      zify at hwrap hlt hnow
      have hk : k = 0 := by
        refine eq_zero_of_cut (q := - q) (by linarith) ?_
        rw [abs_lt]
        constructor
        · linarith
        · linarith
      subst hk
      refine ⟨⟨?_, ?_⟩, ?_⟩
      · linarith
      · linarith
      · linarith
  · rintro ⟨⟨hnonneg, hfits⟩, hend⟩
    have hsame : (used : Int) = limit := hused.trans (Int.emod_eq_of_lt hnonneg hfits)
    have hused0 : used ≠ 0 := fun h0 => hne (by rw [← hsame, h0]; rfl)
    rw [if_neg hused0, Nat.mod_eq_of_lt (by zify; rw [hsame]; exact hend)] at hexpiry
    refine ⟨by rw [hexpiry, ← hsame]; push_cast; rfl, ?_⟩
    have := Nat.pos_of_ne_zero hused0
    rw [hexpiry]
    positivity

/-- The entry of a login expires as configured exactly if the timeout in force fits and the end
    can be represented. -/
theorem expiryReaches_iff {text : List Char} {cfg : HgConfig} (h : loadConfig text = some cfg)
    {result : AuthResult} {now : UInt64} {cs : HgClient}
    (hcs : cs.expiryNs.toNat =
      if usedLimit result.expireSec cfg.sessionTimeout.toUInt32 = 0 then 0
      else (now.toNat + (usedLimit result.expireSec cfg.sessionTimeout.toUInt32).toNat * 10 ^ 9) %
        2 ^ 64) :
    ExpiryReaches text result now cs ↔
      Fits32 (limitInForce result.expireSec (writtenValue text .sessionTimeout)) ∧
        now.toNat + limitInForce result.expireSec (writtenValue text .sessionTimeout) * 10 ^ 9 <
          2 ^ 64 := by
  have hused := toNat_usedLimit result.expireSec
    (toNat_field (fieldOf_sessionTimeout.map UInt64.toUInt32) rfl h)
  simp only [← UInt32.toNat_inj] at hcs
  rw [← expiry_eq_iff now.toNat_lt (limitInForce_ne_zero h result.expireSec) hused hcs]
  constructor
  · intro hreach
    exact ⟨hreach.at_timeout, fun h0 => hreach.expires (UInt64.toNat_inj.mp h0)⟩
  · rintro ⟨heq, hpos⟩
    exact ⟨heq, fun h0 => hpos (by rw [h0]; rfl)⟩

/-- The profile of a login gives the rates in force exactly if they fit. -/
theorem ratesReach_iff {text : List Char} {cfg : HgConfig} (h : loadConfig text = some cfg)
    {result : AuthResult} {rate : HgRateCfg}
    (hrate : rate = addRateVal (usedLimit result.downKbps cfg.dRate).toUInt64
      (usedLimit result.upKbps cfg.uRate).toUInt64) :
    RatesReach text result (some rate) ↔
      Fits32 (limitInForce result.downKbps (writtenValue text .dRate)) ∧
        Fits32 (limitInForce result.upKbps (writtenValue text .uRate)) := by
  have hdown := toNat_usedLimit result.downKbps (toNat_field fieldOf_dRate rfl h)
  have hup := toNat_usedLimit result.upKbps (toNat_field fieldOf_uRate rfl h)
  have hd := toNat_kbitToBps_toUInt64 (usedLimit result.downKbps cfg.dRate)
  have hu := toNat_kbitToBps_toUInt64 (usedLimit result.upKbps cfg.uRate)
  subst hrate
  unfold Fits32
  constructor
  · rintro ⟨hdn, hupl⟩
    simp only [Option.elim_some, addRateVal, hd, hu] at hdn hupl
    omega
  · rintro ⟨hdn, hupl⟩
    constructor
    · simp only [Option.elim_some, addRateVal, hd]
      omega
    · simp only [Option.elim_some, addRateVal, hu]
      omega

/-- Deleting a flow deletes no session. -/
theorem mapDelVictim_conntrack (e : SysEnv) (key : CString) : mapDelVictim e
      [.map (cStr "hg_conntrack".toList), .key key] = none := by
  rw [mapDelVictim, Option.bind_eq_none_iff]
  intro v hv
  have hname : v.mapName = "hg_conntrack".toList := by
    unfold parseMapDel at hv
    obtain ⟨v', hv', hv⟩ := Option.bind_eq_some_iff.mp hv
    obtain rfl := Option.some.inj hv'
    split at hv
    · cases hv
    · obtain rfl := Option.some.inj hv
      rfl
  rw [if_neg]
  rw [hname]
  exact fun h => absurd h.1 (by decide)

/-- Forgetting the flow of a login changes neither sessions nor profiles. -/
theorem run_mapEleDel_conntrack (key : List Char) (env : DaemonEnv) (s : HgMaps ncpu) :
    ((mapEleDel "hg_conntrack".toList key).run env s).2.clients = s.clients ∧
      ((mapEleDel "hg_conntrack".toList key).run env s).2.rates = s.rates := by
  simp only [mapEleDel, execCmd, Daemon.run_perform, DaemonOp.exec]
  split
  · simp only [Hgctl.tool]
    rw [run_hgctlMapDel_frame, mapDelVictim_conntrack]
    exact ⟨rfl, rfl⟩
  · exact ⟨rfl, rfl⟩

section
variable (cfg : HgConfig) (provider : AuthProvider) (req : HttpRequest) (client : IpAddr)
  (port : UInt16) (env : DaemonEnv) (s : HgMaps ncpu)

/-- A successful login leaves the sessions and profiles of its add. -/
theorem run_handleAuth {result : AuthResult}
    (hresult : provider (loginCredentials req (inetNtop client)) = result)
    (hok : result.success = true)
    (hfork : env.fork (.add (loginOpts cfg result client port)) = true) :
    let t := s.afterAdd (addEffect (env.sys (.add (loginOpts cfg result client port))) s
      (loginOpts cfg result client port))
    ((handleAuth cfg provider req (inetNtop client) port).run env s).2.clients = t.clients ∧
      ((handleAuth cfg provider req (inetNtop client) port).run env s).2.rates = t.rates := by
  intro t
  have hauth :
      ((authenticate cfg (result.clientAuth cfg (inetNtop client) port)).run env s).2 = t := by
    rw [authenticate_inetNtop client rfl]
    unfold loginOpts at hfork
    simp only [execCmd, Daemon.run_perform, DaemonOp.exec]
    rw [if_pos hfork]
    simp only [Hgctl.tool, run_hgctlAdd]
    rfl
  unfold handleAuth
  rw [hresult]
  simp only [hok, if_true, Daemon.run_bind, hauth]
  split
  · simp only [Daemon.run_bind, Daemon.run_pure]
    exact run_mapEleDel_conntrack _ env t
  · exact ⟨rfl, rfl⟩

end

/-- The limits in force reach the maps exactly if the timeout fits 32 bits and its end 64 bits,
    and the rates fit 32 bits or, where the profile cannot be written, are those of the stored one. -/
theorem limits_reach_kernel_iff {text : List Char} {cfg : HgConfig}
    (hload : loadConfig text = some cfg) (provider : AuthProvider) (req : HttpRequest)
    (client : IpAddr) (port : UInt16) {result : AuthResult}
    (hresult : provider (loginCredentials req (inetNtop client)) = result)
    (hok : result.success = true) (env : DaemonEnv)
    (hfork : env.fork (.add (loginOpts cfg result client port)) = true) (s : HgMaps ncpu)
    {m : HgMacKey} {ip : IpAddr} {cs : HgClient} {rate : HgRateCfg} {rateOk : Bool}
    (hadd : addEffect (env.sys (.add (loginOpts cfg result client port))) s
      (loginOpts cfg result client port) = .installed m ip cs rate rateOk) :
    let now := ((env.sys (.add (loginOpts cfg result client port))).clock .monotonic).toNs
    let timeout := limitInForce result.expireSec (writtenValue text .sessionTimeout)
    LimitsReachKernel text result now m
        ((handleAuth cfg provider req (inetNtop client) port).run env s).2 ↔
      (Fits32 timeout ∧ now.toNat + timeout * 10 ^ 9 < 2 ^ 64) ∧
        if rateOk then
          Fits32 (limitInForce result.downKbps (writtenValue text .dRate)) ∧
            Fits32 (limitInForce result.upKbps (writtenValue text .uRate))
        else RatesReach text result (s.rates.lookup cs.rateLimitId) := by
  intro now timeout
  obtain ⟨hclients, hrates⟩ := run_handleAuth cfg provider req client port env s hresult hok hfork
  obtain ⟨a, ha, -, hcs, hrate, -, -, -⟩ := addEffect_installed hadd
  obtain ⟨hexpire, hdown, hup⟩ := parseAdd_addOpts ha
  rw [hadd] at hclients hrates
  have hentry : (((handleAuth cfg provider req (inetNtop client) port).run env s).2).clients.lookup
      m = some cs := by
    rw [hclients, lookup_clients_install hadd, if_pos rfl]
  have hexpiryNs : cs.expiryNs.toNat =
      if usedLimit result.expireSec cfg.sessionTimeout.toUInt32 = 0 then 0
      else (now.toNat + (usedLimit result.expireSec cfg.sessionTimeout.toUInt32).toNat * 10 ^ 9) %
        2 ^ 64 := by
    rw [hcs, AddArgs.client, hexpire]
    exact expiryNs_addClientVal _ _ _ _
  have hexpiry := expiryReaches_iff hload hexpiryNs
  simp only [LimitsReachKernel, hentry, Option.some.injEq, exists_eq_left', hexpiry, hrates]
  rw [lookup_rates_install hadd, if_pos rfl, HgMaps.profileAfterAdd]
  refine and_congr_right fun _ => ?_
  cases rateOk with
  | true =>
    have hprofile : rate = addRateVal (usedLimit result.downKbps cfg.dRate).toUInt64
        (usedLimit result.upKbps cfg.uRate).toUInt64 := by
      rw [hrate, AddArgs.rate, hdown, hup]
      rfl
    exact ratesReach_iff hload hprofile
  | false => exact Iff.rfl

/-- A configuration file with the given session timeout and rates for both directions. -/
def limitsFile (timeout rate : String) : List Char :=
  "[general]\niface_name = br0\nhttp_port = 2050\nportal_ip = 192.168.99.1\n".toList ++
    "max_clients = 100\ngateway_fqdn = gateway.local\nsession_timeout = ".toList ++
    timeout.toList ++ "\nd_rate = ".toList ++ rate.toList ++ "\nu_rate = ".toList ++ rate.toList ++
    "\n".toList

/-- What that file configures. -/
def limitsConfig (timeout : UInt64) (rate : UInt32) : HgConfig :=
  { exampleConfig with
    sessionTimeout := timeout
    maxClients := 100
    uRate := rate
    dRate := rate }

theorem loadConfig_limitsFile :
    loadConfig (limitsFile "3600" "8000") = some (limitsConfig 3600 8000) := by
  decide +kernel

/-- A submission of the login form. -/
def loginRequest : HttpRequest :=
  ⟨"POST".toList, "/login".toList, [("Host".toList, "192.168.99.1".toList)], [], 0,
    "HTTP/1.1".toList⟩

/-- A timeout of an hour and rates of 8 Mbit/s reach the maps. -/
theorem limits_reach_kernel_hour :
    LimitsReachKernel (limitsFile "3600" "8000") (localAuth ⟨[], [], []⟩) 0 (localMac 1)
      ((handleAuth (limitsConfig 3600 8000) localAuth loginRequest
        (inetNtop (Bytes.addrOfOctets 192 168 99 82)) 40000).run (.good ⟨0, 0⟩ fun _ => none)
        knownClient).2 := by
  have hadd : addEffect ((DaemonEnv.good ⟨0, 0⟩ fun _ => none).sys
      (.add (loginOpts (limitsConfig 3600 8000) (localAuth ⟨[], [], []⟩)
        (Bytes.addrOfOctets 192 168 99 82) 40000))) knownClient
      (loginOpts (limitsConfig 3600 8000) (localAuth ⟨[], [], []⟩)
        (Bytes.addrOfOctets 192 168 99 82) 40000) =
      .installed (localMac 1) (Bytes.addrOfOctets 192 168 99 82) ⟨3600000000000, 0, 0, 82, 0, 0⟩
        ⟨1000000, 1000000, hgHorizonNs⟩ true := by
    decide +kernel
  refine (limits_reach_kernel_iff loadConfig_limitsFile localAuth loginRequest
    (Bytes.addrOfOctets 192 168 99 82) 40000 (rfl : _ = localAuth ⟨[], [], []⟩) rfl
    (.good ⟨0, 0⟩ fun _ => none) rfl knownClient hadd).mpr ?_
  rw [if_pos rfl]
  decide +kernel

/-- A timeout of 2^32 s is accepted and becomes a session that never expires. -/
theorem long_timeout_never_expires :
    let text := limitsFile "4294967296" "8000"
    let cfg := limitsConfig 4294967296 8000
    let s := ((handleAuth cfg localAuth loginRequest
      (inetNtop (Bytes.addrOfOctets 192 168 99 82)) 40000).run (.good ⟨0, 0⟩ fun _ => none)
      knownClient).2
    loadConfig text = some cfg ∧
      s.clients.lookup (localMac 1) = some ⟨0, 0, 0, 82, 0, 0⟩ ∧
      ¬ LimitsReachKernel text (localAuth ⟨[], [], []⟩) 0 (localMac 1) s := by
  intro text cfg s
  have hclient : s.clients.lookup (localMac 1) = some ⟨0, 0, 0, 82, 0, 0⟩ := by decide +kernel
  refine ⟨by decide +kernel, hclient, ?_⟩
  rintro ⟨cs, hcs, hexpiry, -⟩
  obtain rfl := Option.some.inj (hclient.symm.trans hcs)
  exact hexpiry.expires rfl

end HawkGate
