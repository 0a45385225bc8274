-- SUMMARY: Whether the numbers on the command line of `add` reach the maps as they are written.
import HawkGate.Guarantees.ExplicitLogin
import HawkGate.Guarantees.RateIsolation
import Mathlib.Data.Int.ModEq

/-!
# Arguments of add

`parse_add` reads its numbers with `atoll`, which saturates, and `add_action`
takes a number that is not positive for no limit and multiplies in 64 bits. A
number is stored as it is written if it is not negative and its product fits.
-/

namespace HawkGate

open CString

variable {ncpu : Nat}

/-! ## The numbers of a command line -/

def AddOpt.expireArg : AddOpt → Option CString
  | .expire arg => some arg
  | _ => none

def AddOpt.idleArg : AddOpt → Option CString
  | .idle arg => some arg
  | _ => none

def AddOpt.downloadArg : AddOpt → Option CString
  | .downloadRate arg => some arg
  | _ => none

def AddOpt.uploadArg : AddOpt → Option CString
  | .uploadRate arg => some arg
  | _ => none

/-- The last of the texts is the number `z`; without a text it is 0. -/
def LastDenotes (texts : List CString) (z : Int) : Prop :=
  match texts.getLast? with
  | none => z = 0
  | some t => IntegerText DecimalText t z

/-- The options of an add whose numbers are decimal integers. -/
structure NumericAdd where
  opts : List AddOpt
  expire : Int
  idle : Int
  down : Int
  up : Int
  expire_text : LastDenotes (opts.filterMap AddOpt.expireArg) expire
  idle_text : LastDenotes (opts.filterMap AddOpt.idleArg) idle
  down_text : LastDenotes (opts.filterMap AddOpt.downloadArg) down
  up_text : LastDenotes (opts.filterMap AddOpt.uploadArg) up

/-! ## What is stored -/

/-- The entry of a client holds the times of the add. -/
structure NumericAdd.TimesStoredIn (l : NumericAdd) (now : UInt64) (cs : HgClient) : Prop where
  expiry : (cs.expiryNs.toNat : Int) = if l.expire = 0 then 0 else now.toNat + l.expire * 10 ^ 9
  never : cs.expiryNs = 0 → l.expire = 0
  idle : (cs.idleNs.toNat : Int) = l.idle * 10 ^ 9

/-- A profile gives 125 bytes/s for each kbit/s of the add; without a profile there is no limit,
    like with rate 0. -/
structure NumericAdd.RatesStoredIn (l : NumericAdd) (profile : Option HgRateCfg) : Prop where
  download : ((profile.elim 0 fun c => c.rateBpsD.toNat : Nat) : Int) = 125 * l.down
  upload : ((profile.elim 0 fun c => c.rateBpsU.toNat : Nat) : Int) = 125 * l.up

/-- The add fails, or the client that it is about has its numbers in the maps. -/
def NumericAdd.StoredOrRejected (l : NumericAdd) (env : SysEnv) (s : HgMaps ncpu) : Prop :=
  ((hgctlAdd l.opts).run env s).1 = .failed ∨
    ∃ a m ip cs, parseAdd l.opts = some a ∧ addTargetOf env s a.mac a.ip = some (m, ip) ∧
      ((hgctlAdd l.opts).run env s).2.clients.lookup m = some cs ∧
      l.TimesStoredIn (env.clock .monotonic).toNs cs ∧
      l.RatesStoredIn (((hgctlAdd l.opts).run env s).2.rates.lookup cs.rateLimitId)

/-! ## When it is -/

/-- The numbers of the session are not negative and their ends fit 64 bits. -/
structure NumericAdd.TimesFit (l : NumericAdd) (now : UInt64) : Prop where
  expire : 0 ≤ l.expire
  expiry : now.toNat + l.expire * 10 ^ 9 < 2 ^ 64
  idle : 0 ≤ l.idle
  idleNs : l.idle * 10 ^ 9 < 2 ^ 64

/-- The rates are not negative and their products fit 64 bits. -/
structure NumericAdd.RatesFit (l : NumericAdd) : Prop where
  down : 0 ≤ l.down
  downBps : l.down * 1000 < 2 ^ 64
  up : 0 ≤ l.up
  upBps : l.up * 1000 < 2 ^ 64

/-- An add that can be installed has numbers that fit; if the kernel refuses its profile, the one
    that is there gives its rates. -/
def NumericAdd.Storable (l : NumericAdd) (env : SysEnv) (s : HgMaps ncpu) : Prop :=
  ∀ a m ip, parseAdd l.opts = some a → a.Installs env s m ip →
    l.TimesFit (env.clock .monotonic).toNs ∧
      if env.Accepts .hgRates s.rates a.rateId then l.RatesFit
      else l.RatesStoredIn (s.rates.lookup a.rateId)

/-! ## From the texts to the arguments -/

/-- What `parse_add` makes of the texts of an option. -/
def lastNumber (texts : List CString) : Int64 := texts.getLast?.elim 0 atoll

/-- A number is read as it is, up to the range of `long long`. -/
theorem LastDenotes.toInt_lastNumber {texts : List CString} {z : Int} (h : LastDenotes texts z) :
    (lastNumber texts).toInt = max (-2 ^ 63) (min z (2 ^ 63 - 1)) := by
  rw [lastNumber]
  unfold LastDenotes at h
  cases ht : texts.getLast? with
  | none =>
    rw [ht] at h
    subst h
    rfl
  | some t =>
    rw [ht] at h
    exact IntegerText.toInt_atoll h

/-- The last option of a kind sets its variable. -/
theorem foldlM_set {β : Type} {field : AddVars → β} {arg : AddOpt → Option CString}
    {conv : CString → β}
    (hset : ∀ v o v', AddVars.set v o = some v' → field v' = (arg o).elim (field v) conv)
    {opts : List AddOpt} {v v' : AddVars} (h : opts.foldlM AddVars.set v = some v') :
    field v' = (opts.filterMap arg).getLast?.elim (field v) conv := by
  induction opts generalizing v with
  | nil =>
    obtain rfl := Option.some.inj h
    rfl
  | cons o opts ih =>
    rw [List.foldlM_cons] at h
    obtain ⟨v₁, hv₁, h⟩ := Option.bind_eq_some_iff.mp h
    rw [ih h, hset v o v₁ hv₁]
    cases harg : arg o with
    | none => rw [List.filterMap_cons_none harg, Option.elim_none]
    | some t =>
      rw [List.filterMap_cons_some harg, List.getLast?_cons, Option.elim_some, Option.elim_some]
      cases (opts.filterMap arg).getLast? with
      | none => rfl
      | some u => rfl

/-- The arguments of `add_action` are the numbers of the last options. -/
theorem parseAdd_numbers {opts : List AddOpt} {a : AddArgs} (h : parseAdd opts = some a) :
    a.expire = lastNumber (opts.filterMap AddOpt.expireArg) ∧
      a.idle = lastNumber (opts.filterMap AddOpt.idleArg) ∧
      a.dLimit = (lastNumber (opts.filterMap AddOpt.downloadArg)).toUInt64 ∧
      a.uLimit = (lastNumber (opts.filterMap AddOpt.uploadArg)).toUInt64 := by
  obtain ⟨v, hv, h⟩ := Option.bind_eq_some_iff.mp h
  split at h
  · cases h
  · obtain rfl := Option.some.inj h
    have hfields : ∀ v o v', AddVars.set v o = some v' →
        v'.expire = o.expireArg.elim v.expire atoll ∧ v'.idle = o.idleArg.elim v.idle atoll ∧
          v'.dLimit = o.downloadArg.elim v.dLimit (fun t => (atoll t).toUInt64) ∧
          v'.uLimit = o.uploadArg.elim v.uLimit (fun t => (atoll t).toUInt64) := by
      intro v o v' hset
      cases o with
      | unknown => cases hset
      | _ =>
        obtain rfl := Option.some.inj hset
        exact ⟨rfl, rfl, rfl, rfl⟩
    refine ⟨foldlM_set (fun v o v' hset => (hfields v o v' hset).1) hv,
      foldlM_set (fun v o v' hset => (hfields v o v' hset).2.1) hv, ?_, ?_⟩
    · rw [lastNumber, foldlM_set (fun v o v' hset => (hfields v o v' hset).2.2.1) hv]
      cases (opts.filterMap AddOpt.downloadArg).getLast? with
      | none => rfl
      | some t => rfl
    · rw [lastNumber, foldlM_set (fun v o v' hset => (hfields v o v' hset).2.2.2) hv]
      cases (opts.filterMap AddOpt.uploadArg).getLast? with
      | none => rfl
      | some t => rfl

/-! ## From the arguments to the maps -/

/-- A time that is `x` seconds after `t`, none if `x` is not positive, as it is computed. -/
theorem toNat_secondsAfter (t : UInt64) (x : Int64) :
    ((if 0 < x then t + x.toUInt64 * nsecPerSec else 0 : UInt64).toNat : Int) =
      if 0 < x.toInt then (t.toNat + x.toInt * 10 ^ 9) % 2 ^ 64 else 0 := by
  have hpos : (0 < x) ↔ 0 < x.toInt := Int64.lt_iff_toInt_lt
  have hns : nsecPerSec.toNat = 10 ^ 9 := rfl
  by_cases h : 0 < x.toInt
  · rw [if_pos (hpos.mpr h), if_pos h, UInt64.toNat_add, UInt64.toNat_mul, hns]
    have hmod : (x.toUInt64.toNat : Int) ≡ x.toInt [ZMOD 2 ^ 64] := by
      rw [toNat_toUInt64]
      exact Int.mod_modEq _ _
    push_cast
    rw [Int.add_emod_emod]
    exact (hmod.mul_right _).add_left _
  · rw [if_neg fun hx => h (hpos.mp hx), if_neg h]
    rfl

/-- Such a time is exact, and there for every number but 0, exactly if the number is not negative
    and nothing wraps. -/
theorem secondsAfter_eq_iff {t z x stored : Int} (ht : 0 ≤ t) (hlt : t < 2 ^ 64)
    (hx : x = max (-2 ^ 63) (min z (2 ^ 63 - 1)))
    (hstored : stored = if 0 < x then (t + x * 10 ^ 9) % 2 ^ 64 else 0) :
    (stored = (if z = 0 then 0 else t + z * 10 ^ 9) ∧ (stored = 0 → z = 0)) ↔
      0 ≤ z ∧ t + z * 10 ^ 9 < 2 ^ 64 := by
  by_cases hpos : 0 < z
  · rw [if_pos (by omega)] at hstored
    rw [if_neg (by omega)]
    have hmod : stored < 2 ^ 64 := hstored ▸ Int.emod_lt_of_pos _ (by norm_num)
    constructor
    · rintro ⟨heq, -⟩
      exact ⟨by omega, heq ▸ hmod⟩
    · rintro ⟨-, hfit⟩
      have hxz : x = z := by omega
      rw [hxz, Int.emod_eq_of_lt (by positivity) hfit] at hstored
      exact ⟨hstored, by omega⟩
  · rw [if_neg (by omega)] at hstored
    constructor
    · rintro ⟨-, hzero⟩
      have hz := hzero hstored
      subst hz
      exact ⟨le_rfl, by simpa using hlt⟩
    · rintro ⟨hz, -⟩
      have hz : z = 0 := by omega
      exact ⟨by rw [hstored, if_pos hz], fun _ => hz⟩

/-- The times of the entry are exact exactly if they fit. -/
theorem NumericAdd.timesStoredIn_iff {l : NumericAdd} {a : AddArgs} (ha : parseAdd l.opts = some a)
    (now : UInt64) :
    l.TimesStoredIn now (addClientVal now a.expire a.idle a.rateId) ↔ l.TimesFit now := by
  obtain ⟨hexpire, hidle, -, -⟩ := parseAdd_numbers ha
  have he := l.expire_text.toInt_lastNumber
  have hw := l.idle_text.toInt_lastNumber
  rw [← hexpire] at he
  rw [← hidle] at hw
  have hnow : (now.toNat : Int) < 2 ^ 64 := by exact_mod_cast now.toNat_lt
  have hexpiry := secondsAfter_eq_iff (by positivity) hnow he (toNat_secondsAfter now a.expire)
  have hidleNs := secondsAfter_eq_iff le_rfl (by norm_num) hw (toNat_secondsAfter 0 a.idle)
  have hif : (if l.idle = 0 then 0 else 0 + l.idle * 10 ^ 9) = l.idle * 10 ^ 9 := by
    rw [zero_add]
    split
    · next h => rw [h, zero_mul]
    · rfl
  rw [hif, UInt64.zero_add, zero_add] at hidleNs
  have hzero : ∀ x : UInt64, x = 0 ↔ (x.toNat : Int) = 0 := by
    intro x
    rw [← UInt64.toNat_inj]
    exact Int.natCast_eq_zero.symm
  constructor
  · rintro ⟨hexp, hnever, hidl⟩
    obtain ⟨he0, hefit⟩ := hexpiry.mp ⟨hexp, fun h => hnever ((hzero _).mpr h)⟩
    obtain ⟨hw0, hwfit⟩ := hidleNs.mp ⟨hidl, fun h => by
      rw [addClientVal, h] at hidl
      omega⟩
    exact ⟨he0, hefit, hw0, hwfit⟩
  · rintro ⟨he0, hefit, hw0, hwfit⟩
    obtain ⟨hexp, hnever⟩ := hexpiry.mpr ⟨he0, hefit⟩
    exact ⟨hexp, fun h => hnever ((hzero _).mp h), (hidleNs.mpr ⟨hw0, hwfit⟩).1⟩

/-- The rate of a limit is exact exactly if it fits. -/
theorem rate_eq_iff {z : Int} {kbps : UInt64}
    (hkbps : (kbps.toNat : Int) = max (-2 ^ 63) (min z (2 ^ 63 - 1)) % 2 ^ 64) :
    ((kbitToBps kbps).toNat : Int) = 125 * z ↔ 0 ≤ z ∧ z * 1000 < 2 ^ 64 := by
  by_cases hz : 0 ≤ z ∧ z < 2 ^ 63
  · have hsame : (kbps.toNat : Int) = z := by omega
    have hexact := kbitToBps_eq_iff kbps
    omega
  · have hlt := (kbitToBps kbps).toNat_lt
    omega

/-- The profile of an add has its rates exactly if they fit. -/
theorem NumericAdd.ratesStoredIn_iff {l : NumericAdd} {a : AddArgs}
    (ha : parseAdd l.opts = some a) : l.RatesStoredIn (some a.rate) ↔ l.RatesFit := by
  obtain ⟨-, -, hdown, hup⟩ := parseAdd_numbers ha
  have hd := toNat_toUInt64 (lastNumber (l.opts.filterMap AddOpt.downloadArg))
  have hu := toNat_toUInt64 (lastNumber (l.opts.filterMap AddOpt.uploadArg))
  rw [l.down_text.toInt_lastNumber, ← hdown] at hd
  rw [l.up_text.toInt_lastNumber, ← hup] at hu
  constructor
  · rintro ⟨hdn, hupl⟩
    obtain ⟨hd0, hdfit⟩ := (rate_eq_iff hd).mp hdn
    obtain ⟨hu0, hufit⟩ := (rate_eq_iff hu).mp hupl
    exact ⟨hd0, hdfit, hu0, hufit⟩
  · rintro ⟨hd0, hdfit, hu0, hufit⟩
    exact ⟨(rate_eq_iff hd).mpr ⟨hd0, hdfit⟩, (rate_eq_iff hu).mpr ⟨hu0, hufit⟩⟩

/-! ## The command -/

/-- No other add succeeds. -/
theorem installs_of_success {env : SysEnv} {s : HgMaps ncpu} {opts : List AddOpt}
    (h : (addEffect env s opts).status ≠ .failed) :
    ∃ a m ip, parseAdd opts = some a ∧ a.Installs env s m ip := by
  cases heff : addEffect env s opts with
  | refused => exact absurd (congrArg AddEffect.status heff) h
  | rolledBack m => exact absurd (congrArg AddEffect.status heff) h
  | installed m ip client rate rateOk =>
    obtain ⟨a, ha, hinstalls, -⟩ := installs_of_installed heff
    exact ⟨a, m, ip, ha, hinstalls⟩

/-- What an add that can be installed stores. -/
theorem NumericAdd.storedOrRejected_iff_of_installs {l : NumericAdd} {env : SysEnv}
    {s : HgMaps ncpu} {a : AddArgs} {m : HgMacKey} {ip : IpAddr} (ha : parseAdd l.opts = some a)
    (h : a.Installs env s m ip) :
    l.StoredOrRejected env s ↔ l.TimesFit (env.clock .monotonic).toNs ∧
      if env.Accepts .hgRates s.rates a.rateId then l.RatesFit
      else l.RatesStoredIn (s.rates.lookup a.rateId) := by
  have hrun := run_hgctlAdd env s l.opts
  rw [addEffect_of_installs ha h] at hrun
  generalize ht : s.afterAdd _ = t at hrun
  have hclient : t.clients.lookup m = some (a.client env) := by
    rw [← ht]
    exact BoundedMap.lookup_put_self s.clients _ h.client.2
  have hrates : l.RatesStoredIn (t.rates.lookup a.rateId) ↔
      if env.Accepts .hgRates s.rates a.rateId then l.RatesFit
      else l.RatesStoredIn (s.rates.lookup a.rateId) := by
    rw [← ht]
    by_cases hok : env.Accepts .hgRates s.rates a.rateId
    · have hput : (s.rates.put a.rateId a.rate).lookup a.rateId = some a.rate :=
        BoundedMap.lookup_put_self s.rates _ hok.2
      rw [if_pos hok, decide_eq_true hok, ← ratesStoredIn_iff ha, ← hput]
      rfl
    · rw [if_neg hok, decide_eq_false hok]
      rfl
  rw [← hrates, ← timesStoredIn_iff ha]
  unfold StoredOrRejected
  rw [hrun]
  constructor
  · rintro (hfail | ⟨a', m', ip', cs, ha', htarget, hcs, htimes, hstored⟩)
    · cases hfail
    · obtain rfl := Option.some.inj (ha.symm.trans ha')
      obtain ⟨rfl, rfl⟩ := Prod.mk.inj (Option.some.inj (h.target.symm.trans htarget))
      obtain rfl := Option.some.inj (hclient.symm.trans hcs)
      exact ⟨htimes, hstored⟩
  · rintro ⟨htimes, hstored⟩
    exact Or.inr ⟨a, m, ip, a.client env, ha, h.target, hclient, htimes, hstored⟩

/-- An add stores its numbers as they are written, or fails, exactly if they fit. -/
theorem NumericAdd.storedOrRejected_iff (l : NumericAdd) (env : SysEnv) (s : HgMaps ncpu) :
    l.StoredOrRejected env s ↔ l.Storable env s := by
  constructor
  · intro hstored a m ip ha h
    exact (storedOrRejected_iff_of_installs ha h).mp hstored
  · intro hfit
    by_cases hfail : (addEffect env s l.opts).status = .failed
    · exact Or.inl (by rw [run_hgctlAdd]; exact hfail)
    · obtain ⟨a, m, ip, ha, h⟩ := installs_of_success hfail
      exact (storedOrRejected_iff_of_installs ha h).mpr (hfit a m ip ha h)

/-- A session of some 584 years. -/
def longAdd : NumericAdd where
  opts := [.iface "br0".toList, .client "192.168.99.82".toList, .expire "18446744074".toList]
  expire := 18446744074
  idle := 0
  down := 0
  up := 0
  expire_text := ⟨false, "18446744074".toList, 18446744074, rfl,
    ⟨by decide, List.all_eq_true.mp rfl, rfl⟩, rfl⟩
  idle_text := rfl
  down_text := rfl
  up_text := rfl

def longArgs : AddArgs := ⟨none, some "192.168.99.82".toList, 18446744074, 0, 0, 0, 0⟩

/-- It expires 0.29 s after the add at 9 s. -/
theorem long_session_expires :
    ¬ longAdd.StoredOrRejected (.good ⟨9, 0⟩) knownClient ∧
      (((hgctlAdd longAdd.opts).run (.good ⟨9, 0⟩) knownClient).2.clients.lookup
        (localMac 1)).map HgClient.expiryNs = some 9290448384 := by
  have hinstalls : longArgs.Installs (.good ⟨9, 0⟩) knownClient (localMac 1)
      (Bytes.addrOfOctets 192 168 99 82) :=
    ⟨by decide +kernel, rfl, by decide +kernel, rfl, by decide +kernel⟩
  refine ⟨fun hstored => ?_, by decide +kernel⟩
  have hfits := (NumericAdd.storedOrRejected_iff_of_installs rfl hinstalls).mp hstored
  exact absurd hfits.1.expiry (by decide)

end HawkGate
