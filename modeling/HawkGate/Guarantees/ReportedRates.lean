-- SUMMARY: Whether the rates that the readers report are the ones the datapath enforces, over runs of packets and commands.
import HawkGate.Control.ReadAll
import HawkGate.System.Host

/-!
# Reported rates

`hg_read_one` and `hg_read_all` report the limits of a client in kbit/s, with 0
for a client without limit. Both find the profile by the client's rate id, as
shaping does, but they look no profile up for id 0. Shaping does, and an add
with a limit for one direction stores its profile there. The reports are right
as long as every add stores a profile that they can show.
-/

namespace HawkGate

open HawkGate.Frame CString Transition

variable {ncpu : Nat}

/-! ## Reported and enforced rates -/

/-- What a read of one client or of all clients says about an address. -/
inductive HgMaps.Reported (s : HgMaps ncpu) (env : SysEnv) (ip : IpAddr) : HgClientStats → Prop where
  | one {text : CString} {st : HgClientStats} (htext : inetPton text = some ip)
      (h : ((hgReadOne text).run env s).1 = some st) : s.Reported env ip st
  | all {qsort : Qsort} {fuel : Nat} {sort : HgSortKey} {filter : HgStateFilter} {limit : Int32}
      {r : HgReadAll} {st : HgClientStats}
      (h : ((hgReadAll qsort fuel sort filter limit).run env s).1 = .done r) (hst : st ∈ r.stats)
      (hip : st.ipKey = ip) : s.Reported env ip st

/-- A number of kbit/s reports a rate in bytes/s; 0 reports that there is no limit. -/
structure ReportsRate (kbps rate : UInt64) : Prop where
  kbit : kbps = bpsToKbit rate
  unlimited : kbps = 0 → rate = 0

/-- A report has the rates that shaping applies to the client. -/
structure ReportsEnforced (s : HgMaps ncpu) (cs : HgClient) (st : HgClientStats) : Prop where
  download : ReportsRate st.rateKbpsDw (appliedRate s.rates cs false)
  upload : ReportsRate st.rateKbpsUp (appliedRate s.rates cs true)

/-- Every report about an address that is bound to a client has the client's enforced rates. -/
def EnforcedReported (env : SysEnv) (s : HgMaps ncpu) : Prop :=
  ∀ ip m cs, s.ipMac.lookup ip = some m → s.clients.lookup m = some cs →
    ∀ st, s.Reported env ip st → ReportsEnforced s cs st

/-! ## Profiles that a report shows -/

/-- A rate under this id is shown as it is: there is no limit, or else the reader finds the
    profile and the limit is not below 1 kbit/s. -/
def RateShown (env : SysEnv) (id : UInt32) (rate : UInt64) : Prop :=
  rate = 0 ∨ (env.objGet .hgIpMac = true ∧ id ≠ 0) ∧ bpsToKbit rate ≠ 0

instance (env : SysEnv) (id : UInt32) (rate : UInt64) : Decidable (RateShown env id rate) :=
  inferInstanceAs (Decidable (_ ∨ _))

/-- Both rates of a profile are shown. -/
def ProfileShown (env : SysEnv) (id : UInt32) (profile : Option HgRateCfg) : Prop :=
  ∀ up, RateShown env id (profile.elim 0 fun cfg => cfg.rate up)

/-- Every client finds a profile that is shown. -/
def RatesShown (env : SysEnv) (s : HgMaps ncpu) : Prop :=
  ∀ m cs, s.clients.lookup m = some cs →
    ProfileShown env cs.rateLimitId (s.rates.lookup cs.rateLimitId)

/-- The profile that an add stores is shown under its id, or the one that it leaves there because
    it cannot store its own. -/
def ShownSafe (env : SysEnv) (s : HgMaps ncpu) : HostEvent ncpu → Prop
  | .add env' opts =>
    match addEffect env' s opts with
    | .installed _ _ client rate rateOk =>
      ProfileShown env client.rateLimitId (s.profileAfterAdd client rate rateOk)
    | .refused | .rolledBack _ => True
  | .ingress _ _ | .egress _ _ | .del _ _ | .mapDel _ _ => True

theorem profileShown_none (env : SysEnv) (id : UInt32) : ProfileShown env id none :=
  fun _ => Or.inl rfl

/-- A limit in kbit/s is shown if nothing is left of it modulo 2^64 bit/s, or at least 1 kbit/s. -/
theorem rateShown_kbitToBps_iff (env : SysEnv) (id : UInt32) (limit : UInt64) :
    RateShown env id (kbitToBps limit) ↔
      limit.toNat * 1000 % 2 ^ 64 = 0 ∨
        (env.objGet .hgIpMac = true ∧ id ≠ 0) ∧ 1000 ≤ limit.toNat * 1000 % 2 ^ 64 := by
  have hdvd : 8 ∣ limit.toNat * 1000 % 2 ^ 64 :=
    (Nat.dvd_mod_iff (by decide)).mpr (Dvd.dvd.mul_left (by decide) _)
  have hzero : kbitToBps limit = 0 ↔ limit.toNat * 1000 % 2 ^ 64 = 0 := by
    rw [← UInt64.toNat_inj, toNat_kbitToBps, UInt64.toNat_zero,
      Nat.div_eq_zero_iff_lt (by decide)]
    exact ⟨Nat.eq_zero_of_dvd_of_lt hdvd, fun h0 => h0 ▸ by decide⟩
  have hkbit : (bpsToKbit (kbitToBps limit)).toNat = limit.toNat * 1000 % 2 ^ 64 / 1000 := by
    rw [toNat_bpsToKbit, toNat_kbitToBps, Nat.div_mul_cancel hdvd, Nat.mod_mod]
  have hpos : bpsToKbit (kbitToBps limit) = 0 ↔ limit.toNat * 1000 % 2 ^ 64 < 1000 := by
    rw [← UInt64.toNat_inj, hkbit, UInt64.toNat_zero, Nat.div_eq_zero_iff_lt (by decide)]
  rw [RateShown, hzero, ne_eq (bpsToKbit _), hpos, Nat.not_lt]

/-! ## Reports -/

section
variable {env : SysEnv} {s : HgMaps ncpu} {ip : IpAddr} {m : HgMacKey} {cs : HgClient}

theorem ipKey_report (macFd : Bool) (percpu : Fin ncpu → HgCounter) :
    (s.report env macFd ip percpu).ipKey = ip := by
  simp only [HgMaps.report, fillStats, Tool.run_bind]
  rfl

/-- What is reported about an address comes from its counter. -/
theorem HgMaps.Reported.report {st : HgClientStats} (h : s.Reported env ip st) :
    ∃ percpu, st = s.report env (env.objGet .hgIpMac) ip percpu := by
  cases h with
  | one htext h =>
    rw [run_hgReadOne htext] at h
    split at h
    · obtain ⟨percpu, -, hst⟩ := Option.map_eq_some_iff.mp h
      exact ⟨percpu, hst.symm⟩
    · cases h
  | @all qsort fuel sort filter limit r st h hst hip =>
    rw [run_hgReadAll] at h
    split at h
    · split at h
      · obtain rfl := ReadAllOutcome.done.inj h
        have hmem := HgReadAll.mem_arrange hst
        rw [HgReadAll.stats_foldl_add, HgReadAll.empty, List.nil_append] at hmem
        obtain ⟨ip', percpu, -, rfl⟩ := HgMaps.mem_reports hmem
        rw [ipKey_report] at hip
        exact ⟨percpu, by rw [hip]⟩
      · cases h
    · cases h

/-- A report about a bound address has the rates that shaping applies, or 0 if the binding map or
    the profile is not looked at. -/
theorem rates_report (hbound : s.ipMac.lookup ip = some m) (hclient : s.clients.lookup m = some cs)
    (macFd : Bool) (percpu : Fin ncpu → HgCounter) :
    (s.report env macFd ip percpu).rateKbpsDw =
        (if macFd = true ∧ cs.rateLimitId ≠ 0 then bpsToKbit (appliedRate s.rates cs false)
          else 0) ∧
      (s.report env macFd ip percpu).rateKbpsUp =
        (if macFd = true ∧ cs.rateLimitId ≠ 0 then bpsToKbit (appliedRate s.rates cs true)
          else 0) := by
  have hreported : (s.report env macFd ip percpu).rateKbpsDw =
        bpsToKbit (s.foundRate (s.foundSession macFd ip).2).rateBpsD ∧
      (s.report env macFd ip percpu).rateKbpsUp =
        bpsToKbit (s.foundRate (s.foundSession macFd ip).2).rateBpsU := by
    simp only [HgMaps.report, fillStats, Tool.run_bind]
    exact ⟨rfl, rfl⟩
  rw [hreported.1, hreported.2]
  cases macFd with
  | false => simp [HgMaps.foundSession, HgMaps.foundRate, HgClient.zero, bpsToKbit]
  | true =>
    have hsession : (s.foundSession true ip).2 = cs := by
      rw [HgMaps.foundSession_snd, HgMaps.readClient, hbound, Option.bind_some, hclient]
      rfl
    rw [hsession, HgMaps.foundRate]
    by_cases hid : cs.rateLimitId = 0
    · -- the reader looks no profile up, whatever is stored under id 0
      simp [hid, bpsToKbit]
    · simp only [hid, ne_eq, not_false_eq_true, and_self, if_true, appliedRate]
      cases s.rates.lookup cs.rateLimitId with
      | none => exact ⟨rfl, rfl⟩
      | some cfg => exact ⟨rfl, rfl⟩

/-- A rate that is reported as 0 without a profile to look up is reported right exactly if it is
    shown. -/
theorem reportsRate_iff {kbps : UInt64} (id : UInt32) (rate : UInt64)
    (h : kbps = if env.objGet .hgIpMac = true ∧ id ≠ 0 then bpsToKbit rate else 0) :
    ReportsRate kbps rate ↔ RateShown env id rate := by
  have hzero : bpsToKbit 0 = 0 := by decide
  rw [RateShown]
  by_cases hfound : env.objGet .hgIpMac = true ∧ id ≠ 0
  · rw [if_pos hfound] at h
    subst h
    constructor
    · intro hr
      exact or_iff_not_imp_left.mpr fun hne => ⟨hfound, fun h0 => hne (hr.unlimited h0)⟩
    · intro hs
      exact ⟨rfl, fun h0 => hs.resolve_right fun hs => hs.2 h0⟩
  · rw [if_neg hfound] at h
    subst h
    constructor
    · exact fun hr => Or.inl (hr.unlimited rfl)
    · intro hs
      have h0 := hs.resolve_right fun hs => hfound hs.1
      exact ⟨by rw [h0, hzero], fun _ => h0⟩

/-- A report about an address bound to a client is right exactly if its profile is shown. -/
theorem reportsEnforced_iff (hbound : s.ipMac.lookup ip = some m)
    (hclient : s.clients.lookup m = some cs) (percpu : Fin ncpu → HgCounter) :
    ReportsEnforced s cs (s.report env (env.objGet .hgIpMac) ip percpu) ↔
      ProfileShown env cs.rateLimitId (s.rates.lookup cs.rateLimitId) := by
  obtain ⟨hdown, hup⟩ := rates_report hbound hclient (env.objGet .hgIpMac) percpu
  have hd := reportsRate_iff cs.rateLimitId (appliedRate s.rates cs false) hdown
  have hu := reportsRate_iff cs.rateLimitId (appliedRate s.rates cs true) hup
  constructor
  · intro h up
    cases up with
    | false => exact hd.mp h.download
    | true => exact hu.mp h.upload
  · intro h
    exact ⟨hd.mpr (h false), hu.mpr (h true)⟩

/-- Where every client's profile is shown, every report is right. -/
theorem enforcedReported_of_ratesShown (h : RatesShown env s) : EnforcedReported env s := by
  intro ip m cs hbound hclient st hst
  obtain ⟨percpu, rfl⟩ := hst.report
  exact (reportsEnforced_iff hbound hclient percpu).mpr (h m cs hclient)

end

/-! ## Steps -/

section
variable {env : SysEnv} {s : HgMaps ncpu}

theorem RatesShown.of_keeps {s' : HgMaps ncpu} (h : RatesShown env s) (hkeep : s.KeepsProfiles s') :
    RatesShown env s' := by
  intro m cs hm
  obtain ⟨cs', hm', hid⟩ := hkeep.clients m cs hm
  rw [hkeep.rates, ← hid]
  exact h m cs' hm'

/-- A del leaves the other clients their profiles or none. -/
theorem RatesShown.afterDel (h : RatesShown env s) (env' : SysEnv) (m : HgMacKey) :
    RatesShown env (s.afterDel env' m) := by
  intro k cs hk
  -- a client that shares the deleted profile is unlimited now, and reported so
  have hold := h k cs (BoundedMap.lookup_of_erase hk).2
  have hprofile : (s.afterDel env' m).rates.lookup cs.rateLimitId = none ∨
      (s.afterDel env' m).rates.lookup cs.rateLimitId = s.rates.lookup cs.rateLimitId := by
    simp only [HgMaps.afterDel]
    split
    · split
      · rw [BoundedMap.lookup_erase]
        split
        · exact Or.inl rfl
        · exact Or.inr rfl
      · exact Or.inr rfl
    · exact Or.inr rfl
  rcases hprofile with hnone | hsame
  · rw [hnone]
    exact profileShown_none env _
  · rw [hsame]
    exact hold

/-- An add leaves every client's profile shown exactly if the one under its id is shown. -/
theorem ratesShown_install_iff (h : RatesShown env s) {env' : SysEnv} {opts : List AddOpt}
    {m : HgMacKey} {ip : IpAddr} {client : HgClient} {rate : HgRateCfg} {rateOk : Bool}
    (heff : addEffect env' s opts = .installed m ip client rate rateOk) :
    RatesShown env (s.step (.add env' opts)) ↔
      ProfileShown env client.rateLimitId (s.profileAfterAdd client rate rateOk) := by
  rw [HgMaps.step_add, heff]
  constructor
  · intro hafter
    have hown := hafter m client (by rw [lookup_clients_install heff, if_pos rfl])
    rwa [lookup_rates_install heff, if_pos rfl] at hown
  · intro hshown k cs hk
    rw [lookup_clients_install heff] at hk
    rw [lookup_rates_install heff]
    split
    · next hid =>
      rw [hid]
      exact hshown
    · next hid =>
      -- the added client has the id that was written, so this is another one
      split at hk
      · exact absurd (congrArg HgClient.rateLimitId (Option.some.inj hk)).symm hid
      · exact h k cs hk

/-- One step leaves every client's profile shown exactly if it is safe. -/
theorem ratesShown_step_iff (h : RatesShown env s) (e : HostEvent ncpu) :
    RatesShown env (s.step e) ↔ ShownSafe env s e := by
  cases e with
  | ingress env' skb => exact iff_of_true (h.of_keeps (keepsProfiles_ingress s env' skb)) trivial
  | egress env' skb => exact iff_of_true (h.of_keeps (keepsProfiles_egress s env' skb)) trivial
  | mapDel env' opts => exact iff_of_true (h.of_keeps (keepsProfiles_mapDel s env' opts)) trivial
  | del env' opts =>
    refine iff_of_true ?_ trivial
    rw [HgMaps.step_del]
    cases delVictim s env' opts with
    | none => exact h
    | some m => exact h.afterDel env' m
  | add env' opts =>
    rw [ShownSafe]
    cases heff : addEffect env' s opts with
    | refused =>
      rw [HgMaps.step_add, heff]
      exact iff_of_true h trivial
    | rolledBack m =>
      rw [HgMaps.step_add, heff]
      exact iff_of_true (h.of_keeps (keepsProfiles_erase s m)) trivial
    | installed m ip client rate rateOk => exact ratesShown_install_iff h heff

/-- After an add that is not safe, every report about an address of its client is wrong. -/
theorem misreported_of_not_safe {env' : SysEnv} {opts : List AddOpt} {m : HgMacKey}
    {a : IpAddr} {client : HgClient} {rate : HgRateCfg} {rateOk : Bool}
    (heff : addEffect env' s opts = .installed m a client rate rateOk)
    (hnot : ¬ ShownSafe env s (.add env' opts)) {ip : IpAddr}
    (hbound : (s.step (.add env' opts)).ipMac.lookup ip = some m) {st : HgClientStats}
    (hst : (s.step (.add env' opts)).Reported env ip st) :
    ¬ ReportsEnforced (s.step (.add env' opts)) client st := by
  simp only [ShownSafe, heff] at hnot
  obtain ⟨percpu, rfl⟩ := hst.report
  rw [HgMaps.step_add, heff] at hbound ⊢
  have hclient : (s.afterAdd (.installed m a client rate rateOk)).clients.lookup m =
      some client := by
    rw [lookup_clients_install heff, if_pos rfl]
  rw [reportsEnforced_iff hbound hclient, lookup_rates_install heff, if_pos rfl]
  exact hnot

end

/-! ## Runs -/

/-- From a host without sessions, if every add leaves a profile that is shown under its id, the
    readers report the rates that shaping applies, in every state of the run. -/
theorem reported_rates_enforced (env : SysEnv) {s : HgMaps ncpu}
    (hstart : ∀ m, s.clients.lookup m = none) {es : List (HostEvent ncpu)}
    (hsafe : Always HgMaps.step (ShownSafe env) s es) :
    Always HgMaps.step (fun s e => EnforcedReported env (s.step e)) s es := by
  have hinit : RatesShown env s := by
    intro m cs hm
    rw [hstart m] at hm
    cases hm
  have hstep : ∀ (s : HgMaps ncpu) e, RatesShown env s → ShownSafe env s e →
      RatesShown env (s.step e) := fun s e h he => (ratesShown_step_iff h e).mpr he
  exact always_of_inv hstep (fun s e h he => enforcedReported_of_ratesShown (hstep s e h he))
    hinit hsafe

/-- The first packet of a client at 192.168.99.82. -/
def firstUpload : HostEvent 1 :=
  .ingress (.good ⟨0, Nat.one_pos⟩ 0) ⟨tcpFrame (localMac 1) (Bytes.addrOfOctets 192 168 99 82)
    (Bytes.addrOfOctets 93 184 216 34) 40000 443, 54⟩

/-- A client with limits for both directions is reported with them. -/
theorem reported_rates_enforced_login :
    Always HgMaps.step (fun s e => EnforcedReported (.good ⟨0, 0⟩) (s.step e)) (.start 1 .standard 0)
      [firstUpload, .add (.good ⟨0, 0⟩) [.iface "br0".toList, .client "192.168.99.82".toList,
        .downloadRate "8000".toList, .uploadRate "2000".toList]] := by
  refine reported_rates_enforced (.good ⟨0, 0⟩) (fun _ => rfl) ⟨trivial, ?_, trivial⟩
  have heff : addEffect (.good ⟨0, 0⟩) (HgMaps.step (.start 1 .standard 0) firstUpload)
      [.iface "br0".toList, .client "192.168.99.82".toList, .downloadRate "8000".toList,
        .uploadRate "2000".toList] =
      .installed (localMac 1) (Bytes.addrOfOctets 192 168 99 82) ⟨0, 0, 0, 82, 0, 0⟩
        ⟨1000000, 250000, hgHorizonNs⟩ true := by
    decide +kernel
  rw [ShownSafe, heff]
  rintro (_ | _)
  · decide
  · decide

/-- A client with a limit for downloads only is shaped at 1 MB/s and reported as unlimited. -/
theorem download_limit_reported_unlimited :
    let s := run HgMaps.step (.start 1 .standard 0) [firstUpload, .add (.good ⟨0, 0⟩)
      [.iface "br0".toList, .client "192.168.99.82".toList, .downloadRate "8000".toList]]
    s.ipMac.lookup (Bytes.addrOfOctets 192 168 99 82) = some (localMac 1) ∧
      s.clients.lookup (localMac 1) = some ⟨0, 0, 0, 0, 0, 0⟩ ∧
      appliedRate s.rates ⟨0, 0, 0, 0, 0, 0⟩ false = 1000000 ∧
      ((hgReadOne "192.168.99.82".toList).run (.good ⟨0, 0⟩) s).1.map HgClientStats.rateKbpsDw =
        some 0 ∧
      ¬ EnforcedReported (.good ⟨0, 0⟩) s := by
  intro s
  have hbound : s.ipMac.lookup (Bytes.addrOfOctets 192 168 99 82) = some (localMac 1) := by
    decide +kernel
  have hclient : s.clients.lookup (localMac 1) = some ⟨0, 0, 0, 0, 0, 0⟩ := by decide +kernel
  have hrate : appliedRate s.rates ⟨0, 0, 0, 0, 0, 0⟩ false = 1000000 := by decide +kernel
  have hreport : ((hgReadOne "192.168.99.82".toList).run (.good ⟨0, 0⟩) s).1.map
      HgClientStats.rateKbpsDw = some 0 := by decide +kernel
  refine ⟨hbound, hclient, hrate, hreport, fun h => ?_⟩
  obtain ⟨st, hst, hzero⟩ := Option.map_eq_some_iff.mp hreport
  have hright := h _ _ _ hbound hclient st (.one (by decide +kernel) hst)
  exact absurd (hrate.symm.trans (hright.download.unlimited hzero)) (by decide)

end HawkGate
