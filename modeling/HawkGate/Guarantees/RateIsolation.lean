-- SUMMARY: Whether a client's enforced rates stay the ones it was added with, over runs of packets and commands.
import HawkGate.System.Host

/-!
# Rate isolation

A client's profile is found through its rate id, and ids are shared: the last
octet of an address, the last byte of a MAC, or 0. The guarantee is that every
client entry is shaped at the rates of its own latest add. It is an invariant
of exactly those runs in which no command changes a profile that another client
with other limits uses.
-/

namespace HawkGate

open CString Transition

variable {ncpu : Nat}

/-! ## Requested and enforced rates -/

/-- The limits of an add in kbit/s, download and upload. -/
def requestOf (opts : List AddOpt) : UInt64 × UInt64 :=
  (parseAdd opts).elim (0, 0) fun a => (a.dLimit, a.uLimit)

/-- A profile gives the requested limits: 125 bytes/s for each kbit/s. No profile and
    rate 0 both mean unlimited. -/
def GivesRates (cfg : Option HgRateCfg) (req : UInt64 × UInt64) : Prop :=
  cfg.elim 0 (fun c => c.rateBpsD.toNat) = req.1.toNat * 125 ∧
    cfg.elim 0 (fun c => c.rateBpsU.toNat) = req.2.toNat * 125

/-- The limits in bits/s fit 64 bits. -/
def LimitsFit (req : UInt64 × UInt64) : Prop :=
  req.1.toNat * 1000 < 2 ^ 64 ∧ req.2.toNat * 1000 < 2 ^ 64

/-- A host together with the limits of each client's latest successful add. -/
structure RateHost (ncpu : Nat) where
  maps : HgMaps ncpu
  requested : HgMacKey → UInt64 × UInt64

def RateHost.step (st : RateHost ncpu) (e : HostEvent ncpu) : RateHost ncpu where
  maps := st.maps.step e
  requested :=
    match e with
    | .add env opts =>
      match addEffect env st.maps opts with
      | .installed m _ _ _ _ => Function.update st.requested m (requestOf opts)
      | .refused | .rolledBack _ => st.requested
    | .ingress _ _ | .egress _ _ | .del _ _ | .mapDel _ _ => st.requested

/-- Every client entry finds a profile with the limits of its own latest add. -/
def RateIsolated (st : RateHost ncpu) : Prop :=
  ∀ m cs, st.maps.clients.lookup m = some cs →
    GivesRates (st.maps.rates.lookup cs.rateLimitId) (st.requested m)

/-- Every other client entry with the given rate id was added with the limits `req`. -/
def OthersRequested (st : RateHost ncpu) (m : HgMacKey) (id : UInt32) (req : UInt64 × UInt64) :
    Prop :=
  ∀ k, k ≠ m → ∀ cs, st.maps.clients.lookup k = some cs → cs.rateLimitId = id →
    st.requested k = req

/-- The step changes no profile under a client that relies on it: an add writes limits
    that fit, and no client with other limits shares the rate id; or its write fails and
    the stored profile already gives its limits. A del deletes no profile that limits
    another client. -/
def RateSafe (st : RateHost ncpu) : HostEvent ncpu → Prop
  | .add env opts =>
    match addEffect env st.maps opts with
    | .installed m _ client _ true =>
      LimitsFit (requestOf opts) ∧ OthersRequested st m client.rateLimitId (requestOf opts)
    | .installed _ _ client _ false =>
      GivesRates (st.maps.rates.lookup client.rateLimitId) (requestOf opts)
    | .refused | .rolledBack _ => True
  | .del env opts =>
    ∀ m val, delVictim st.maps env opts = some m → st.maps.clients.lookup m = some val →
      env.objGet .hgRates = true → OthersRequested st m val.rateLimitId (0, 0)
  | .ingress _ _ | .egress _ _ | .mapDel _ _ => True

/-! ## Profiles -/

/-- The multiplication is exact as long as it does not wrap. -/
theorem kbitToBps_eq_iff (kb : UInt64) :
    (kbitToBps kb).toNat = kb.toNat * 125 ↔ kb.toNat * 1000 < 2 ^ 64 := by
  rw [toNat_kbitToBps]
  constructor
  · intro h
    omega
  · intro h
    rw [Nat.mod_eq_of_lt h]
    omega

theorem givesRates_none_iff (req : UInt64 × UInt64) : GivesRates none req ↔ req = (0, 0) := by
  obtain ⟨d, u⟩ := req
  simp only [GivesRates, Option.elim_none, Prod.mk.injEq, ← UInt64.toNat_inj, UInt64.reduceToNat]
  omega

/-- The profile of an add gives its own limits exactly if they fit. -/
theorem givesRates_rate_self {opts : List AddOpt} {a : AddArgs} (ha : parseAdd opts = some a) :
    GivesRates (some a.rate) (requestOf opts) ↔ LimitsFit (requestOf opts) := by
  simp only [GivesRates, requestOf, ha, Option.elim_some, AddArgs.rate, addRateVal, LimitsFit,
    kbitToBps_eq_iff]

/-- The profile of an add with limits that fit gives no other limits. -/
theorem givesRates_rate_iff {opts : List AddOpt} {a : AddArgs} (ha : parseAdd opts = some a)
    (hfit : LimitsFit (requestOf opts)) (req : UInt64 × UInt64) :
    GivesRates (some a.rate) req ↔ req = requestOf opts := by
  obtain ⟨hd, hu⟩ := (givesRates_rate_self ha).mpr hfit
  obtain ⟨d, u⟩ := req
  simp only [GivesRates, hd, hu, Prod.ext_iff, ← UInt64.toNat_inj]
  omega

/-! ## Steps -/

/-- A step that keeps the profiles and the requests keeps the rates. -/
theorem RateIsolated.of_keeps {st st' : RateHost ncpu} (h : RateIsolated st)
    (hreq : st'.requested = st.requested) (hkeep : st.maps.KeepsProfiles st'.maps) :
    RateIsolated st' := by
  intro k cs hk
  obtain ⟨cs', hk', hid⟩ := hkeep.clients k cs hk
  rw [hreq, hkeep.rates, ← hid]
  exact h k cs' hk'

/-- An add keeps every client's rates exactly if the profile under its rate id gives its limits
    and those of every other client with that id. -/
theorem rateIsolated_install_iff {st : RateHost ncpu} (h : RateIsolated st) {env : SysEnv}
    {opts : List AddOpt} {m : HgMacKey} {ip : IpAddr} {client : HgClient} {rate : HgRateCfg}
    {rateOk : Bool} (heff : addEffect env st.maps opts = .installed m ip client rate rateOk) :
    RateIsolated (st.step (.add env opts)) ↔
      GivesRates (st.maps.profileAfterAdd client rate rateOk) (requestOf opts) ∧
        ∀ k, k ≠ m → ∀ cs, st.maps.clients.lookup k = some cs →
          cs.rateLimitId = client.rateLimitId →
            GivesRates (st.maps.profileAfterAdd client rate rateOk) (st.requested k) := by
  have hreq : (st.step (.add env opts)).requested =
      Function.update st.requested m (requestOf opts) := by
    simp only [RateHost.step, heff]
  have hmaps : (st.step (.add env opts)).maps =
      st.maps.afterAdd (.installed m ip client rate rateOk) := by
    rw [RateHost.step, HgMaps.step_add, heff]
  have hclient := lookup_clients_install heff
  have hprofile := lookup_rates_install heff
  rw [← hmaps] at hclient hprofile
  constructor
  · intro hafter
    have hown := hafter m client (by rw [hclient, if_pos rfl])
    rw [hprofile, if_pos rfl, hreq, Function.update_self] at hown
    refine ⟨hown, fun k hk cs hcs hid => ?_⟩
    have hother := hafter k cs (by rw [hclient, if_neg hk, hcs])
    rwa [hprofile, if_pos hid, hreq, Function.update_of_ne hk] at hother
  · rintro ⟨hown, hothers⟩ k cs hcs
    rw [hclient] at hcs
    rw [hprofile, hreq]
    by_cases hk : k = m
    · rw [if_pos hk] at hcs
      obtain rfl := Option.some.inj hcs
      rwa [if_pos rfl, hk, Function.update_self]
    · rw [if_neg hk] at hcs
      rw [Function.update_of_ne hk]
      split
      · next hid => exact hothers k hk cs hcs hid
      · exact h k cs hcs

/-- A del keeps every client's rates exactly if its profile limits no other client. -/
theorem rateIsolated_del_iff {st : RateHost ncpu} (h : RateIsolated st) (env : SysEnv)
    (m : HgMacKey) :
    RateIsolated ⟨st.maps.afterDel env m, st.requested⟩ ↔
      ∀ val, st.maps.clients.lookup m = some val → env.objGet .hgRates = true →
        OthersRequested st m val.rateLimitId (0, 0) := by
  by_cases hdeletes : ∃ val, st.maps.clients.lookup m = some val ∧ env.objGet .hgRates = true
  · obtain ⟨val, hval, hopen⟩ := hdeletes
    have hrates : (st.maps.afterDel env m).rates = st.maps.rates.erase val.rateLimitId := by
      simp [HgMaps.afterDel, hval, hopen]
    constructor
    · intro hafter val' hval' _ k hk cs hcs hid
      obtain rfl := Option.some.inj (hval.symm.trans hval')
      have hother := hafter k cs (by
        simp [HgMaps.afterDel, BoundedMap.lookup_erase, hk, hcs])
      rw [hrates, hid, BoundedMap.lookup_erase_self] at hother
      exact (givesRates_none_iff _).mp hother
    · intro hothers k cs hcs
      obtain ⟨hk, hold⟩ := BoundedMap.lookup_of_erase hcs
      rw [hrates, BoundedMap.lookup_erase]
      split
      · next hid =>
        exact (givesRates_none_iff _).mpr (hothers val hval hopen k hk cs hold hid)
      · exact h k cs hold
  · have hrates : (st.maps.afterDel env m).rates = st.maps.rates := by
      simp only [HgMaps.afterDel]
      split
      · next val hval => exact if_neg fun hopen => hdeletes ⟨val, hval, hopen⟩
      · rfl
    refine iff_of_true (h.of_keeps rfl ⟨hrates, (keepsProfiles_erase st.maps m).clients⟩) ?_
    intro val hval hopen
    exact absurd ⟨val, hval, hopen⟩ hdeletes

/-- One step keeps every client's rates exactly if it is safe. -/
theorem rateIsolated_step_iff {st : RateHost ncpu} (h : RateIsolated st) (e : HostEvent ncpu) :
    RateIsolated (st.step e) ↔ RateSafe st e := by
  cases e with
  | ingress env skb =>
    exact iff_of_true (h.of_keeps rfl (keepsProfiles_ingress st.maps env skb)) trivial
  | egress env skb =>
    exact iff_of_true (h.of_keeps rfl (keepsProfiles_egress st.maps env skb)) trivial
  | mapDel env opts =>
    exact iff_of_true (h.of_keeps rfl (keepsProfiles_mapDel st.maps env opts)) trivial
  | del env opts =>
    rw [RateHost.step, HgMaps.step_del, RateSafe]
    cases hv : delVictim st.maps env opts with
    | none => simpa using h
    | some m =>
      simp only [Option.elim_some, Option.some.injEq]
      rw [rateIsolated_del_iff h env m]
      constructor
      · rintro hsafe _ val rfl
        exact hsafe val
      · intro hsafe val
        exact hsafe m val rfl
  | add env opts =>
    rw [RateSafe]
    cases heff : addEffect env st.maps opts with
    | refused =>
      rw [RateHost.step, HgMaps.step_add, heff]
      exact iff_of_true h trivial
    | rolledBack m =>
      rw [RateHost.step, HgMaps.step_add, heff]
      exact iff_of_true (h.of_keeps rfl (keepsProfiles_erase st.maps m)) trivial
    | installed m ip client rate rateOk =>
      rw [rateIsolated_install_iff h heff]
      cases rateOk with
      | true =>
        obtain ⟨a, ha, -, -, rfl, -, -, -⟩ := addEffect_installed heff
        rw [HgMaps.profileAfterAdd, if_pos rfl, givesRates_rate_self ha]
        refine and_congr_right fun hfit => ?_
        simp only [givesRates_rate_iff ha hfit]
        exact Iff.rfl
      | false =>
        refine and_iff_left_of_imp fun _ k hk cs hcs hid => ?_
        have hkept := h k cs hcs
        rwa [hid] at hkept

/-- From a host without sessions, every client is shaped at its own limits throughout a
    run exactly if each step of the run is safe. -/
theorem rate_isolation_iff {st : RateHost ncpu} (hstart : ∀ m, st.maps.clients.lookup m = none)
    (es : List (HostEvent ncpu)) :
    Always RateHost.step (fun st e => RateIsolated (st.step e)) st es ↔
      Always RateHost.step RateSafe st es := by
  have hinit : RateIsolated st := by
    intro m cs hm
    rw [hstart m] at hm
    cases hm
  have hstep : ∀ (st : RateHost ncpu) e, RateIsolated st →
      (RateIsolated (st.step e) ↔ RateSafe st e) := fun st e h => rateIsolated_step_iff h e
  exact always_inv_iff hstep hinit es

/-- `hgctl add` for a MAC and an address with one limit for both directions. -/
def addWithLimit (mac ip limit : String) : HostEvent ncpu :=
  .add (.good ⟨0, 0⟩) [.iface "br0".toList, .mac mac.toList, .client ip.toList,
    .downloadRate limit.toList, .uploadRate limit.toList]

/-- It is enough to look at the clients that are there. -/
theorem othersRequested_of_keys {st : RateHost ncpu} {m : HgMacKey} {id : UInt32}
    {req : UInt64 × UInt64}
    (h : ∀ k ∈ st.maps.clients.keys, k = m ∨ (st.maps.clients.lookup k).map HgClient.rateLimitId ≠
      some id ∨ st.requested k = req) : OthersRequested st m id req := by
  intro k hk cs hcs hid
  have hmem : k ∈ st.maps.clients.keys := (BoundedMap.mem_keys_iff _ k).mpr (by rw [hcs]; rfl)
  rcases h k hmem with heq | hne | hreq
  · exact absurd heq hk
  · rw [hcs, Option.map_some, hid] at hne
    exact absurd rfl hne
  · exact hreq

/-- Two clients with rate ids of their own are shaped at their own limits, and the first one still
    is when the second is deleted. -/
theorem rate_isolation_two_clients :
    Always RateHost.step (fun st e => RateIsolated (st.step e))
      (⟨.start 1 .standard 0, fun _ => (0, 0)⟩ : RateHost 1)
      [addWithLimit "02:00:00:00:00:01" "10.0.0.5" "8000",
        addWithLimit "02:00:00:00:00:02" "10.0.0.6" "1000",
        .del (.good ⟨0, 0⟩) [.iface "br0".toList, .mac "02:00:00:00:00:02".toList]] := by
  refine (rate_isolation_iff (fun _ => rfl) _).mpr ⟨?_, ?_, ?_, trivial⟩
  case refine_1 =>
    have heff : addEffect (.good ⟨0, 0⟩) (.start 1 .standard 0)
        [.iface "br0".toList, .mac "02:00:00:00:00:01".toList, .client "10.0.0.5".toList,
          .downloadRate "8000".toList, .uploadRate "8000".toList] =
        .installed (localMac 1) (Bytes.addrOfOctets 10 0 0 5) ⟨0, 0, 0, 5, 0, 0⟩
          ⟨1000000, 1000000, hgHorizonNs⟩ true := by decide +kernel
    simp only [addWithLimit, RateSafe, heff]
    exact ⟨by unfold LimitsFit; decide +kernel, othersRequested_of_keys (by decide +kernel)⟩
  case refine_2 =>
    generalize hst : (RateHost.step _ _ : RateHost 1) = st
    have heff : addEffect (.good ⟨0, 0⟩) st.maps
        [.iface "br0".toList, .mac "02:00:00:00:00:02".toList, .client "10.0.0.6".toList,
          .downloadRate "1000".toList, .uploadRate "1000".toList] =
        .installed (localMac 2) (Bytes.addrOfOctets 10 0 0 6) ⟨0, 0, 0, 6, 0, 0⟩
          ⟨125000, 125000, hgHorizonNs⟩ true := by
      rw [← hst]
      decide +kernel
    simp only [addWithLimit, RateSafe, heff]
    refine ⟨by unfold LimitsFit; decide +kernel, othersRequested_of_keys ?_⟩
    rw [← hst]
    decide +kernel
  case refine_3 =>
    intro m val hm hval _
    obtain rfl := Option.some.inj ((show _ = some (localMac 2) by decide +kernel).symm.trans hm)
    obtain rfl := Option.some.inj ((show _ = some (⟨0, 0, 0, 6, 0, 0⟩ : HgClient) by
      decide +kernel).symm.trans hval)
    exact othersRequested_of_keys (by decide +kernel)

/-- Two clients whose addresses end in the same octet share a rate id, so adding the
    second changes the rates of the first. -/
theorem rate_isolation_fails_across_subnets :
    let st : RateHost 1 := ⟨.start 1 .standard 0, fun _ => (0, 0)⟩
    let es := [addWithLimit "02:00:00:00:00:01" "10.0.0.5" "8000",
      addWithLimit "02:00:00:00:00:02" "10.0.1.5" "1000"]
    (run RateHost.step st es).requested (localMac 1) = (8000, 8000) ∧
      (run RateHost.step st es).maps.rates.lookup 5 = some ⟨125000, 125000, hgHorizonNs⟩ ∧
      ¬ RateIsolated (run RateHost.step st es) := by
  refine ⟨by decide +kernel, by decide +kernel, fun h => ?_⟩
  have hown := (h (localMac 1) ⟨0, 0, 0, 5, 0, 0⟩ (by decide +kernel)).1
  revert hown
  decide +kernel

end HawkGate
