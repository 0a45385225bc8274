-- SUMMARY: When the statistics reader and the datapath agree on who is authenticated, over timed runs of packets and commands.
import HawkGate.Control.Reader
import HawkGate.Lib.Agreement
import HawkGate.System.Host

/-!
# Reader agreement

The portal asks `hg_read_one` whether an address is authenticated; the datapath
looks at the client entry of the sender's MAC. The reader goes by the counter of
the address and takes a missing client entry for a session that never ends, so
the two agree as the views of `Lib/Agreement.lean` do. Each kind of step keeps
the agreement under a condition on the maps before it.
-/

namespace HawkGate

open Bytes HawkGate.Frame CString Transition Agreement

variable {ncpu : Nat}

/-! ## The two answers -/

/-- The portal's view: the read succeeds with state `AUTH_OK`. -/
def ReaderAuthOk (env : SysEnv) (s : HgMaps ncpu) (ip : IpAddr) : Prop :=
  ((hgReadOne (inetNtop ip)).run env s).1.map HgClientStats.state =
    some ClientStatus.authOk.code.toInt32

/-- The datapath's view: the MAC has a client entry that has not run out. -/
def DatapathAuth (s : HgMaps ncpu) (now : UInt64) (m : HgMacKey) : Prop :=
  ∃ auth, s.clients.lookup m = some auth ∧ ¬ auth.Expired now

/-- A reader that can open the maps, with its boot clock at `now`, and the datapath agree
    on every bound address, except at the very instant at which the session of its MAC
    runs out. -/
def ReadersAgree (st : TimedHost ncpu) : Prop :=
  ∀ env : SysEnv, env.CanRead → (env.clock .boottime).toNs = st.now →
    ∀ ip m, st.maps.ipMac.lookup ip = some m →
      (∀ auth, st.maps.clients.lookup m = some auth → auth.expiryNs ≠ 0 → auth.expiryNs ≠ st.now) →
        (ReaderAuthOk env st.maps ip ↔ DatapathAuth st.maps st.now m)

/-- What the two consult: sessions by MAC, with the reader's expiry test, and addresses whose
    counter is in state `AUTH_OK` on every CPU. -/
def HgMaps.authView (s : HgMaps ncpu) (now : UInt64) : View HgMacKey IpAddr where
  bound := s.ipMac.lookup
  present := fun m => (s.session m).isSome = true
  live := fun m => ∃ cs, s.session m = some cs ∧ ¬ cs.RunOut now
  marked := fun a => ∃ f, s.states a = some f ∧ ∀ cpu, f cpu = 0

/-! ## Agreement is consistency -/

theorem HgMaps.authView_live_present {s : HgMaps ncpu} {now : UInt64} {m : HgMacKey}
    (h : (s.authView now).live m) : (s.authView now).present m := by
  obtain ⟨cs, hcs, -⟩ := h
  exact Option.isSome_iff_exists.mpr ⟨cs, hcs⟩

theorem authView_live_iff {s : HgMaps ncpu} {now : UInt64} {m : HgMacKey} :
    (s.authView now).live m ↔ ∃ cs, s.clients.lookup m = some cs ∧ ¬ cs.RunOut now := by
  simp only [HgMaps.authView, HgMaps.session, Option.map_eq_some_iff]
  constructor
  · rintro ⟨_, ⟨cs, hcs, rfl⟩, hrun⟩
    exact ⟨cs, hcs, hrun⟩
  · rintro ⟨cs, hcs, hrun⟩
    exact ⟨cs.session, ⟨cs, hcs, rfl⟩, hrun⟩

theorem toInt32_eq_zero_iff (x : UInt32) : x.toInt32 = 0 ↔ x = 0 := by
  constructor
  · intro h
    exact congrArg Int32.toUInt32 h
  · rintro rfl
    rfl

/-- The reader reports `AUTH_OK` for marked addresses whose session, if there is one, is live. -/
theorem readerAuthOk_iff {env : SysEnv} (henv : env.CanRead) {s : HgMaps ncpu} {ip : IpAddr}
    {m : HgMacKey} (hbound : s.ipMac.lookup ip = some m) :
    ReaderAuthOk env s ip ↔
      (s.authView (env.clock .boottime).toNs).marked ip ∧
        ((s.authView (env.clock .boottime).toNs).present m →
          (s.authView (env.clock .boottime).toNs).live m) := by
  have hrun : (s.readClient ip).RunOut (env.clock .boottime).toNs ↔
      ¬ ((s.authView (env.clock .boottime).toNs).present m →
        (s.authView (env.clock .boottime).toNs).live m) := by
    rw [HgMaps.readClient, hbound, Option.bind_some, authView_live_iff]
    cases hcs : s.clients.lookup m with
    | none => simp [HgMaps.authView, HgMaps.session, hcs, HgClient.RunOut, HgClient.zero]
    | some cs => simp [HgMaps.authView, HgMaps.session, hcs]
  rw [ReaderAuthOk, run_hgReadOne_state henv (inetPton_inetNtop ip)]
  cases hc : s.counters.lookup ip with
  | none => simp [HgMaps.authView, HgMaps.counted, hc]
  | some percpu =>
    have hmark : (s.authView (env.clock .boottime).toNs).marked ip ↔
        (aggregatePercpu percpu).state = 0 := by
      rw [aggregatePercpu_state]
      simp [HgMaps.authView, HgMaps.counted, hc]
    rw [hmark]
    by_cases hr : (s.readClient ip).RunOut (env.clock .boottime).toNs
    · have hnot := hrun.mp hr
      simp only [Option.map_some, if_pos hr, hnot, and_false, iff_false]
      decide
    · have hyes := not_not.mp fun h => hr (hrun.mpr h)
      simp only [Option.map_some, if_neg hr, Option.some.injEq, ClientStatus.code]
      rw [show (0 : UInt32).toInt32 = 0 from rfl, toInt32_eq_zero_iff]
      exact ⟨fun h => ⟨h, hyes⟩, fun h => h.1⟩

/-- Away from its expiry instant a session is live for the reader when it is for the datapath. -/
theorem datapathAuth_iff {s : HgMaps ncpu} {now : UInt64} {m : HgMacKey}
    (hinstant : ∀ auth, s.clients.lookup m = some auth → auth.expiryNs ≠ 0 → auth.expiryNs ≠ now) :
    DatapathAuth s now m ↔ (s.authView now).live m := by
  rw [authView_live_iff]
  refine exists_congr fun auth => and_congr_right fun hauth => not_congr ?_
  refine and_congr_right fun h0 => ?_
  have hne := hinstant auth hauth h0
  constructor
  · exact fun h => UInt64.le_of_lt h
  · exact fun h => UInt64.lt_of_le_of_ne h hne

theorem readersAgree_iff_consistent (st : TimedHost ncpu) :
    ReadersAgree st ↔ (st.maps.authView st.now).Consistent := by
  constructor
  · intro hagree ip m hbound
    by_cases hinstant : ∀ auth, st.maps.clients.lookup m = some auth → auth.expiryNs ≠ 0 →
        auth.expiryNs ≠ st.now
    · have hiff := hagree (.good st.clock) ⟨rfl, rfl, rfl, rfl, rfl⟩ rfl ip m hbound hinstant
      rw [readerAuthOk_iff ⟨rfl, rfl, rfl, rfl, rfl⟩ hbound, datapathAuth_iff hinstant] at hiff
      exact (View.at_iff HgMaps.authView_live_present).mpr hiff
    · -- at its expiry instant the session is present and no longer live
      simp only [not_forall, not_not] at hinstant
      obtain ⟨auth, hauth, h0, hnow⟩ := hinstant
      constructor
      · intro hlive
        obtain ⟨cs, hcs, hrun⟩ := authView_live_iff.mp hlive
        obtain rfl := Option.some.inj (hauth.symm.trans hcs)
        exact absurd ⟨h0, hnow ▸ UInt64.le_refl _⟩ hrun
      · intro _
        simp [HgMaps.authView, HgMaps.session, hauth]
  · intro hcons env henv hclock ip m hbound hinstant
    rw [readerAuthOk_iff henv hbound, hclock, datapathAuth_iff hinstant]
    exact (View.at_iff HgMaps.authView_live_present).mp (hcons ip m hbound)

/-! ## Steps -/

/-- A packet through ingress is in order. If it ends the session of its sender, no other live
    session is bound to its address, and no other address of the sender stays marked. If it
    ends no session but binds its address to the sender, the address is in order for the
    sender already. -/
def IngressAgrees (env : BpfEnv ncpu) (s : HgMaps ncpu) (skb : SkBuff) : Prop :=
  (EndsSession env s skb →
    (s.Rebinds env skb.data ∨
      ∀ k, k ≠ hSource skb.data → s.ipMac.lookup (saddr skb.data) = some k →
        ¬ (s.authView env.ktimeNs).live k) ∧
    (env.deleteClient = true →
      ∀ a, a ≠ saddr skb.data → s.ipMac.lookup a = some (hSource skb.data) →
        ¬ (s.authView env.ktimeNs).marked a)) ∧
  (¬ EndsSession env s skb → s.Rebinds env skb.data →
    (s.authView env.ktimeNs).At (saddr skb.data) (hSource skb.data))

/-- The session of `m` and the counter of the address `x` can be removed: nobody else bound
    to `x` has a live session, and no other address of `m` is marked. -/
def RemovalAgrees (s : HgMaps ncpu) (now : UInt64) (m : HgMacKey) (x : Option IpAddr) : Prop :=
  (∀ a k, x = some a → s.ipMac.lookup a = some k → k ≠ m → ¬ (s.authView now).live k) ∧
    ∀ a, some a ≠ x → s.ipMac.lookup a = some m → ¬ (s.authView now).marked a

/-- An add is in order: one that is rolled back leaves no address of the client marked; one
    that installs leaves no other MAC without a session bound to the address, and every other
    address of the client marked unless the new session is over at once. -/
def AddAgrees (s : HgMaps ncpu) (now : UInt64) : AddEffect → Prop
  | .refused => True
  | .rolledBack m => RemovalAgrees s now m none
  | .installed m ip client _ _ =>
    (∀ k, k ≠ m → s.ipMac.lookup ip = some k → (s.authView now).present k) ∧
      (¬ client.RunOut now →
        ∀ a, a ≠ ip → s.ipMac.lookup a = some m → (s.authView now).marked a)

/-- The address whose counter a del of `m` removes. -/
def delAddress (s : HgMaps ncpu) (env : SysEnv) (m : HgMacKey) : Option IpAddr :=
  if env.objGet .hgMacIp then s.macIp.lookup m else none

/-- The step leaves reader and datapath agreeing. -/
def AgreementSafe (st : TimedHost ncpu) : TimedEvent ncpu → Prop
  | .tick _ => True
  | .host e =>
    match e.at st.clock with
    | .ingress env skb => IngressAgrees env st.maps skb
    | .egress _ _ => True
    | .add env opts => AddAgrees st.maps st.now (addEffect env st.maps opts)
    | .del env opts =>
      ∀ m, delVictim st.maps env opts = some m →
        RemovalAgrees st.maps st.now m (delAddress st.maps env m)
    | .mapDel env opts => ∀ m, mapDelVictim env opts = some m → RemovalAgrees st.maps st.now m none

section
variable {s s' : HgMaps ncpu} {now : UInt64}

/-- Maps with the same bindings, sessions and state flags have the same view. -/
theorem authView_congr (hbound : s'.ipMac.lookup = s.ipMac.lookup)
    (hsession : ∀ k, s'.session k = s.session k) (hstates : s'.states = s.states) :
    s'.authView now = s.authView now := by
  simp only [HgMaps.authView, hbound, hsession, hstates]

theorem runOut_of_expired {cs : HgClient} (h : cs.Expired now) : cs.RunOut now :=
  ⟨h.1, UInt64.le_of_lt h.2⟩

theorem authView_localChange {m : HgMacKey} {x : Option IpAddr}
    (hbound : ∀ a, some a ≠ x → s'.ipMac.lookup a = s.ipMac.lookup a)
    (hsession : ∀ k, k ≠ m → s'.session k = s.session k)
    (hstates : ∀ a, some a ≠ x → s'.states a = s.states a) :
    View.LocalChange (s.authView now) (s'.authView now) m x where
  bound := hbound
  present k hk := by simp only [HgMaps.authView, hsession k hk]
  live k hk := by simp only [HgMaps.authView, hsession k hk]
  marked a ha := by simp only [HgMaps.authView, hstates a ha]

/-- Removing a session, and the counter of an address with it, keeps the view consistent
    exactly if the removal is in order. -/
theorem consistent_removal_iff (h : (s.authView now).Consistent) (m : HgMacKey)
    (x : Option IpAddr) (hbound : s'.ipMac = s.ipMac)
    (hsession : ∀ k, s'.session k = if k = m then none else s.session k)
    (hstates : ∀ a, s'.states a = if some a = x then none else s.states a) :
    (s'.authView now).Consistent ↔ RemovalAgrees s now m x := by
  have hgone : s'.session m = none := by rw [hsession, if_pos rfl]
  have hch : View.LocalChange (s.authView now) (s'.authView now) m x :=
    authView_localChange (fun a _ => by rw [hbound]) (fun k hk => by rw [hsession, if_neg hk])
      (fun a ha => by rw [hstates, if_neg ha])
  rw [hch.consistent_iff_of_ended h]
  · simp only [HgMaps.authView, RemovalAgrees, hbound, hgone, Option.isSome_none,
      Bool.false_eq_true, imp_false]
  · simp [HgMaps.authView, hgone]
  · intro a hx
    simp [HgMaps.authView, hstates, hx]

/-- An add that installs a session keeps the view consistent exactly if it is in order. -/
theorem consistent_install_iff (h : (s.authView now).Consistent) {m : HgMacKey} {ip : IpAddr}
    {client : HgClient} {rate : HgRateCfg} {rateOk : Bool} {env : SysEnv} {opts : List AddOpt}
    (heff : addEffect env s opts = .installed m ip client rate rateOk) :
    ((s.afterAdd (.installed m ip client rate rateOk)).authView now).Consistent ↔
      AddAgrees s now (.installed m ip client rate rateOk) := by
  generalize hs' : s.afterAdd (.installed m ip client rate rateOk) = s'
  have hbound : s'.ipMac = s.ipMac := by rw [← hs']; rfl
  have hsession : ∀ k, s'.session k = if k = m then some client.session else s.session k := by
    intro k
    rw [← hs', HgMaps.session, lookup_clients_install heff]
    split <;> rfl
  have hstates : ∀ a, s'.states a = if a = ip then some (fun _ => 0) else s.states a := by
    intro a
    rw [← hs', HgMaps.states, HgMaps.counted, lookup_counters_install heff]
    split <;> rfl
  have hother : ∀ k, k ≠ m → s'.session k = s.session k := by
    intro k hk
    rw [hsession, if_neg hk]
  have hnew : s'.session m = some client.session := by rw [hsession, if_pos rfl]
  have hmarked : (s'.authView now).marked ip := ⟨_, by rw [hstates, if_pos rfl], fun _ => rfl⟩
  have hmark : ∀ a, a ≠ ip → s'.states a = s.states a := by
    intro a ha
    rw [hstates, if_neg ha]
  have hch : View.LocalChange (s.authView now) (s'.authView now) m (some ip) :=
    authView_localChange (fun a _ => by rw [hbound]) hother
      (fun a ha => hmark a (by simpa using ha))
  rw [hch.consistent_iff h]
  refine and_congr ?_ ?_
  · -- the address of the add is marked now, so whoever is bound to it needs a session
    constructor
    · intro hip k hk hak
      have hat := (hip ip k rfl (by simpa only [HgMaps.authView, hbound] using hak)).2 hmarked
      simpa only [HgMaps.authView, hother k hk] using hat
    · rintro hip a k heq hak
      obtain rfl := Option.some.inj heq
      refine ⟨fun _ => hmarked, fun _ => ?_⟩
      simp only [HgMaps.authView, hbound] at hak ⊢
      by_cases hk : k = m
      · subst hk
        simp [hnew]
      · rw [hother k hk]
        exact hip k hk hak
  · -- the other addresses of the client are as good as the new session
    constructor
    · intro hm hrun a ha ham
      have hat := (hm a (by simpa using ha) ham).1 ⟨client.session, hnew, hrun⟩
      simpa only [HgMaps.authView, hmark a ha] using hat
    · intro hm a ha ham
      have ha' : a ≠ ip := by simpa using ha
      refine ⟨?_, fun _ => by simp [HgMaps.authView, hnew]⟩
      rintro ⟨cs, hcs, hrun⟩
      obtain rfl := Option.some.inj (hnew.symm.trans hcs)
      simpa only [HgMaps.authView, hmark a ha'] using hm hrun a ha' ham

theorem consistent_add_iff (h : (s.authView now).Consistent) (env : SysEnv) (opts : List AddOpt) :
    ((s.step (.add env opts)).authView now).Consistent ↔
      AddAgrees s now (addEffect env s opts) := by
  rw [HgMaps.step_add]
  cases heff : addEffect env s opts with
  | refused => exact iff_of_true h trivial
  | rolledBack m =>
    refine consistent_removal_iff h m none rfl (fun k => ?_) (fun a => by simp [HgMaps.afterAdd,
      HgMaps.states, HgMaps.counted])
    rw [HgMaps.session, HgMaps.afterAdd, BoundedMap.lookup_erase]
    split <;> rfl
  | installed m ip client rate rateOk => exact consistent_install_iff h heff

theorem consistent_del_iff (h : (s.authView now).Consistent) (env : SysEnv) (opts : List DelOpt) :
    ((s.step (.del env opts)).authView now).Consistent ↔
      ∀ m, delVictim s env opts = some m → RemovalAgrees s now m (delAddress s env m) := by
  rw [HgMaps.step_del]
  cases hv : delVictim s env opts with
  | none => exact iff_of_true h (by simp)
  | some m =>
    simp only [Option.elim_some, Option.some.injEq, forall_eq']
    refine consistent_removal_iff h m _ rfl (fun k => ?_) (fun a => ?_)
    · rw [HgMaps.session, HgMaps.afterDel, BoundedMap.lookup_erase]
      split <;> rfl
    · rw [HgMaps.states, HgMaps.counted, HgMaps.afterDel, delAddress]
      by_cases hopen : env.objGet .hgMacIp = true
      · simp only [hopen, if_true]
        cases s.macIp.lookup m with
        | none => simp [HgMaps.counted]
        | some ip =>
          simp only [BoundedMap.lookup_erase, Option.some.injEq]
          split <;> rfl
      · simp only [hopen]
        cases s.macIp.lookup m <;> simp [HgMaps.counted]

theorem consistent_mapDel_iff (h : (s.authView now).Consistent) (env : SysEnv)
    (opts : List MapDelOpt) :
    ((s.step (.mapDel env opts)).authView now).Consistent ↔
      ∀ m, mapDelVictim env opts = some m → RemovalAgrees s now m none := by
  rw [HgMaps.step_mapDel]
  cases hv : mapDelVictim env opts with
  | none => exact iff_of_true h (by simp)
  | some m =>
    simp only [Option.elim_some, Option.some.injEq, forall_eq']
    refine consistent_removal_iff h m none rfl (fun k => ?_) (fun a => by simp [HgMaps.states,
      HgMaps.counted])
    rw [HgMaps.session, BoundedMap.lookup_erase]
    split <;> rfl

theorem consistent_egress (h : (s.authView now).Consistent) (env : BpfEnv ncpu) (skb : SkBuff) :
    ((s.step (.egress env skb)).authView now).Consistent := by
  rw [authView_congr (s := s)]
  · exact h
  · rw [HgMaps.step, ipMac_hgTcEgress]
  · exact session_hgTcEgress env s skb
  · exact states_hgTcEgress env s skb

/-- A packet that ends no session is in order if the address it binds is. -/
theorem consistent_keep_iff {env : BpfEnv ncpu} {skb : SkBuff}
    (h : (s.authView env.ktimeNs).Consistent) (hkeep : ¬ EndsSession env s skb) :
    ((hgTcIngress env s skb).maps.authView env.ktimeNs).Consistent ↔
      (s.Rebinds env skb.data →
        (s.authView env.ktimeNs).At (saddr skb.data) (hSource skb.data)) := by
  have hsession := session_hgTcIngress_keep hkeep
  have hstates := states_hgTcIngress hkeep
  by_cases hre : s.Rebinds env skb.data
  · have hbound := HgMaps.lookup_ipMac_bindFrame_of_rebinds hre
    have hat : ∀ a k, ((hgTcIngress env s skb).maps.authView env.ktimeNs).At a k ↔
        (s.authView env.ktimeNs).At a k := by
      intro a k
      simp only [View.At, HgMaps.authView, hsession, hstates]
    have hch : View.LocalChange (s.authView env.ktimeNs)
        ((hgTcIngress env s skb).maps.authView env.ktimeNs) (hSource skb.data)
        (some (saddr skb.data)) := by
      refine authView_localChange (fun a ha => ?_) (fun k _ => hsession k)
        (fun a _ => by rw [hstates])
      rw [ipMac_hgTcIngress, hbound, if_neg (by simpa using ha)]
    simp only [hch.consistent_iff h, hat, hre, true_imp_iff]
    constructor
    · rintro ⟨hip, -⟩
      refine hip _ _ rfl ?_
      simp [HgMaps.authView, hbound]
    · intro hip
      refine ⟨?_, fun a _ ham => h a _ ham⟩
      rintro a k heq hak
      obtain rfl := Option.some.inj heq
      simp only [HgMaps.authView, ipMac_hgTcIngress, hbound, if_true, Option.some.injEq] at hak
      rw [← hak]
      exact hip
  · rw [authView_congr (s := s) (by rw [ipMac_hgTcIngress, HgMaps.lookup_ipMac_bindFrame_keep hre])
      hsession hstates]
    exact iff_of_true h (fun hre' => absurd hre' hre)

section
variable {env : BpfEnv ncpu} {skb : SkBuff} (hend : EndsSession env s skb)
include hend

/-- The ended session is gone if the deletion succeeds; no other changes. -/
theorem session_of_endsSession (k : HgMacKey) :
    (hgTcIngress env s skb).maps.session k =
      if k = hSource skb.data ∧ env.deleteClient = true then none else s.session k := by
  rw [hgTcIngress_of_endsSession hend, HgMaps.session_expireClient, HgMaps.session_bindFrame]

/-- The address of the packet is marked as run out. -/
theorem not_marked_of_endsSession :
    ¬ ((hgTcIngress env s skb).maps.authView env.ktimeNs).marked (saddr skb.data) := by
  rintro ⟨f, hf, hzero⟩
  rw [hgTcIngress_of_endsSession hend] at hf
  have hcode := (HgMaps.states_expireClient_self hf).symm.trans (hzero env.cpu)
  exact absurd hcode (by decide)

/-- Deleted or not, the ended session is no live one. -/
theorem not_live_of_endsSession :
    ¬ ((hgTcIngress env s skb).maps.authView env.ktimeNs).live (hSource skb.data) := by
  have hsession := session_of_endsSession hend (hSource skb.data)
  obtain ⟨-, -, -, auth, hauth, hexp⟩ := hend
  rintro ⟨cs, hcs, hrun⟩
  have hold : s.session (hSource skb.data) = some auth.session := by
    rw [HgMaps.session, hauth, Option.map_some]
  rw [hsession, hold] at hcs
  split at hcs
  · cases hcs
  · obtain rfl := Option.some.inj hcs
    exact hrun (runOut_of_expired hexp)

theorem present_of_endsSession :
    ((hgTcIngress env s skb).maps.authView env.ktimeNs).present (hSource skb.data) ↔
      ¬ env.deleteClient = true := by
  have hsession := session_of_endsSession hend (hSource skb.data)
  obtain ⟨-, -, -, auth, hauth, -⟩ := hend
  have hold : s.session (hSource skb.data) = some auth.session := by
    rw [HgMaps.session, hauth, Option.map_some]
  simp only [HgMaps.authView, hsession, true_and, hold]
  split <;> simp [*]

/-- The packet concerns its sender and its address only. -/
theorem localChange_of_endsSession :
    View.LocalChange (s.authView env.ktimeNs) ((hgTcIngress env s skb).maps.authView env.ktimeNs)
      (hSource skb.data) (some (saddr skb.data)) := by
  refine authView_localChange (fun a ha => ?_) (fun k hk => ?_) (fun a ha => ?_)
  · rw [ipMac_hgTcIngress, HgMaps.lookup_ipMac_bindFrame_ne (by simpa using ha)]
  · rw [session_of_endsSession hend, if_neg fun hand => hk hand.1]
  · rw [hgTcIngress_of_endsSession hend, HgMaps.states_expireClient_ne (by simpa using ha),
      HgMaps.states, HgMaps.counted_bindFrame]

/-- A packet that ends a session is in order if nobody else lives at its address and the
    client is marked nowhere else. -/
theorem consistent_end_iff (h : (s.authView env.ktimeNs).Consistent) :
    ((hgTcIngress env s skb).maps.authView env.ktimeNs).Consistent ↔
      (s.Rebinds env skb.data ∨
        ∀ k, k ≠ hSource skb.data → s.ipMac.lookup (saddr skb.data) = some k →
          ¬ (s.authView env.ktimeNs).live k) ∧
      (env.deleteClient = true →
        ∀ a, a ≠ saddr skb.data → s.ipMac.lookup a = some (hSource skb.data) →
          ¬ (s.authView env.ktimeNs).marked a) := by
  have hrev : ∀ k, k ≠ hSource skb.data →
      (((hgTcIngress env s skb).maps.authView env.ktimeNs).bound (saddr skb.data) = some k ↔
        ¬ s.Rebinds env skb.data ∧ s.ipMac.lookup (saddr skb.data) = some k) := by
    intro k hk
    simp only [HgMaps.authView, ipMac_hgTcIngress]
    by_cases hre : s.Rebinds env skb.data
    · simp [HgMaps.lookup_ipMac_bindFrame_of_rebinds hre, hre, hk.symm]
    · simp [HgMaps.lookup_ipMac_bindFrame_keep hre, hre]
  have hpresent := present_of_endsSession hend
  have hunmarked : ∀ a, some (saddr skb.data) = some a →
      ¬ ((hgTcIngress env s skb).maps.authView env.ktimeNs).marked a := by
    rintro a ⟨⟩
    exact not_marked_of_endsSession hend
  rw [(localChange_of_endsSession hend).consistent_iff_of_ended h (not_live_of_endsSession hend)
    hunmarked]
  refine and_congr ?_ ?_
  · constructor
    · intro hip
      refine or_iff_not_imp_left.mpr fun hre k hk hak => ?_
      exact hip _ k rfl ((hrev k hk).mpr ⟨hre, hak⟩) hk
    · rintro hor a k heq hak hk
      obtain rfl := Option.some.inj heq
      obtain ⟨hre, hold⟩ := (hrev k hk).mp hak
      exact hor.resolve_left hre k hk hold
  · simp only [hpresent, ne_eq, Option.some.injEq]
    constructor
    · exact fun hm hdel a ha ham hmk => hm a ha ham hmk hdel
    · exact fun hm a ha ham hmk hdel => hm hdel a ha ham hmk

end

theorem consistent_ingress_iff (env : BpfEnv ncpu) {skb : SkBuff}
    (h : (s.authView env.ktimeNs).Consistent) :
    ((hgTcIngress env s skb).maps.authView env.ktimeNs).Consistent ↔ IngressAgrees env s skb := by
  by_cases hend : EndsSession env s skb
  · rw [consistent_end_iff hend h, IngressAgrees]
    simp [hend]
  · rw [consistent_keep_iff h hend, IngressAgrees]
    simp [hend]

end

/-! ## Runs -/

/-- Time only ends sessions. -/
theorem consistent_later {s : HgMaps ncpu} {now later : UInt64} (hle : now ≤ later)
    (h : (s.authView now).Consistent) : (s.authView later).Consistent := by
  refine h.of_ended rfl rfl ?_ rfl
  rintro k ⟨cs, hcs, hrun⟩
  exact ⟨cs, hcs, fun hr => hrun ⟨hr.1, UInt64.le_trans hr.2 hle⟩⟩

/-- One step leaves reader and datapath agreeing exactly if it is safe. -/
theorem readersAgree_step_iff {st : TimedHost ncpu} (h : ReadersAgree st) (e : TimedEvent ncpu) :
    ReadersAgree (st.step e) ↔ AgreementSafe st e := by
  rw [readersAgree_iff_consistent] at h ⊢
  cases e with
  | tick ts =>
    refine iff_of_true ?_ trivial
    rw [TimedHost.step]
    split
    · next hle => exact consistent_later hle h
    · exact h
  | host e =>
    cases e with
    | ingress env skb => exact consistent_ingress_iff { env with ktimeNs := st.now } h
    | egress env skb => exact iff_of_true (consistent_egress h _ skb) trivial
    | add env opts => exact consistent_add_iff h _ opts
    | del env opts => exact consistent_del_iff h _ opts
    | mapDel env opts => exact consistent_mapDel_iff h _ opts

/-- From a host without bindings, reader and datapath agree throughout a run exactly if each
    step of the run is safe. -/
theorem readers_agree_iff {st : TimedHost ncpu} (hstart : ∀ a, st.maps.ipMac.lookup a = none)
    (es : List (TimedEvent ncpu)) :
    Always TimedHost.step (fun st e => ReadersAgree (st.step e)) st es ↔
      Always TimedHost.step AgreementSafe st es := by
  have hinit : ReadersAgree st := by
    intro env _ _ ip m hbound
    rw [hstart ip] at hbound
    cases hbound
  have hstep : ∀ (st : TimedHost ncpu) e, ReadersAgree st →
      (ReadersAgree (st.step e) ↔ AgreementSafe st e) := fun st e h => readersAgree_step_iff h e
  exact always_inv_iff hstep hinit es

/-- The first packet of a client at 192.168.99.82. -/
def firstPacket : TimedEvent 1 :=
  .host (.ingress (.good ⟨0, Nat.one_pos⟩ 0)
    ⟨tcpFrame (localMac 1) (addrOfOctets 192 168 99 82) (addrOfOctets 93 184 216 34) 40000 443, 54⟩)

/-- The login of that client. -/
def login : TimedEvent 1 :=
  .host (.add (.good ⟨0, 0⟩) [.iface "br0".toList, .client "192.168.99.82".toList,
    .downloadRate "8000".toList, .uploadRate "8000".toList])

theorem readers_agree_login :
    Always TimedHost.step (fun st e => ReadersAgree (st.step e)) ⟨.start 1 .standard 0, ⟨0, 0⟩⟩
      [firstPacket, login] := by
  refine (readers_agree_iff (fun _ => rfl) _).mpr ⟨⟨?_, ?_⟩, ?_, trivial⟩
  · rintro ⟨-, -, -, auth, ⟨⟩, -⟩
  · rintro - -
    constructor
    · rintro ⟨cs, ⟨⟩, -⟩
    · rintro ⟨f, ⟨⟩, -⟩
  · generalize hst : TimedHost.step ⟨.start 1 .standard 0, ⟨0, 0⟩⟩ firstPacket = st
    have hbound : st.maps.ipMac.entries =
        [(addrOfOctets 192 168 99 82, localMac 1)] := by
      rw [← hst]
      decide +kernel
    have heff : addEffect (.good st.clock) st.maps [.iface "br0".toList,
          .client "192.168.99.82".toList, .downloadRate "8000".toList,
          .uploadRate "8000".toList] =
        .installed (localMac 1) (addrOfOctets 192 168 99 82) ⟨0, 0, 0, 82, 0, 0⟩
          ⟨1000000, 1000000, hgHorizonNs⟩ true := by
      rw [← hst]
      decide +kernel
    have hsafe : AddAgrees st.maps st.now (.installed (localMac 1)
        (addrOfOctets 192 168 99 82) ⟨0, 0, 0, 82, 0, 0⟩ ⟨1000000, 1000000, hgHorizonNs⟩ true) := by
      constructor
      · intro k hk hak
        rw [BoundedMap.lookup, hbound] at hak
        exact absurd (Option.some.inj hak).symm hk
      · intro _ a ha ham
        rw [BoundedMap.lookup, hbound, List.lookup_cons, beq_false_of_ne ha] at ham
        cases ham
    rw [← heff] at hsafe
    exact hsafe

/-- An operator deletes the client entry, and the reader still reports the address. -/
theorem reader_outlives_session :
    let st := run TimedHost.step (⟨.start 1 .standard 0, ⟨0, 0⟩⟩ : TimedHost 1)
      [firstPacket, login, .host (.mapDel (.good ⟨0, 0⟩) [.map "hg_clients".toList,
        .key "02:00:00:00:00:01".toList])]
    ReaderAuthOk (.good ⟨0, 0⟩) st.maps (addrOfOctets 192 168 99 82) ∧
      st.maps.clients.lookup (localMac 1) = none ∧ ¬ ReadersAgree st := by
  intro st
  have hok : ReaderAuthOk (.good ⟨0, 0⟩) st.maps (addrOfOctets 192 168 99 82) := by
    unfold ReaderAuthOk
    decide +kernel
  have hgone : st.maps.clients.lookup (localMac 1) = none := by decide +kernel
  refine ⟨hok, hgone, fun hagree => ?_⟩
  have hiff := hagree (.good ⟨0, 0⟩) ⟨rfl, rfl, rfl, rfl, rfl⟩ rfl (addrOfOctets 192 168 99 82)
    (localMac 1) (by decide +kernel)
  rw [hgone] at hiff
  obtain ⟨auth, hauth, -⟩ := (hiff (fun auth hauth => by cases hauth)).mp hok
  rw [hgone] at hauth
  cases hauth

end HawkGate
