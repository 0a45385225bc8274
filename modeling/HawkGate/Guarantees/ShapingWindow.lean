-- SUMMARY: When packets of a limited client can pass unshaped while commands are running: before its profile is written and after it is deleted.
import HawkGate.Kernel.Stages
import HawkGate.System.CallOrder
import HawkGate.Guarantees.SessionMobility

/-!
# Shaping windows

An add writes the client entry before the profile, and a del deletes the profile
before the entry. A packet in between finds a session without a profile, which
means unlimited. Which calls of the commands came before the packet, and which of
them were accepted, says for every interleaving whether the packet is shaped.
-/

namespace HawkGate

open Bytes HawkGate.Frame Transition

variable {ncpu : Nat}

/-! ## The guarantee -/

/-- A hook forwards the packet by the session `auth` of client `m`. -/
def ForwardsBySession (s : HgMaps ncpu) : CommandEvent ncpu → HgMacKey → HgClient → Prop
  | .ingress env skb, m, auth =>
    ((∃ key, filterProto skb.data = .l3Ok key) ∧ s.bypass.lookup (saddr skb.data) = none ∧
      s.toPortal skb.data = none) ∧
      hSource skb.data = m ∧ s.clients.lookup m = some auth ∧ ¬ auth.Expired env.ktimeNs ∧
        (hgTcIngress env s skb).verdict ≠ .shot
  | .egress env skb, m, auth =>
    ReachesEgressSession s skb.data ∧ s.sessionOf (daddr skb.data) = some (m, auth) ∧
      (hgTcEgress env s skb).verdict ≠ .shot
  | .start _, _, _ | .call _ _, _, _ => False

/-- The write that the event makes, and the command that makes it. -/
def CommandHost.writeOf (st : CommandHost ncpu) :
    CommandEvent ncpu → Option (Command × MapWrite ncpu)
  | .call i env =>
    st.running[i]?.bind fun p => (p.write env st.maps).map fun w => (p.command, w)
  | .start _ | .ingress _ _ | .egress _ _ => none

/-- Whether a client has limits for both directions, after a write of the command. -/
def limitedAfter (limited : HgMacKey → Bool) :
    Option (Command × MapWrite ncpu) → HgMacKey → Bool
  | some (c, .client m (some _)) => Function.update limited m c.limited
  | _ => limited

/-! ## What the calls have set up -/

/-- What the calls of adds and dels, by their order and their outcomes, have set up so far. -/
structure CallRecord where
  /-- Where each command stands. -/
  stages : List (Command × CallStage)
  /-- The accepted client write of an add, unless a rollback, a del or a packet that met the
      expired session came since. -/
  sessions : HgMacKey → Option HgClient
  /-- The add that wrote the client has limits for both directions. -/
  limited : HgMacKey → Bool
  /-- An add's counter write was accepted, and no del's deletion came since. -/
  counted : IpAddr → Bool
  /-- An add's profile write was accepted, and no del's deletion came since. -/
  profiled : UInt32 → Bool

/-- A host on which no command is running, and what its maps hold. -/
def CallRecord.init (s : HgMaps ncpu) (limited : HgMacKey → Bool) : CallRecord where
  stages := []
  sessions := s.session
  limited := limited
  counted := fun ip => (s.counters.lookup ip).isSome
  profiled := fun id => (s.rates.lookup id).isSome

/-- One call at a stage of a command. -/
def CallRecord.write (r : CallRecord) (c : Command) : Option (MapWrite ncpu) → CallRecord
  | some (.client m v) =>
    { r with
      sessions := Function.update r.sessions m (v.map HgClient.session)
      limited := if v.isSome then Function.update r.limited m c.limited else r.limited }
  | some (.counter ip v) => { r with counted := Function.update r.counted ip v.isSome }
  | some (.rate id v) => { r with profiled := Function.update r.profiled id v.isSome }
  | none => r

def CallRecord.step (r : CallRecord) (s : HgMaps ncpu) : CommandEvent ncpu → CallRecord
  | .start c => { r with stages := r.stages ++ [(c, c.stage)] }
  | .call i env =>
    match r.stages[i]? with
    | none => r
    | some (c, stage) =>
      { r.write c (stage.write env s) with stages := r.stages.set i (c, stage.next env s) }
  | .ingress env skb =>
    { r with
      sessions := fun m => if s.endedSession env skb.data = some m then none else r.sessions m }
  | .egress _ _ => r

/-- A host with running commands, the clients whose entry comes from an add with limits for both
    directions, and the record of the calls. -/
structure InstallHost (ncpu : Nat) extends CommandHost ncpu where
  limited : HgMacKey → Bool
  calls : CallRecord

/-- A host before the first command. -/
def InstallHost.init (s : HgMaps ncpu) (limited : HgMacKey → Bool) : InstallHost ncpu :=
  ⟨⟨s, []⟩, limited, .init s limited⟩

def InstallHost.step (st : InstallHost ncpu) (e : CommandEvent ncpu) : InstallHost ncpu where
  toCommandHost := st.toCommandHost.step e
  limited := limitedAfter st.limited (st.writeOf e)
  calls := st.calls.step st.maps e

/-- A packet forwarded by the session of a limited client finds a rate profile. -/
def LimitedIsShaped (st : InstallHost ncpu) (e : CommandEvent ncpu) : Prop :=
  ∀ m auth, ForwardsBySession st.maps e m auth → st.limited m = true →
    (st.maps.rates.lookup auth.rateLimitId).isSome = true

/-- The packet is for the session `auth` that the calls have given client `m`, and its address has
    a counter. -/
def ServedBySession (st : InstallHost ncpu) : CommandEvent ncpu → HgMacKey → HgClient → Prop
  | .ingress env skb, m, auth =>
    ((∃ key, filterProto skb.data = .l3Ok key) ∧ st.maps.bypass.lookup (saddr skb.data) = none ∧
      st.maps.toPortal skb.data = none) ∧
      hSource skb.data = m ∧ st.calls.sessions m = some auth ∧ ¬ auth.Expired env.ktimeNs ∧
        st.calls.counted (saddr skb.data) = true
  | .egress _ skb, m, auth =>
    ReachesEgressSession st.maps skb.data ∧ st.maps.ipMac.lookup (daddr skb.data) = some m ∧
      st.calls.sessions m = some auth ∧ st.calls.counted (daddr skb.data) = true
  | .start _, _, _ | .call _ _, _, _ => False

/-- A packet for the session of a limited client comes while the profile of its rate id is there:
    not before an add's write of it was accepted, and not after a del's deletion of it before such
    a write again. -/
def OutsideWindows (st : InstallHost ncpu) (e : CommandEvent ncpu) : Prop :=
  ∀ m auth, ServedBySession st e m auth → st.calls.limited m = true →
    st.calls.profiled auth.rateLimitId = true

/-! ## The record agrees with the maps -/

structure InstallHost.Agrees (st : InstallHost ncpu) : Prop where
  stages : List.Forall₂ (fun p q => q.1 = p.command ∧ q.2.Followed p.rest) st.running
    st.calls.stages
  sessions : ∀ m, st.maps.session m = st.calls.sessions m
  limited : st.limited = st.calls.limited
  counted : ∀ ip, (st.maps.counters.lookup ip).isSome = st.calls.counted ip
  profiled : ∀ id, (st.maps.rates.lookup id).isSome = st.calls.profiled id

theorem InstallHost.agrees_init (s : HgMaps ncpu) (limited : HgMacKey → Bool) :
    (InstallHost.init s limited).Agrees :=
  ⟨.nil, fun _ => rfl, rfl, fun _ => rfl, fun _ => rfl⟩

/-- Ingress ends at most one session and changes the data of no other. -/
theorem session_hgTcIngress_eq (env : BpfEnv ncpu) (s : HgMaps ncpu) (skb : SkBuff)
    (m : HgMacKey) :
    (hgTcIngress env s skb).maps.session m =
      if s.endedSession env skb.data = some m then none else s.session m := by
  have hsome := isSome_clients_hgTcIngress env s skb m
  split
  · next hend =>
    rw [hend, if_pos rfl] at hsome
    simpa [HgMaps.session] using hsome
  · next hkeep =>
    rw [if_neg hkeep] at hsome
    rcases session_hgTcIngress env s skb m with h | ⟨-, -, h⟩
    · exact h
    · rw [h]
      have hnone : (hgTcIngress env s skb).maps.clients.lookup m = none := by
        simpa [HgMaps.session] using h
      rw [hnone] at hsome
      simpa [HgMaps.session] using hsome.symm

section
variable {α β : Type*} {R : α → β → Prop} {l : List α} {l' : List β}

theorem exists_getElem?_of_forall₂ (h : List.Forall₂ R l l') {i : Nat} {a : α}
    (ha : l[i]? = some a) : ∃ b, l'[i]? = some b ∧ R a b := by
  obtain ⟨hi, rfl⟩ := List.getElem?_eq_some_iff.mp ha
  have hi' : i < l'.length := h.length_eq ▸ hi
  exact ⟨l'[i], List.getElem?_eq_getElem hi', h.get hi hi'⟩

theorem forall₂_set (h : List.Forall₂ R l l') (i : Nat) {a : α} {b : β} (hab : R a b) :
    List.Forall₂ R (l.set i a) (l'.set i b) := by
  induction h generalizing i with
  | nil => exact .nil
  | cons hhead htail ih =>
    cases i with
    | zero => exact .cons hab htail
    | succ i => exact .cons hhead (ih i)

end

/-- A write and what the record keeps of it. -/
theorem InstallHost.Agrees.write {st : InstallHost ncpu} (h : st.Agrees) (c : Command)
    (w : Option (MapWrite ncpu)) :
    (∀ m, (MapWrite.clients w st.maps.clients.lookup m).map HgClient.session =
        (st.calls.write c w).sessions m) ∧
      (∀ ip, (MapWrite.counters w st.maps.counters.lookup ip).isSome =
        (st.calls.write c w).counted ip) ∧
      (∀ id, (MapWrite.rates w st.maps.rates.lookup id).isSome =
        (st.calls.write c w).profiled id) ∧
      limitedAfter st.limited (w.map fun w => (c, w)) = (st.calls.write c w).limited := by
  cases w with
  | none => exact ⟨h.sessions, h.counted, h.profiled, h.limited⟩
  | some w =>
    cases w with
    | client m v =>
      refine ⟨fun k => ?_, h.counted, h.profiled, ?_⟩
      · simp only [MapWrite.clients, CallRecord.write, Function.update_apply]
        split
        · rfl
        · exact h.sessions k
      · cases v with
        | none => exact h.limited
        | some cs =>
          simp only [Option.map_some, limitedAfter, CallRecord.write, Option.isSome_some, if_true,
            h.limited]
    | counter ip v =>
      refine ⟨h.sessions, fun k => ?_, h.profiled, h.limited⟩
      simp only [MapWrite.counters, CallRecord.write, Function.update_apply]
      split
      · rfl
      · exact h.counted k
    | rate id v =>
      refine ⟨h.sessions, h.counted, fun k => ?_, h.limited⟩
      simp only [MapWrite.rates, CallRecord.write, Function.update_apply]
      split
      · rfl
      · exact h.profiled k

/-- A call of a command goes into the record as the call of its stage. -/
theorem InstallHost.Agrees.call {st : InstallHost ncpu} (h : st.Agrees) (i : Nat) (env : SysEnv) :
    (st.step (.call i env)).Agrees := by
  cases hp : st.running[i]? with
  | none =>
    have hq : st.calls.stages[i]? = none := by
      rw [List.getElem?_eq_none_iff] at hp ⊢
      exact h.stages.length_eq ▸ hp
    have hstep : st.step (.call i env) = st := by
      simp only [InstallHost.step, CommandHost.step, CommandHost.writeOf, CallRecord.step, hp, hq,
        Option.bind_none, limitedAfter]
    rw [hstep]
    exact h
  | some p =>
    obtain ⟨c, rest⟩ := p
    obtain ⟨⟨c', stage⟩, hq, hc, hfollowed⟩ := exists_getElem?_of_forall₂ h.stages hp
    obtain rfl : c' = c := hc
    have hwrite := hfollowed.write env st.maps c'
    obtain ⟨hclients, hcounters, hrates⟩ := lookup_advance ⟨c', rest⟩ env st.maps
    rw [hwrite] at hclients hcounters hrates
    obtain ⟨hsessions, hcounted, hprofiled, hlimited⟩ := h.write c' (stage.write env st.maps)
    have hcalls : (st.step (.call i env)).calls =
        { st.calls.write c' (stage.write env st.maps) with
          stages := st.calls.stages.set i (c', stage.next env st.maps) } := by
      simp only [InstallHost.step, CallRecord.step, hq]
    have hhost : (st.step (.call i env)).toCommandHost =
        ⟨(rest.advance (Sys.exec env) st.maps).2,
          st.running.set i ⟨c', (rest.advance (Sys.exec env) st.maps).1⟩⟩ := by
      simp only [InstallHost.step, CommandHost.step, hp]
    constructor
    case stages =>
      rw [hcalls, hhost]
      exact forall₂_set h.stages i ⟨rfl, hfollowed.advance env st.maps⟩
    case sessions =>
      intro m
      rw [hcalls, hhost, HgMaps.session, hclients]
      exact hsessions m
    case limited =>
      rw [hcalls]
      simp only [InstallHost.step, CommandHost.writeOf, hp, Option.bind_some, hwrite]
      exact hlimited
    case counted =>
      intro ip
      rw [hcalls, hhost, hcounters]
      exact hcounted ip
    case profiled =>
      intro id
      rw [hcalls, hhost, hrates]
      exact hprofiled id

theorem InstallHost.Agrees.step {st : InstallHost ncpu} (h : st.Agrees) (e : CommandEvent ncpu) :
    (st.step e).Agrees := by
  cases e with
  | start c =>
    refine ⟨?_, h.sessions, h.limited, h.counted, h.profiled⟩
    exact List.rel_append h.stages (.cons ⟨rfl, followed_tool c⟩ .nil)
  | call i env => exact h.call i env
  | ingress env skb =>
    refine ⟨h.stages, fun m => ?_, h.limited, fun ip => ?_, fun id => ?_⟩
    · have hsession := session_hgTcIngress_eq env st.maps skb m
      rw [h.sessions] at hsession
      exact hsession
    · exact (isSome_counters_hgTcIngress env st.maps skb ip).trans (h.counted ip)
    · rw [InstallHost.step, CommandHost.step, rates_hgTcIngress]
      exact h.profiled id
  | egress env skb =>
    refine ⟨h.stages, fun m => ?_, h.limited, fun ip => ?_, fun id => ?_⟩
    · exact (session_hgTcEgress env st.maps skb m).trans (h.sessions m)
    · exact (isSome_counters_hgTcEgress env st.maps skb ip).trans (h.counted ip)
    · rw [InstallHost.step, CommandHost.step, rates_hgTcEgress]
      exact h.profiled id

/-! ## One packet -/

section
variable {st : InstallHost ncpu}

/-- What a hook forwards by a session is for the session that the calls have given. -/
theorem servedBySession_of_forwards (h : st.Agrees) {e : CommandEvent ncpu} {m : HgMacKey}
    {auth : HgClient} (hforwards : ForwardsBySession st.maps e m auth) :
    ServedBySession st e m auth.session := by
  cases e with
  | start c => exact hforwards.elim
  | call i env => exact hforwards.elim
  | ingress env skb =>
    obtain ⟨⟨⟨key, hkey⟩, hsrc, hdst⟩, rfl, hauth, hlive, hpass⟩ := hforwards
    refine ⟨⟨⟨key, hkey⟩, hsrc, hdst⟩, rfl, ?_, hlive, ?_⟩
    · rw [← h.sessions, HgMaps.session, hauth, Option.map_some]
    · rw [hgTcIngress_session hkey hsrc hdst hauth] at hpass
      have hhorizon : ¬ UploadHorizonExceeded env
          (st.maps.bindClient env (hSource skb.data) (saddr skb.data)) skb.len auth :=
        fun hdrop => hpass (ingressSession_horizon hlive hdrop)
      rw [ingressSession_forwards_iff hlive hhorizon, HgMaps.bindClient_counters] at hpass
      rw [← h.counted, hpass]
  | egress env skb =>
    obtain ⟨hreach, hof, hpass⟩ := hforwards
    obtain ⟨m', hbound, hm⟩ := Option.bind_eq_some_iff.mp hof
    obtain ⟨auth', hauth, heq⟩ := Option.map_eq_some_iff.mp hm
    obtain ⟨rfl, rfl⟩ := Prod.mk.inj heq
    refine ⟨hreach, hbound, ?_, ?_⟩
    · rw [← h.sessions, HgMaps.session, hauth, Option.map_some]
    · obtain ⟨⟨key, hkey⟩, hsrc, hdst⟩ := hreach
      rw [hgTcEgress_session hkey hsrc hdst hbound hauth, egressSession_forwards_iff] at hpass
      rw [← h.counted, hpass]

/-- A packet for a session without a profile is forwarded by it. -/
theorem forwards_of_servedBySession (h : st.Agrees) {e : CommandEvent ncpu} {m : HgMacKey}
    {auth : HgClient} (hserved : ServedBySession st e m auth)
    (hrate : st.maps.rates.lookup auth.rateLimitId = none) :
    ∃ cs, cs.session = auth ∧ ForwardsBySession st.maps e m cs := by
  cases e with
  | start c => exact hserved.elim
  | call i env => exact hserved.elim
  | ingress env skb =>
    obtain ⟨⟨⟨key, hkey⟩, hsrc, hdst⟩, rfl, hsession, hlive, hcounted⟩ := hserved
    rw [← h.sessions] at hsession
    obtain ⟨cs, hcs, rfl⟩ := Option.map_eq_some_iff.mp hsession
    refine ⟨cs, rfl, ⟨⟨key, hkey⟩, hsrc, hdst⟩, rfl, hcs, hlive, ?_⟩
    have hlive' : ¬ cs.Expired env.ktimeNs := hlive
    have hhorizon : ¬ UploadHorizonExceeded env
        (st.maps.bindClient env (hSource skb.data) (saddr skb.data)) skb.len cs := by
      have hnone : st.maps.rates.lookup cs.rateLimitId = none := hrate
      rw [UploadHorizonExceeded, HgMaps.bindClient_rates, applyEdtShaping, hnone]
      exact TcAct.noConfusion
    rw [hgTcIngress_session hkey hsrc hdst hcs, ingressSession_forwards_iff hlive' hhorizon,
      HgMaps.bindClient_counters, h.counted, hcounted]
  | egress env skb =>
    obtain ⟨hreach, hbound, hsession, hcounted⟩ := hserved
    rw [← h.sessions] at hsession
    obtain ⟨cs, hcs, rfl⟩ := Option.map_eq_some_iff.mp hsession
    refine ⟨cs, rfl, hreach, ?_, ?_⟩
    · rw [HgMaps.sessionOf, hbound, Option.bind_some, hcs, Option.map_some]
    · obtain ⟨⟨key, hkey⟩, hsrc, hdst⟩ := hreach
      rw [hgTcEgress_session hkey hsrc hdst hbound hcs, egressSession_forwards_iff, h.counted,
        hcounted]

theorem limitedIsShaped_iff (h : st.Agrees) (e : CommandEvent ncpu) :
    LimitedIsShaped st e ↔ OutsideWindows st e := by
  constructor
  · intro hshaped m auth hserved hlimited
    rw [← h.profiled]
    by_contra hnone
    obtain ⟨cs, rfl, hforwards⟩ := forwards_of_servedBySession h hserved (by simpa using hnone)
    exact hnone (hshaped m cs hforwards (by rw [h.limited, hlimited]))
  · intro houtside m auth hforwards hlimited
    have hprofiled := houtside m auth.session (servedBySession_of_forwards h hforwards)
      (by rw [← h.limited, hlimited])
    rw [← h.profiled] at hprofiled
    exact hprofiled

end

/-! ## Runs -/

/-- From any maps, every packet of a limited client is shaped, however the calls of the commands
    and the packets interleave, exactly if every packet that the calls have opened a session and a
    counter for falls outside the windows without a profile. -/
theorem limited_is_shaped_iff (s : HgMaps ncpu) (limited : HgMacKey → Bool)
    (es : List (CommandEvent ncpu)) :
    Always InstallHost.step LimitedIsShaped (.init s limited) es ↔
      Always InstallHost.step OutsideWindows (.init s limited) es := by
  have hstep : ∀ (st : InstallHost ncpu) e, st.Agrees → (st.step e).Agrees := fun st e h => h.step e
  exact always_congr_of_inv hstep (fun st e h => limitedIsShaped_iff h e)
    (InstallHost.agrees_init s limited) es

/-- The add of a client with 8 Mbit/s in both directions. -/
def limitedAdd : Command :=
  .add [.iface "br0".toList, .mac "02:00:00:00:00:01".toList, .client "192.168.99.82".toList,
    .downloadRate "8000".toList, .uploadRate "8000".toList]

/-- A packet of that client. -/
def limitedUpload : CommandEvent 1 :=
  .ingress (.good ⟨0, Nat.one_pos⟩ 0)
    ⟨tcpFrame (localMac 1) (addrOfOctets 192 168 99 82) (addrOfOctets 93 184 216 34) 40000 443, 54⟩

/-- A host with nothing but empty maps. -/
def InstallHost.start : InstallHost 1 := .init (.start 1 .standard 0) fun _ => false

/-- A client whose add has made all its writes is shaped. -/
theorem limited_is_shaped_after_add :
    Always InstallHost.step LimitedIsShaped .start
      (.start limitedAdd :: List.replicate 8 (.call 0 (.good ⟨0, 0⟩)) ++ [limitedUpload]) := by
  refine (limited_is_shaped_iff _ _ _).mpr ⟨?_, ?_, ?_, ?_, ?_, ?_, ?_, ?_, ?_, ?_, trivial⟩
  case refine_10 =>
    rintro m auth ⟨-, rfl, hauth, -, -⟩ -
    obtain rfl := Option.some.inj (hauth.symm.trans
      (show _ = some (⟨0, 0, 0, 82, 0, 0⟩ : HgClient) by decide +kernel))
    decide +kernel
  all_goals exact fun _ _ h => h.elim

/-- The eighth call of the add writes the profile. A packet before it passes unshaped. -/
theorem limited_unshaped_before_profile :
    ¬ Always InstallHost.step LimitedIsShaped .start
      (.start limitedAdd :: List.replicate 7 (.call 0 (.good ⟨0, 0⟩)) ++ [limitedUpload]) := by
  intro h
  have hpacket := (always_iff_forall InstallHost.step LimitedIsShaped _ _).mp h
    (.start limitedAdd :: List.replicate 7 (.call 0 (.good ⟨0, 0⟩))) limitedUpload [] rfl
  have hshaped := hpacket (localMac 1) ⟨0, 0, 0, 82, 0, 0⟩
    ⟨⟨⟨⟨6, 40000, 443⟩, by decide +kernel⟩, by decide +kernel, by decide +kernel⟩,
      by decide +kernel, by decide +kernel, by decide +kernel, by decide +kernel⟩ (by decide +kernel)
  revert hshaped
  decide +kernel

end HawkGate
