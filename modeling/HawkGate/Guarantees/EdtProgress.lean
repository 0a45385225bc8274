-- SUMMARY: Whether the departure stamps of a session ever move back, over runs of packets, commands and logins.
import HawkGate.Guarantees.ConfiguredLimits
import HawkGate.Lib.Pacing
import HawkGate.System.Host

/-!
# EDT progress

The departure stamps of a client are what it has been charged. A packet moves
the stamp of its direction forward, unless the departure time leaves 64 bits.
An add writes the whole entry with both stamps at the current time: for a
client that has a session, this takes back every charge that lies ahead.
-/

namespace HawkGate

open Bytes CString StdString HawkGate.Frame Transition

variable {ncpu : Nat}

/-! ## Events and the guarantee -/

/-- A host event, or a login at the portal. -/
inductive EdtEvent (ncpu : Nat) where
  | host (e : HostEvent ncpu)
  | login (env : DaemonEnv) (cfg : HgConfig) (provider : AuthProvider) (req : HttpRequest)
    (clientIp : List Char) (clientPort : UInt16)

def HgMaps.edtStep (s : HgMaps ncpu) : EdtEvent ncpu → HgMaps ncpu
  | .host e => s.step e
  | .login env cfg provider req clientIp clientPort =>
    ((handleAuth cfg provider req clientIp clientPort).run env s).2

/-- Neither stamp of a client that keeps its entry moves back. -/
def StampsKept (m : HgMacKey) (s : HgMaps ncpu) (e : EdtEvent ncpu) : Prop :=
  ∀ cs cs', s.clients.lookup m = some cs → (s.edtStep e).clients.lookup m = some cs' →
    cs.lastUTstamp ≤ cs'.lastUTstamp ∧ cs.lastDTstamp ≤ cs'.lastDTstamp

/-! ## The condition -/

/-- The exact departure time of a shaped packet fits 64 bits, or is past them by the last stamp,
    or lies too far ahead for an upload. -/
def EdtAdvances (rates : BoundedMap UInt32 HgRateCfg 256) (now : UInt64) (len : UInt32)
    (cs : HgClient) (up : Bool) : Prop :=
  ∀ cfg, rates.lookup cs.rateLimitId = some cfg → cfg.rate up ≠ 0 →
    let last := (cs.lastTstamp up).toNat
    let depart := Pacing.next last now.toNat (edtDelay len (cfg.rate up)).toNat
    depart < 2 ^ 64 ∨ last + 2 ^ 64 ≤ depart ∨
      (up = true ∧ cfg.horizonNs.toNat < (depart - now.toNat) % 2 ^ 64)

/-- Ingress shapes the packet with the live session `cs` of its sender `m`. -/
def ShapesUpload (env : BpfEnv ncpu) (s : HgMaps ncpu) (skb : SkBuff) (m : HgMacKey)
    (cs : HgClient) : Prop :=
  ((∃ key, filterProto skb.data = .l3Ok key) ∧ s.bypass.lookup (saddr skb.data) = none ∧
      s.toPortal skb.data = none) ∧
    hSource skb.data = m ∧ s.clients.lookup m = some cs ∧ ¬ cs.Expired env.ktimeNs

/-- Egress shapes the packet with the session `cs` of the client `m` bound to its destination. -/
def ShapesDownload (s : HgMaps ncpu) (skb : SkBuff) (m : HgMacKey) (cs : HgClient) : Prop :=
  ReachesEgressSession s skb.data ∧ s.sessionOf (daddr skb.data) = some (m, cs)

/-- If the add installs `m`, no stamp of an entry that `m` already has is ahead of its clock. -/
def AddKeepsCharge (m : HgMacKey) (s : HgMaps ncpu) (env : SysEnv) (opts : List AddOpt) : Prop :=
  ∀ ip client rate rateOk, addEffect env s opts = .installed m ip client rate rateOk →
    ∀ cs, s.clients.lookup m = some cs →
      cs.lastUTstamp ≤ (env.clock .monotonic).toNs ∧ cs.lastDTstamp ≤ (env.clock .monotonic).toNs

/-- The options of the add that a login runs. -/
def loginAddOpts (cfg : HgConfig) (provider : AuthProvider) (req : HttpRequest)
    (clientIp : List Char) (clientPort : UInt16) : List AddOpt :=
  ((provider (loginCredentials req clientIp)).clientAuth cfg clientIp clientPort).addOpts cfg

/-- The login is granted, names an address and can start `hgctl`. -/
def LoginAdds (env : DaemonEnv) (cfg : HgConfig) (provider : AuthProvider) (req : HttpRequest)
    (clientIp : List Char) (clientPort : UInt16) : Prop :=
  (provider (loginCredentials req clientIp)).success = true ∧
    (inetPton (cStr clientIp)).isSome = true ∧
      env.fork (.add (loginAddOpts cfg provider req clientIp clientPort)) = true

/-- A packet of the client does not wrap its stamp, and an add of the client finds no charge
    ahead of its clock. -/
def EdtSafe (m : HgMacKey) (s : HgMaps ncpu) : EdtEvent ncpu → Prop
  | .host (.ingress env skb) =>
    ∀ cs, ShapesUpload env s skb m cs → EdtAdvances s.rates env.edtKtimeNs skb.len cs true
  | .host (.egress env skb) =>
    ∀ cs, ShapesDownload s skb m cs → EdtAdvances s.rates env.edtKtimeNs skb.len cs false
  | .host (.add env opts) => AddKeepsCharge m s env opts
  | .host (.del _ _) | .host (.mapDel _ _) => True
  | .login env cfg provider req clientIp clientPort =>
    LoginAdds env cfg provider req clientIp clientPort →
      AddKeepsCharge m s
        (env.sys (.add (loginAddOpts cfg provider req clientIp clientPort)))
        (loginAddOpts cfg provider req clientIp clientPort)

/-! ## One packet -/

/-- The computed departure time is the exact one modulo 64 bits. -/
theorem toNat_edtNext_mod (now last delay : UInt64) :
    (edtNext now last delay).toNat =
      Pacing.next last.toNat now.toNat delay.toNat % 2 ^ 64 := by
  have hlt : last < now ↔ last.toNat < now.toNat := UInt64.lt_iff_toNat_lt
  rw [edtNext, Pacing.next]
  split
  · next h =>
    rw [UInt64.toNat_add, max_eq_left (hlt.mp h).le]
  · next h =>
    rw [UInt64.toNat_add, max_eq_right (not_lt.mp fun h' => h (hlt.mpr h'))]

/-- The lead that the horizon check looks at is the exact one modulo 64 bits. -/
theorem toNat_edtNext_sub (now last delay : UInt64) :
    (edtNext now last delay - now).toNat =
      (Pacing.next last.toNat now.toNat delay.toNat - now.toNat) % 2 ^ 64 := by
  have hnow := now.toNat_lt
  have hle : now.toNat ≤ Pacing.next last.toNat now.toNat delay.toNat :=
    Pacing.now_le_next (Nat.zero_le _)
  rw [UInt64.toNat_sub, toNat_edtNext_mod]
  omega

/-- The computed departure time is not before the last stamp exactly if it does not wrap, or
    wraps past it. -/
theorem last_le_edtNext_iff (now last delay : UInt64) :
    last ≤ edtNext now last delay ↔
      Pacing.next last.toNat now.toNat delay.toNat < 2 ^ 64 ∨
        last.toNat + 2 ^ 64 ≤ Pacing.next last.toNat now.toNat delay.toNat := by
  have hlast := last.toNat_lt
  have hnow := now.toNat_lt
  have hdelay := delay.toNat_lt
  have hge := Pacing.last_add_le_next last.toNat now.toNat delay.toNat
  have hlt : Pacing.next last.toNat now.toNat delay.toNat < 2 ^ 64 + 2 ^ 64 := by
    rw [Pacing.next]
    omega
  rw [UInt64.le_iff_toNat_le, toNat_edtNext_mod]
  constructor
  · intro hle
    by_cases hfit : Pacing.next last.toNat now.toNat delay.toNat < 2 ^ 64
    · exact .inl hfit
    · exact .inr (by omega)
  · rintro (hfit | hpast)
    · omega
    · omega

section
variable (rates : BoundedMap UInt32 HgRateCfg 256) (now : UInt64) (len : UInt32) (cs : HgClient)
  (up : Bool)

@[simp] theorem HgClient.setTstamp_lastTstamp (t : UInt64) :
    (cs.setTstamp up t).lastTstamp up = t := by
  cases up <;> rfl

@[simp] theorem HgClient.setTstamp_lastDTstamp (t : UInt64) :
    (cs.setTstamp false t).lastDTstamp = t := rfl

@[simp] theorem HgClient.setTstamp_lastTstamp_not (t : UInt64) :
    (cs.setTstamp up t).lastTstamp (!up) = cs.lastTstamp (!up) := by
  cases up <;> rfl

/-- Shaping leaves the other direction's stamp alone. -/
theorem applyEdtShaping_lastTstamp_not :
    (applyEdtShaping rates now len cs up).client.lastTstamp (!up) = cs.lastTstamp (!up) := by
  rcases applyEdtShaping_client rates now len cs up with h | ⟨t, h⟩
  · rw [h]
  · rw [h, HgClient.setTstamp_lastTstamp_not]

/-- Shaping moves its stamp forward exactly under the condition. -/
theorem lastTstamp_le_applyEdtShaping_iff :
    cs.lastTstamp up ≤ (applyEdtShaping rates now len cs up).client.lastTstamp up ↔
      EdtAdvances rates now len cs up := by
  unfold EdtAdvances applyEdtShaping
  cases rates.lookup cs.rateLimitId with
  | none => simp
  | some cfg =>
    dsimp only
    by_cases hr : cfg.rate up = 0
    · rw [if_pos hr]
      refine iff_of_true (UInt64.le_refl _) ?_
      intro cfg' hcfg'
      obtain rfl := Option.some.inj hcfg'
      exact fun hne => absurd hr hne
    · rw [if_neg hr]
      have hdrop := toNat_edtNext_sub now (cs.lastTstamp up) (edtDelay len (cfg.rate up))
      have hfwd := last_le_edtNext_iff now (cs.lastTstamp up) (edtDelay len (cfg.rate up))
      simp only [Option.some.injEq, forall_eq', ne_eq, hr, not_false_eq_true, true_implies]
      rw [← hdrop]
      split
      · next h =>
        obtain ⟨hup, hfar⟩ := h
        exact iff_of_true (UInt64.le_refl _) (.inr (.inr ⟨hup, UInt64.lt_iff_toNat_lt.mp hfar⟩))
      · next h =>
        rw [HgClient.setTstamp_lastTstamp, hfwd]
        constructor
        · rintro (hfit | hpast)
          · exact .inl hfit
          · exact .inr (.inl hpast)
        · rintro (hfit | hpast | ⟨hup, hfar⟩)
          · exact .inl hfit
          · exact .inr hpast
          · exact absurd ⟨hup, UInt64.lt_iff_toNat_lt.mpr hfar⟩ h

/-- Both stamps are kept exactly if the packet's own is. -/
theorem stamps_le_applyEdtShaping_iff :
    (cs.lastUTstamp ≤ (applyEdtShaping rates now len cs up).client.lastUTstamp ∧
        cs.lastDTstamp ≤ (applyEdtShaping rates now len cs up).client.lastDTstamp) ↔
      EdtAdvances rates now len cs up := by
  have hown := lastTstamp_le_applyEdtShaping_iff rates now len cs up
  have hother := applyEdtShaping_lastTstamp_not rates now len cs up
  rw [← hown]
  cases up with
  | true =>
    refine and_iff_left ?_
    rw [show (applyEdtShaping rates now len cs true).client.lastDTstamp = cs.lastDTstamp from hother]
    exact UInt64.le_refl _
  | false =>
    refine and_iff_right ?_
    rw [show (applyEdtShaping rates now len cs false).client.lastUTstamp = cs.lastUTstamp from hother]
    exact UInt64.le_refl _

end

/-! ## One step -/

/-- The entries that a write-back leaves. -/
theorem HgMaps.lookup_clients_writeClient (s : HgMaps ncpu) (m k : HgMacKey) (cs : HgClient) :
    (s.writeClient m cs).clients.lookup k =
      if k = m then (s.clients.lookup m).map fun _ => cs else s.clients.lookup k := by
  rw [HgMaps.writeClient, BoundedMap.lookup_modify]

@[simp] theorem HgMaps.modifyCounter_clients (s : HgMaps ncpu) (cpu : Fin ncpu) (ip : IpAddr)
    (f : HgCounter → HgCounter) : (s.modifyCounter cpu ip f).clients = s.clients := rfl

section
variable {env : BpfEnv ncpu} {s : HgMaps ncpu} {skb : SkBuff} {m : HgMacKey}

theorem clients_ingressSession {ip : IpAddr} {cs : HgClient} (hlive : ¬ cs.Expired env.ktimeNs) :
    (ingressSession env s skb m ip cs).maps.clients =
      (s.writeClient m (applyEdtShaping s.rates env.edtKtimeNs skb.len cs true).client).clients := by
  rw [ingressSession, if_neg hlive]
  dsimp only
  split
  · rfl
  · split
    · rfl
    · rfl

theorem clients_egressSession {ip : IpAddr} {cs : HgClient} :
    (egressSession env s skb m ip cs).maps.clients =
      (s.writeClient m (applyEdtShaping s.rates env.edtKtimeNs skb.len cs false).client).clients := by
  rw [egressSession]
  split
  · rfl
  · split
    · rfl
    · rfl

/-- The entry of the sender after ingress has shaped its packet. -/
theorem lookup_clients_of_shapesUpload {cs : HgClient} (h : ShapesUpload env s skb m cs) :
    (hgTcIngress env s skb).maps.clients.lookup m =
      some (applyEdtShaping s.rates env.edtKtimeNs skb.len cs true).client := by
  obtain ⟨⟨⟨key, hkey⟩, hsrc, hdst⟩, rfl, hcs, hlive⟩ := h
  rw [hgTcIngress_session hkey hsrc hdst hcs, clients_ingressSession hlive,
    HgMaps.lookup_clients_writeClient, if_pos rfl, HgMaps.bindClient_clients, hcs,
    HgMaps.bindClient_rates]
  rfl

/-- Ingress keeps or deletes the entry of a client whose packet it does not shape. -/
theorem lookup_clients_ingress_of_not_shapes (h : ∀ cs, ¬ ShapesUpload env s skb m cs) :
    (hgTcIngress env s skb).maps.clients.lookup m = s.clients.lookup m ∨
      (hgTcIngress env s skb).maps.clients.lookup m = none := by
  have hstep := hgTcIngress_step env s skb
  generalize hgTcIngress env s skb = r at hstep ⊢
  cases hstep with
  | early v hbind => exact .inl rfl
  | noSession key _ hkey hsrc hstamp hmaps =>
    rcases hmaps with h | ⟨k, v, h⟩
    · exact .inl (by rw [h, HgMaps.bindFrame_clients])
    · rw [h, HgMaps.trackFlow_frame]
      exact .inl (by rw [HgMaps.bindFrame_clients])
  | session key auth hkey hsrc hdst hauth =>
    by_cases hexp : auth.Expired env.ktimeNs
    · rw [ingressSession, if_pos hexp]
      simp only [TcResult.done, HgMaps.expireClient, HgMaps.modifyCounter_clients]
      cases env.deleteClient with
      | false => exact .inl (by simp)
      | true =>
        simp only [if_true, BoundedMap.lookup_erase, HgMaps.bindFrame_clients]
        split
        · exact .inr rfl
        · exact .inl rfl
    · rw [clients_ingressSession hexp, HgMaps.lookup_clients_writeClient, HgMaps.bindFrame_clients]
      by_cases hm : m = hSource skb.data
      · subst hm
        exact absurd ⟨⟨⟨key, hkey⟩, hsrc, hdst⟩, rfl, hauth, hexp⟩ (h auth)
      · exact .inl (if_neg hm)

theorem lookup_clients_of_sessionOf {ip : IpAddr} {cs : HgClient}
    (h : s.sessionOf ip = some (m, cs)) : s.clients.lookup m = some cs := by
  obtain ⟨m', -, hm⟩ := Option.bind_eq_some_iff.mp h
  obtain ⟨cs', hcs, heq⟩ := Option.map_eq_some_iff.mp hm
  obtain ⟨rfl, rfl⟩ := Prod.mk.inj heq
  exact hcs

/-- The entry of the bound client after egress has shaped a packet for it. -/
theorem lookup_clients_of_shapesDownload {cs : HgClient} (h : ShapesDownload s skb m cs) :
    (hgTcEgress env s skb).maps.clients.lookup m =
      some (applyEdtShaping s.rates env.edtKtimeNs skb.len cs false).client := by
  obtain ⟨⟨⟨key, hkey⟩, hsrc, hdst⟩, hof⟩ := h
  obtain ⟨m', hbound, hm⟩ := Option.bind_eq_some_iff.mp hof
  obtain ⟨cs', hcs, heq⟩ := Option.map_eq_some_iff.mp hm
  obtain ⟨rfl, rfl⟩ := Prod.mk.inj heq
  rw [hgTcEgress_session hkey hsrc hdst hbound hcs, clients_egressSession,
    HgMaps.lookup_clients_writeClient, if_pos rfl, hcs]
  rfl

theorem lookup_clients_egress_of_not_shapes (h : ∀ cs, ¬ ShapesDownload s skb m cs) :
    (hgTcEgress env s skb).maps.clients.lookup m = s.clients.lookup m := by
  have hstep := hgTcEgress_step env s skb
  generalize hgTcEgress env s skb = r at hstep ⊢
  cases hstep with
  | noSession _ hstamp hmaps => rw [hmaps]
  | session key k auth hkey hsrc hdst hbound hauth =>
    rw [clients_egressSession, HgMaps.lookup_clients_writeClient]
    by_cases hm : m = k
    · subst hm
      have hof : s.sessionOf (daddr skb.data) = some (m, auth) := by
        simp [HgMaps.sessionOf, hbound, hauth]
      exact absurd ⟨⟨⟨key, hkey⟩, hsrc, hdst⟩, hof⟩ (h auth)
    · exact if_neg hm

end

section
variable {m : HgMacKey} {s : HgMaps ncpu} {e : EdtEvent ncpu}

/-- A step that keeps or deletes the entry moves no stamp back. -/
theorem stampsKept_of_keep (h : (s.edtStep e).clients.lookup m = s.clients.lookup m ∨
    (s.edtStep e).clients.lookup m = none) : StampsKept m s e := by
  intro cs cs' hcs hcs'
  rcases h with h | h
  · rw [hcs', hcs] at h
    obtain rfl := Option.some.inj h
    exact ⟨UInt64.le_refl _, UInt64.le_refl _⟩
  · rw [h] at hcs'
    cases hcs'

/-- A step that shapes a packet of the client moves no stamp back exactly if the packet's
    stamp advances. -/
theorem stampsKept_of_shaped {now : UInt64} {len : UInt32} {cs : HgClient} {up : Bool}
    (hcs : s.clients.lookup m = some cs)
    (h : (s.edtStep e).clients.lookup m = some (applyEdtShaping s.rates now len cs up).client) :
    StampsKept m s e ↔ EdtAdvances s.rates now len cs up := by
  rw [← stamps_le_applyEdtShaping_iff]
  constructor
  · intro hkept
    exact hkept _ _ hcs h
  · intro hle cs₁ cs₂ h₁ h₂
    rw [hcs] at h₁
    rw [h] at h₂
    obtain rfl := Option.some.inj h₁
    obtain rfl := Option.some.inj h₂
    exact hle

theorem stampsKept_ingress_iff (env : BpfEnv ncpu) (skb : SkBuff) :
    StampsKept m s (.host (.ingress env skb)) ↔
      ∀ cs, ShapesUpload env s skb m cs → EdtAdvances s.rates env.edtKtimeNs skb.len cs true := by
  by_cases hshape : ∃ cs, ShapesUpload env s skb m cs
  · obtain ⟨cs, hshape⟩ := hshape
    have hcs := hshape.2.2.1
    have hiff : StampsKept m s (.host (.ingress env skb)) ↔
        EdtAdvances s.rates env.edtKtimeNs skb.len cs true :=
      stampsKept_of_shaped hcs (lookup_clients_of_shapesUpload hshape)
    rw [hiff]
    constructor
    · intro h cs' hshape'
      obtain rfl := Option.some.inj (hcs.symm.trans hshape'.2.2.1)
      exact h
    · exact fun h => h cs hshape
  · have hnone : ∀ cs, ¬ ShapesUpload env s skb m cs := fun cs h => hshape ⟨cs, h⟩
    exact iff_of_true (stampsKept_of_keep (lookup_clients_ingress_of_not_shapes hnone))
      fun cs h => absurd h (hnone cs)

theorem stampsKept_egress_iff (env : BpfEnv ncpu) (skb : SkBuff) :
    StampsKept m s (.host (.egress env skb)) ↔
      ∀ cs, ShapesDownload s skb m cs → EdtAdvances s.rates env.edtKtimeNs skb.len cs false := by
  by_cases hshape : ∃ cs, ShapesDownload s skb m cs
  · obtain ⟨cs, hshape⟩ := hshape
    have hcs := lookup_clients_of_sessionOf hshape.2
    have hiff : StampsKept m s (.host (.egress env skb)) ↔
        EdtAdvances s.rates env.edtKtimeNs skb.len cs false :=
      stampsKept_of_shaped hcs (lookup_clients_of_shapesDownload hshape)
    rw [hiff]
    constructor
    · intro h cs'' hshape'
      obtain ⟨-, rfl⟩ := Prod.mk.inj (Option.some.inj (hshape.2.symm.trans hshape'.2))
      exact h
    · exact fun h => h _ hshape
  · have hnone : ∀ cs, ¬ ShapesDownload s skb m cs := fun cs h => hshape ⟨cs, h⟩
    exact iff_of_true (stampsKept_of_keep (.inl (lookup_clients_egress_of_not_shapes hnone)))
      fun cs h => absurd h (hnone cs)

/-- A step with the sessions of an add moves no stamp back exactly if the add takes back no
    charge. -/
theorem stampsKept_add_iff {env : SysEnv} {opts : List AddOpt}
    (h : (s.edtStep e).clients = (s.afterAdd (addEffect env s opts)).clients) :
    StampsKept m s e ↔ AddKeepsCharge m s env opts := by
  unfold AddKeepsCharge
  cases heff : addEffect env s opts with
  | refused =>
    rw [heff] at h
    exact iff_of_true (stampsKept_of_keep (.inl (by rw [h]; rfl))) (by simp)
  | rolledBack k =>
    refine iff_of_true (stampsKept_of_keep ?_) (by simp)
    rw [h, heff, HgMaps.afterAdd, BoundedMap.lookup_erase]
    split
    · exact .inr rfl
    · exact .inl rfl
  | installed k ip client rate rateOk =>
    have hlookup : (s.edtStep e).clients.lookup m =
        if m = k then some client else s.clients.lookup m := by
      rw [h, heff, lookup_clients_install heff]
    obtain ⟨a, -, -, rfl, -⟩ := addEffect_installed heff
    by_cases hm : m = k
    · subst hm
      rw [if_pos rfl] at hlookup
      constructor
      · intro hkept _ _ _ _ _ cs hcs
        exact hkept cs _ hcs hlookup
      · intro hcharge cs cs' hcs hcs'
        rw [hlookup] at hcs'
        obtain rfl := Option.some.inj hcs'
        exact hcharge ip _ rate rateOk rfl cs hcs
    · refine iff_of_true (stampsKept_of_keep (.inl (by rw [hlookup, if_neg hm]))) ?_
      intro ip' client' rate' rateOk' heq
      exact absurd (AddEffect.installed.inj heq).1.symm hm

theorem stampsKept_del (env : SysEnv) (opts : List DelOpt) :
    StampsKept m s (.host (.del env opts)) := by
  refine stampsKept_of_keep ?_
  rw [HgMaps.edtStep, HgMaps.step_del]
  cases delVictim s env opts with
  | none => exact .inl rfl
  | some k =>
    rw [Option.elim_some, HgMaps.afterDel, BoundedMap.lookup_erase]
    split
    · exact .inr rfl
    · exact .inl rfl

theorem stampsKept_mapDel (env : SysEnv) (opts : List MapDelOpt) :
    StampsKept m s (.host (.mapDel env opts)) := by
  refine stampsKept_of_keep ?_
  rw [HgMaps.edtStep, HgMaps.step_mapDel]
  cases mapDelVictim env opts with
  | none => exact .inl rfl
  | some k =>
    rw [Option.elim_some, BoundedMap.lookup_erase]
    split
    · exact .inr rfl
    · exact .inl rfl

end

/-! ## Logins -/

section
variable (env : DaemonEnv) (cfg : HgConfig) (provider : AuthProvider) (req : HttpRequest)
  (clientIp : List Char) (clientPort : UInt16) (s : HgMaps ncpu)

/-- A login that runs its add leaves the sessions of the add. -/
theorem clients_login_adds (h : LoginAdds env cfg provider req clientIp clientPort) :
    (s.edtStep (.login env cfg provider req clientIp clientPort)).clients =
      (s.afterAdd (addEffect
        (env.sys (.add (loginAddOpts cfg provider req clientIp clientPort))) s
        (loginAddOpts cfg provider req clientIp clientPort))).clients := by
  obtain ⟨hok, hip, hfork⟩ := h
  have hvalid : (inetPton (cStr clientIp)).isNone = false := by
    rw [Option.isNone_eq_false_iff, hip]
  have hauth :
      ((authenticate cfg ((provider (loginCredentials req clientIp)).clientAuth cfg clientIp
        clientPort)).run env s).2 =
        s.afterAdd (addEffect
          (env.sys (.add (loginAddOpts cfg provider req clientIp clientPort))) s
          (loginAddOpts cfg provider req clientIp clientPort)) := by
    rw [authenticate, AuthResult.clientAuth, hvalid]
    unfold loginAddOpts AuthResult.clientAuth at hfork ⊢
    simp only [Bool.false_eq_true, if_false, execCmd, Daemon.run_perform, DaemonOp.exec, hfork,
      if_true, Hgctl.tool, run_hgctlAdd]
  rw [HgMaps.edtStep, handleAuth]
  simp only [hok, if_true, Daemon.run_bind, hauth]
  split
  · simp only [Daemon.run_bind, Daemon.run_pure]
    exact (run_mapEleDel_conntrack _ env _).1
  · rfl

/-- A login that runs no add leaves the sessions as they are. -/
theorem clients_login_keeps (h : ¬ LoginAdds env cfg provider req clientIp clientPort) :
    (s.edtStep (.login env cfg provider req clientIp clientPort)).clients = s.clients := by
  rw [HgMaps.edtStep, handleAuth]
  by_cases hok : (provider (loginCredentials req clientIp)).success = true
  · have hauth : (authenticate cfg ((provider (loginCredentials req clientIp)).clientAuth cfg
        clientIp clientPort)).run env s = (false, s) := by
      rw [authenticate]
      split
      · rfl
      · next hvalid =>
        have hip : (inetPton (cStr clientIp)).isSome = true := by
          simpa [AuthResult.clientAuth, Option.isSome_iff_ne_none] using hvalid
        have hfork : env.fork (.add (loginAddOpts cfg provider req clientIp clientPort)) = false :=
          Bool.eq_false_iff.mpr fun hfork => h ⟨hok, hip, hfork⟩
        unfold loginAddOpts at hfork
        simp only [execCmd, Daemon.run_perform, DaemonOp.exec, hfork, Bool.false_eq_true, if_false]
    simp only [hok, if_true, Daemon.run_bind, hauth, Bool.false_eq_true, if_false, Daemon.run_pure]
  · simp only [hok, if_false, Daemon.run_pure, Bool.false_eq_true]

end

/-! ## Runs -/

theorem stampsKept_iff_edtSafe (m : HgMacKey) (s : HgMaps ncpu) (e : EdtEvent ncpu) :
    StampsKept m s e ↔ EdtSafe m s e := by
  cases e with
  | host e =>
    cases e with
    | ingress env skb => exact stampsKept_ingress_iff env skb
    | egress env skb => exact stampsKept_egress_iff env skb
    | add env opts => exact stampsKept_add_iff (by rw [HgMaps.edtStep, HgMaps.step_add])
    | del env opts => exact iff_of_true (stampsKept_del env opts) trivial
    | mapDel env opts => exact iff_of_true (stampsKept_mapDel env opts) trivial
  | login env cfg provider req clientIp clientPort =>
    by_cases hadd : LoginAdds env cfg provider req clientIp clientPort
    · rw [stampsKept_add_iff (clients_login_adds env cfg provider req clientIp clientPort s hadd)]
      exact ⟨fun h _ => h, fun h => h hadd⟩
    · have hkeep := clients_login_keeps env cfg provider req clientIp clientPort s hadd
      exact iff_of_true (stampsKept_of_keep (.inl (by rw [hkeep]))) fun h => absurd h hadd

/-- Over any run, the stamps of a client that keeps its entry never move back exactly if no stamp
    of a shaped packet wraps and no add of the client finds a charge ahead of its clock. -/
theorem stamps_kept_iff (m : HgMacKey) (s : HgMaps ncpu) (es : List (EdtEvent ncpu)) :
    Always HgMaps.edtStep (StampsKept m) s es ↔ Always HgMaps.edtStep (EdtSafe m) s es :=
  always_iff (stampsKept_iff_edtSafe m) s es

/-- A client with a download limit of 64 kbit/s is added again 1 ms after a download that charged
    it 187.5 ms: the charge is gone. -/
theorem stamps_reset_by_second_add :
    let client := addrOfOctets 192 168 99 82
    let peer := addrOfOctets 93 184 216 34
    let add := [AddOpt.iface "br0".toList, .mac "02:00:00:00:00:01".toList,
      .downloadRate "64".toList, .uploadRate "64".toList]
    ¬ Always HgMaps.edtStep (StampsKept (localMac 1)) (.start 1 .standard 0)
      [.host (.ingress (.good 0 1) ⟨tcpFrame (localMac 1) client peer 40000 443, 54⟩),
        .host (.add (.good ⟨1, 0⟩) add),
        .host (.egress (.good 0 1000000000) ⟨tcpFrame (localMac 9) peer client 443 40000, 1500⟩),
        .host (.add (.good ⟨1, 1000000⟩) add)] := by
  intro client peer add h
  have hkept := h.2.2.2.1 ⟨0, 0, 1000000000, 1, 1000000000, 1187500000⟩
    ⟨0, 0, 1001000000, 1, 1001000000, 1001000000⟩ (by decide +kernel) (by decide +kernel)
  exact absurd hkept.2 (by decide)

end HawkGate
