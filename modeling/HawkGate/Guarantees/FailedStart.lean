-- SUMMARY: Which failed starts leave the devices and the pinned maps as they were.
import HawkGate.Guarantees.StartCleanup

/-!
# Failed starts

The start goes from one step to the next, each time into the state that is
written down for it, until a step fails. What the clean-up makes of that state
decides whether anything was lost.
-/

namespace HawkGate

open CString

section
variable (env : StartEnv) {s s' : NetState} {iface portalIp : CString} {portalPort : UInt16}
variable {step : StartStep}

/-! ## One step -/

theorem onDevice_of_none {i : UInt32} (hi : s.devices i = none) (call : StartCall)
    (f : NetDevice → NetDevice) : env.onDevice call i f s = (false, s) := by
  simp [StartEnv.onDevice, hi]

/-- No device goes before the clean-up. -/
theorem At.devices_ne_none (h : At env s s' iface step) {i : UInt32} (hi : s.devices i ≠ none) :
    s'.devices i ≠ none := by
  rw [h.devices, Ne, Option.map_eq_none_iff, StartEnv.present]
  split
  · exact hi
  · split
    · exact Option.some_ne_none _
    · exact hi

/-- A call on one device leads to the next step, if it changes the device as that step says. -/
theorem At.modify {next : StartStep} (h : At env s s' iface step) {i : UInt32}
    {f : NetDevice → NetDevice}
    (hdevice : ∀ j d, env.changed s iface next j d =
      if j = i then f (env.changed s iface step j d) else env.changed s iface step j d)
    (hloaded : .hookCreate ≤ next)
    (hhook : next ≤ .hookCreate ∨ s.devices (env.hookIndex s iface) ≠ none)
    (hbridge : next ≤ .setTxqueuelen ∨ env.target s iface ≠ 0)
    (hifb : next ≤ .replaceIfbRoot ∨ env.ifbIndex s ≠ 0)
    (hindex : env.ifindexAt s next = env.ifindexAt s step)
    (hpresent : ∀ j, env.present s next j = env.present s step j)
    (hpins : env.pinsAt s next = env.pinsAt s step) : At env s (s'.modify i f) iface next := by
  refine ⟨h.named, hloaded, hhook, hbridge, hifb, ?_, fun j => ?_, ?_⟩
  · rw [hindex, ← h.ifindex]
    rfl
  · rw [hpresent]
    dsimp only [NetState.modify]
    rw [h.devices]
    cases env.present s step j with
    | none => simp
    | some d =>
      simp only [Option.map_some, hdevice]
      split
      · rfl
      · rfl
  · rw [hpins, ← h.pins]
    rfl

theorem at_attachIngress (h : At env s s' iface .hookCreate)
    (hhook : s.devices (env.hookIndex s iface) ≠ none) :
    At env s (s'.modify (env.hookIndex s iface)
      fun d => { d with clsact := some (d.clsact.getD ⟨[], []⟩) }) iface .attachIngress := by
  refine h.modify env (fun j d => ?_) (by decide) (.inr hhook) (.inl (by decide))
    (.inl (by decide)) rfl (fun _ => rfl) rfl
  by_cases hj : j = env.hookIndex s iface
  · simp +decide [StartEnv.changed, StartEnv.hooksAt, hj]
  · simp +decide [StartEnv.changed, hj]

theorem at_attachEgress (h : At env s s' iface .attachIngress) :
    At env s (s'.modify (env.hookIndex s iface) fun d => { d with
      clsact := d.clsact.map fun h => { h with ingress := h.ingress ++ [env.ingressProg] } })
      iface .attachEgress := by
  refine h.modify env (fun j d => ?_) (by decide) (.inr (h.hook.resolve_left (by decide)))
    (.inl (by decide)) (.inl (by decide)) rfl (fun _ => rfl) rfl
  by_cases hj : j = env.hookIndex s iface
  · simp +decide [StartEnv.changed, StartEnv.hooksAt, hj]
  · simp +decide [StartEnv.changed, hj]

theorem at_setTxqueuelen (h : At env s s' iface .attachEgress) :
    At env s (s'.modify (env.hookIndex s iface) fun d => { d with
      clsact := d.clsact.map fun h => { h with egress := h.egress ++ [env.egressProg] } })
      iface .setTxqueuelen := by
  refine h.modify env (fun j d => ?_) (by decide) (.inr (h.hook.resolve_left (by decide)))
    (.inl (by decide)) (.inl (by decide)) rfl (fun _ => rfl) rfl
  by_cases hj : j = env.hookIndex s iface
  · simp +decide [StartEnv.changed, StartEnv.hooksAt, hj]
  · simp +decide [StartEnv.changed, hj]

theorem at_replaceRoot (h : At env s s' iface .setTxqueuelen) (hiface : env.target s iface ≠ 0) :
    At env s (s'.modify (env.target s iface) fun d => { d with txqueuelen := 1000 })
      iface .replaceRoot := by
  refine h.modify env (fun j d => ?_) (by decide) (.inr (h.hook.resolve_left (by decide)))
    (.inr hiface) (.inl (by decide)) rfl (fun _ => rfl) rfl
  by_cases hj : j = env.target s iface
  · simp +decide [StartEnv.changed, StartEnv.hooksAt, hj]
  · simp +decide [StartEnv.changed, StartEnv.hooksAt, hj]

theorem at_addIfb (h : At env s s' iface .replaceRoot) :
    At env s (s'.modify (env.target s iface) fun d => { d with root := some .fq })
      iface .addIfb := by
  refine h.modify env (fun j d => ?_) (by decide) (.inr (h.hook.resolve_left (by decide)))
    (.inr (h.bridge.resolve_left (by decide))) (.inl (by decide)) rfl (fun _ => rfl) rfl
  by_cases hj : j = env.target s iface
  · simp +decide [StartEnv.changed, StartEnv.hooksAt, hj]
  · simp +decide [StartEnv.changed, StartEnv.hooksAt, hj]

/-- The device for uploads is there from here on, or cannot be. -/
theorem at_upIfb (h : At env s s' iface .addIfb) :
    At env s (env.exec s' .addIfb).2 iface .upIfb := by
  have hindex : s'.ifindex = s.ifindex := h.ifindex
  have hhook := h.hook.resolve_left (by decide)
  have hbridge := h.bridge.resolve_left (by decide)
  have hchanged : env.changed s iface .upIfb = env.changed s iface .addIfb := rfl
  have hfree : (s'.devices env.newIfbIndex).isSome = (s.devices env.newIfbIndex).isSome := by
    rw [h.devices]
    exact Option.isSome_map
  rw [StartEnv.exec, hindex, hfree]
  split
  · next hkeep =>
    have hsame : env.ifbIndex s = s.ifindex ifbName := by
      by_cases hzero : s.ifindex ifbName = 0
      · have hnone : (env.fails .addIfb || (s.devices env.newIfbIndex).isSome) = true := by
          simpa [hzero] using hkeep
        rw [StartEnv.ifbIndex, if_neg (not_not_intro hzero), if_pos hnone, hzero]
      · exact ifbIndex_of_ne env hzero
    refine ⟨h.named, by decide, .inr hhook, .inr hbridge, .inl (by decide), ?_, fun i => ?_, h.pins⟩
    · change s'.ifindex = Function.update s.ifindex ifbName (env.ifbIndex s)
      rw [hsame, Function.update_eq_self, hindex]
    · have hpresent : env.present s .upIfb i = s.devices i := by
        rw [StartEnv.present, if_neg (by decide), if_neg]
        rintro ⟨hzero, hne, -⟩
        exact hne (hsame.trans hzero)
      rw [hpresent, hchanged]
      exact h.devices i
  · next hadd =>
    simp only [Bool.or_eq_true, not_or, Bool.not_eq_true, decide_eq_true_eq, not_not,
      Option.isSome_eq_false_iff, Option.isNone_iff_eq_none] at hadd
    obtain ⟨⟨hok, hzero⟩, hnone⟩ := hadd
    have hnew : env.ifbIndex s = env.newIfbIndex := by
      rw [StartEnv.ifbIndex, if_neg (not_not_intro hzero), hok, hnone]
      rfl
    refine ⟨h.named, by decide, .inr hhook, .inr hbridge, .inl (by decide), ?_, fun i => ?_, h.pins⟩
    · change Function.update s'.ifindex ifbName env.newIfbIndex =
        Function.update s.ifindex ifbName (env.ifbIndex s)
      rw [hindex, hnew]
    · change Function.update s'.devices env.newIfbIndex (some env.newIfb) i = _
      by_cases hi : i = env.newIfbIndex
      · subst hi
        -- the new device is neither the one with the programs nor the interface
        have hne : env.newIfbIndex ≠ env.hookIndex s iface := by
          intro heq
          rw [heq] at hnone
          exact hhook hnone
        have hother : env.newIfbIndex ≠ env.target s iface := by
          intro heq
          rw [heq] at hnone
          exact devices_target env hbridge hnone
        rw [Function.update_self, StartEnv.present, if_neg (by decide),
          if_pos ⟨hzero, hnew ▸ env.newIfbIndex_ne, hnew.symm⟩]
        simp +decide [StartEnv.changed, hne, hother]
      · rw [Function.update_of_ne hi, StartEnv.present, if_neg (by decide), if_neg, hchanged]
        · exact h.devices i
        · rintro ⟨-, -, heq⟩
          exact hi (heq.trans hnew)

theorem at_replaceIfbRoot (h : At env s s' iface .upIfb) :
    At env s (env.exec s' .upIfb).2 iface .replaceIfbRoot := by
  have hindex : s'.ifindex ifbName = env.ifbIndex s := by
    rw [h.ifindex, StartEnv.ifindexAt, if_neg (by decide), Function.update_self]
  have hup : (env.exec s' .upIfb).2 =
      s'.modify (env.ifbIndex s) fun d => { d with up := d.up || !env.fails .upIfb } := by
    rw [StartEnv.exec, hindex]
    refine NetState.ext (onDevice_ifindex ..) (funext fun j => ?_) (onDevice_pinDir ..)
    rw [onDevice_devices]
    dsimp only [NetState.modify]
    cases env.fails .upIfb with
    | true => simp
    | false => simp
  rw [hup]
  refine h.modify env (fun j d => ?_) (by decide) (.inr (h.hook.resolve_left (by decide)))
    (.inr (h.bridge.resolve_left (by decide))) (.inl (by decide)) rfl (fun _ => rfl) rfl
  by_cases hj : j = env.ifbIndex s
  · simp +decide [StartEnv.changed, StartEnv.hooksAt, hj]
  · simp +decide [StartEnv.changed, StartEnv.hooksAt, hj]

theorem at_ifbIndex (h : At env s s' iface .replaceIfbRoot) (hifb : env.ifbIndex s ≠ 0) :
    At env s (s'.modify (env.ifbIndex s) fun d => { d with root := some .fq }) iface .ifbIndex := by
  refine h.modify env (fun j d => ?_) (by decide) (.inr (h.hook.resolve_left (by decide)))
    (.inr (h.bridge.resolve_left (by decide))) (.inr hifb) rfl (fun _ => rfl) rfl
  by_cases hj : j = env.ifbIndex s
  · simp +decide [StartEnv.changed, StartEnv.hooksAt, hj]
  · simp +decide [StartEnv.changed, StartEnv.hooksAt, hj]

/-- A step that changes nothing. -/
theorem At.idle {next : StartStep} (h : At env s s' iface step) (hstep : ¬ step ≤ .replaceIfbRoot)
    (hnext : .hookCreate ≤ next) (hindex : env.ifindexAt s next = env.ifindexAt s step)
    (hdevices : ∀ i, (env.present s next i).map (env.changed s iface next i) =
      (env.present s step i).map (env.changed s iface step i))
    (hpins : env.pinsAt s next = env.pinsAt s step) : At env s s' iface next := by
  have hlate : ∀ earlier : StartStep, earlier ≤ .replaceIfbRoot → ¬ step ≤ earlier :=
    fun earlier hearlier hle => hstep (Nat.le_trans hle hearlier)
  refine ⟨h.named, hnext, .inr (h.hook.resolve_left (hlate _ (by decide))),
    .inr (h.bridge.resolve_left (hlate _ (by decide))), .inr (h.ifb.resolve_left hstep), ?_,
    fun i => ?_, ?_⟩
  · rw [hindex, h.ifindex]
  · rw [hdevices, h.devices]
  · rw [hpins, h.pins]

theorem at_getPortalCfg (h : At env s s' iface .updateIfbIdx) :
    At env s (s'.modifyPins fun p => p.setMap .hgIfbIdx (some (.ifbIdx (env.ifbIndex s)))) iface
      .getPortalCfg := by
  refine ⟨h.named, by decide, .inr (h.hook.resolve_left (by decide)),
    .inr (h.bridge.resolve_left (by decide)), .inr (h.ifb.resolve_left (by decide)), h.ifindex,
    h.devices, ?_⟩
  exact congrArg (Option.map _) h.pins

/-! ## The run -/

theorem failure_of_fails {rest : List StartStep}
    (hfirst : env.failure s iface portalIp =
      (step :: rest).find? (env.failsAt s iface portalIp))
    (hfails : env.failsAt s iface portalIp step = true) :
    env.failure s iface portalIp = some step := by
  rw [hfirst, List.find?_cons_of_pos hfails]

theorem failure_of_ok {rest : List StartStep}
    (hfirst : env.failure s iface portalIp =
      (step :: rest).find? (env.failsAt s iface portalIp))
    (hok : env.failsAt s iface portalIp step = false) :
    env.failure s iface portalIp = rest.find? (env.failsAt s iface portalIp) := by
  rw [hfirst, List.find?_cons_of_neg (Bool.eq_false_iff.mp hok)]

theorem startHarmless_iff (hstep : .hookCreate ≤ step)
    (hfailure : env.failure s iface portalIp = some step) :
    StartHarmless env s iface portalIp ↔
      (env.named iface).isSome = true ∧ CleanupHarmless env s iface step := by
  unfold StartHarmless
  rw [hfailure]
  cases step with
  | bridgeIndex | mkdir | openObject | loadObject => exact absurd hstep (by decide)
  | hookCreate | attachIngress | attachEgress | setTxqueuelen | replaceRoot | addIfb | upIfb
  | replaceIfbRoot | ifbIndex | getIfbIdx | updateIfbIdx | getPortalCfg | portalIp
  | updatePortalCfg => exact Iff.rfl

/-- One step of the loaded start: it fails and is cleaned up after, or the start goes on. -/
theorem keepsIfFailed_step {rest : List StartStep} {r : Bool × NetState}
    (h : At env s s' iface step)
    (hfirst : env.failure s iface portalIp =
      (step :: rest).find? (env.failsAt s iface portalIp))
    (hbad : env.failsAt s iface portalIp step = true →
      r = Prog.run env.exec s' (failStart iface))
    (hgood : env.failsAt s iface portalIp step = false →
      env.failure s iface portalIp = rest.find? (env.failsAt s iface portalIp) →
      (KeepsIfFailed s r ↔ StartHarmless env s iface portalIp)) :
    KeepsIfFailed s r ↔ StartHarmless env s iface portalIp := by
  cases hfails : env.failsAt s iface portalIp step with
  | true =>
    rw [startHarmless_iff env h.loaded (failure_of_fails env hfirst hfails), hbad hfails,
      and_iff_right h.named]
    exact keepsIfFailed_failStart_iff env h
  | false => exact hgood hfails (failure_of_ok env hfirst hfails)

/-- A call and what the start does with its answer. -/
theorem run_host {β : Type} (op : StartOp β) (k : β → Starter Bool) :
    Prog.run env.exec s' (host op >>= k) =
      Prog.run env.exec (env.exec s' op).2 (k (env.exec s' op).1) := by
  rw [host, Prog.run_bind, Prog.run_perform]

theorem run_call {β : Type} {op : StartOp β} {answer : β} {s'' : NetState} (k : β → Starter Bool)
    (h : env.exec s' op = (answer, s'')) :
    Prog.run env.exec s' (host op >>= k) = Prog.run env.exec s'' (k answer) := by
  rw [run_host, h]

/-- A call without which the start cannot go on. -/
theorem keepsIfFailed_call {rest : List StartStep} {op : StartOp Bool} {next : Starter Bool}
    (h : At env s s' iface step)
    (hfirst : env.failure s iface portalIp =
      (step :: rest).find? (env.failsAt s iface portalIp))
    (hbad : env.failsAt s iface portalIp step = true → env.exec s' op = (false, s'))
    (hgood : env.failsAt s iface portalIp step = false →
      env.failure s iface portalIp = rest.find? (env.failsAt s iface portalIp) →
      ∃ s'', env.exec s' op = (true, s'') ∧
        (KeepsIfFailed s (Prog.run env.exec s'' next) ↔ StartHarmless env s iface portalIp)) :
    KeepsIfFailed s (Prog.run env.exec s' (do if ← host op then next else failStart iface)) ↔
      StartHarmless env s iface portalIp := by
  refine keepsIfFailed_step env h hfirst (fun hfails => ?_) fun hok hfirst => ?_
  · rw [run_call env _ (hbad hfails)]
    rfl
  · obtain ⟨s'', hcall, hnext⟩ := hgood hok hfirst
    rw [run_call env _ hcall]
    exact hnext

/-- A call on one device without which the start cannot go on. -/
theorem keepsIfFailed_onDevice {rest : List StartStep} {op : StartOp Bool} {next : Starter Bool}
    {call : StartCall} {i : UInt32} {f : NetDevice → NetDevice} (h : At env s s' iface step)
    (hfirst : env.failure s iface portalIp =
      (step :: rest).find? (env.failsAt s iface portalIp))
    (hop : env.exec s' op = env.onDevice call i f s')
    (hfails : env.failsAt s iface portalIp step = (env.fails call || (s'.devices i).isNone))
    (hnext : env.failsAt s iface portalIp step = false →
      env.failure s iface portalIp = rest.find? (env.failsAt s iface portalIp) →
      (KeepsIfFailed s (Prog.run env.exec (s'.modify i f) next) ↔
        StartHarmless env s iface portalIp)) :
    KeepsIfFailed s (Prog.run env.exec s' (do if ← host op then next else failStart iface)) ↔
      StartHarmless env s iface portalIp := by
  refine keepsIfFailed_call env h hfirst (fun hbad => ?_) fun hok hfirst => ?_
  · rw [hop, StartEnv.onDevice, ← hfails, if_pos hbad]
  · refine ⟨s'.modify i f, ?_, hnext hok hfirst⟩
    rw [hop, StartEnv.onDevice, ← hfails, hok, if_neg Bool.false_ne_true]

/-- Opening a map succeeds unless it fails for a reason of its own, as every map is pinned. -/
theorem objGet_eq (h : At env s s' iface step) (call : StartCall) (map : MapName) :
    env.objGet call map s' = !env.fails call := by
  have hpinned : (s'.pinDir.bind fun p => p.maps map).isSome = true := by
    rw [h.pins, Option.bind_some, Option.isSome_iff_ne_none]
    exact pinsAt_maps_ne_none env map
  rw [StartEnv.objGet, hpinned, Bool.and_true]

theorem startPortal_keeps_iff (h : At env s s' iface .getPortalCfg)
    (hfirst : env.failure s iface portalIp =
      [.getPortalCfg, .portalIp, .updatePortalCfg].find? (env.failsAt s iface portalIp)) :
    KeepsIfFailed s (Prog.run env.exec s' (startPortal iface portalIp portalPort)) ↔
      StartHarmless env s iface portalIp := by
  have hget : env.exec s' .getPortalCfg = (!env.fails .getPortalCfg, s') := by
    rw [StartEnv.exec, objGet_eq env h]
  refine keepsIfFailed_call env h hfirst (fun hfails => ?_) fun hok hfirst => ⟨s', ?_, ?_⟩
  · rw [hget, show env.fails .getPortalCfg = true from hfails]
    rfl
  · rw [hget, show env.fails .getPortalCfg = false from hok]
    rfl
  have hip : At env s s' iface .portalIp :=
    h.idle env (by decide) (by decide) rfl (fun _ => rfl) rfl
  refine keepsIfFailed_step env hip hfirst (fun hfails => ?_) fun hok hfirst => ?_
  · rw [show inetPton portalIp = none from Option.isNone_iff_eq_none.mp hfails]
  obtain ⟨addr, haddr⟩ : ∃ addr, inetPton portalIp = some addr :=
    Option.isSome_iff_exists.mp (Option.isNone_eq_false_iff.mp hok)
  rw [haddr]
  dsimp only
  have hupdate : At env s s' iface .updatePortalCfg :=
    hip.idle env (by decide) (by decide) rfl (fun _ => rfl) rfl
  refine keepsIfFailed_call env hupdate hfirst (fun hfails => ?_) fun hok hfirst => ?_
  · rw [StartEnv.exec, StartEnv.updatePinned, show env.fails .updatePortalCfg = true from hfails]
    rfl
  · rw [StartEnv.exec, StartEnv.updatePinned, show env.fails .updatePortalCfg = false from hok]
    -- a start that gets here succeeds
    refine ⟨_, rfl, ?_⟩
    simp [KeepsIfFailed, StartHarmless, hfirst]

theorem At.ifindex_ifb (h : At env s s' iface step) (hstep : ¬ step ≤ .addIfb) :
    s'.ifindex ifbName = env.ifbIndex s := by
  rw [h.ifindex, StartEnv.ifindexAt, if_neg hstep, Function.update_self]

theorem At.isNone_ifb (h : At env s s' iface step) (hstep : ¬ step ≤ .addIfb) :
    (s'.devices (env.ifbIndex s)).isNone = decide (env.ifbIndex s = 0) := by
  by_cases hifb : env.ifbIndex s = 0
  · rw [hifb, s'.zero]
    rfl
  · rw [decide_eq_false hifb, Option.isNone_eq_false_iff, Option.isSome_iff_ne_none, h.devices, Ne,
      Option.map_eq_none_iff, StartEnv.present, if_neg hstep]
    by_cases hzero : s.ifindex ifbName = 0
    · rw [if_pos ⟨hzero, hifb, rfl⟩]
      exact Option.some_ne_none _
    · rw [if_neg fun hnew => hzero hnew.1, ifbIndex_of_ne env hzero]
      exact s.known ifbName hzero

theorem At.isNone_iface (h : At env s s' iface step) :
    (s'.devices (env.target s iface)).isNone = decide (env.target s iface = 0) := by
  by_cases hiface : env.target s iface = 0
  · rw [hiface, s'.zero]
    rfl
  · rw [decide_eq_false hiface, Option.isNone_eq_false_iff, Option.isSome_iff_ne_none]
    exact h.devices_ne_none env (devices_target env hiface)

/-- The shell commands act on the device that the text names. -/
theorem At.onText_eq (h : At env s s' iface step) (call : StartCall) (f : NetDevice → NetDevice) :
    env.onText call iface f s' = env.onDevice call (env.target s iface) f s' := by
  rw [HawkGate.onText_eq env h.named, h.target]

/-- The part that tells the programs the index of the device for uploads, and what follows. -/
theorem updateIfbIdx_keeps_iff (h : At env s s' iface .getIfbIdx)
    (hfirst : env.failure s iface portalIp =
      [.getIfbIdx, .updateIfbIdx, .getPortalCfg, .portalIp, .updatePortalCfg].find?
        (env.failsAt s iface portalIp)) :
    KeepsIfFailed s (Prog.run env.exec s' (do
      if ← host .getIfbIdx then
        if ← host (.updateIfbIdx (env.ifbIndex s)) then startPortal iface portalIp portalPort
        else failStart iface
      else failStart iface)) ↔ StartHarmless env s iface portalIp := by
  have hget : env.exec s' .getIfbIdx = (!env.fails .getIfbIdx, s') := by
    rw [StartEnv.exec, objGet_eq env h]
  refine keepsIfFailed_call env h hfirst (fun hfails => ?_) fun hok hfirst => ⟨s', ?_, ?_⟩
  · rw [hget, show env.fails .getIfbIdx = true from hfails]
    rfl
  · rw [hget, show env.fails .getIfbIdx = false from hok]
    rfl
  have hupdate : At env s s' iface .updateIfbIdx :=
    h.idle env (by decide) (by decide) rfl (fun _ => rfl) rfl
  refine keepsIfFailed_call env hupdate hfirst (fun hfails => ?_) fun hok hfirst => ?_
  · rw [StartEnv.exec, StartEnv.updatePinned, show env.fails .updateIfbIdx = true from hfails]
    rfl
  · rw [StartEnv.exec, StartEnv.updatePinned, show env.fails .updateIfbIdx = false from hok]
    exact ⟨_, rfl, startPortal_keeps_iff env (at_getPortalCfg env hupdate) hfirst⟩

theorem startUpload_keeps_iff (h : At env s s' iface .addIfb)
    (hfirst : env.failure s iface portalIp =
      [.addIfb, .upIfb, .replaceIfbRoot, .ifbIndex, .getIfbIdx, .updateIfbIdx, .getPortalCfg,
        .portalIp, .updatePortalCfg].find? (env.failsAt s iface portalIp)) :
    KeepsIfFailed s (Prog.run env.exec s' (startUpload iface portalIp portalPort)) ↔
      StartHarmless env s iface portalIp := by
  have hup := at_replaceIfbRoot env (at_upIfb env h)
  have hfirst := failure_of_ok env (failure_of_ok env hfirst rfl) rfl
  rw [startUpload, run_host, run_host, run_host]
  change KeepsIfFailed s (Prog.run env.exec (env.exec (env.exec s' .addIfb).2 .upIfb).2 _) ↔ _
  generalize (env.exec (env.exec s' .addIfb).2 .upIfb).2 = s₁ at hup ⊢
  have hindex := hup.ifindex_ifb env (by decide)
  refine keepsIfFailed_onDevice env hup hfirst (by rw [StartEnv.exec, hindex])
    (by rw [hup.isNone_ifb env (by decide)]; rfl) fun hok hfirst => ?_
  have hifb := of_decide_eq_false (Bool.or_eq_false_iff.mp hok).2
  have hset := at_ifbIndex env hup hifb
  generalize s₁.modify _ _ = s₂ at hset ⊢
  have hcall : env.exec s₂ .ifbIndex = (if env.fails .ifbIndex then 0 else env.ifbIndex s, s₂) := by
    rw [StartEnv.exec, StartEnv.ifNametoindex, hset.ifindex_ifb env (by decide)]
  rw [run_call env _ hcall]
  refine keepsIfFailed_step env hset hfirst (fun hfails => ?_) fun hok hfirst => ?_
  · rw [show env.fails .ifbIndex = true from hfails, if_pos rfl, if_pos rfl]
  · rw [show env.fails .ifbIndex = false from hok, if_neg Bool.false_ne_true, if_neg hifb]
    exact updateIfbIdx_keeps_iff env (hset.idle env (by decide) (by decide) rfl (fun _ => rfl) rfl)
      hfirst

theorem startDownload_keeps_iff (h : At env s s' iface .setTxqueuelen)
    (hfirst : env.failure s iface portalIp =
      [.setTxqueuelen, .replaceRoot, .addIfb, .upIfb, .replaceIfbRoot, .ifbIndex, .getIfbIdx,
        .updateIfbIdx, .getPortalCfg, .portalIp, .updatePortalCfg].find?
          (env.failsAt s iface portalIp)) :
    KeepsIfFailed s (Prog.run env.exec s' (startDownload iface portalIp portalPort)) ↔
      StartHarmless env s iface portalIp := by
  refine keepsIfFailed_onDevice env h hfirst (h.onText_eq env _ _)
    (by rw [h.isNone_iface]; rfl) fun hok hfirst => ?_
  have hiface := of_decide_eq_false (Bool.or_eq_false_iff.mp hok).2
  have hroot := at_replaceRoot env h hiface
  refine keepsIfFailed_onDevice env hroot hfirst (hroot.onText_eq env _ _)
    (by rw [hroot.isNone_iface, decide_eq_false hiface, Bool.or_false]; rfl) fun hok hfirst => ?_
  exact startUpload_keeps_iff env (at_addIfb env hroot) hfirst

/-- Once there is a clsact qdisc a program is attached as any other call on the device is executed. -/
theorem At.attach_eq (h : At env s s' iface step) (hclsact : ∀ c, env.hooksAt c step ≠ none)
    (call : StartCall) (f : Hooks → Hooks) :
    env.attach call (env.hookIndex s iface) f s' =
      env.onDevice call (env.hookIndex s iface) (fun d => { d with clsact := d.clsact.map f })
        s' := by
  cases hd : s'.devices (env.hookIndex s iface) with
  | none =>
    rw [StartEnv.attach, hd, onDevice_of_none env hd]
    rfl
  | some d =>
    have hset : d.clsact ≠ none := by
      rw [h.devices, Option.map_eq_some_iff] at hd
      obtain ⟨d₀, -, rfl⟩ := hd
      dsimp only [StartEnv.changed]
      rw [if_pos rfl]
      exact hclsact d₀.clsact
    rw [StartEnv.attach, hd, if_neg]
    simpa using hset

theorem startHooks_keeps_iff {ifindex : Int32} (h : At env s s' iface .hookCreate)
    (hindex : ifindex.toUInt32 = env.hookIndex s iface)
    (hfirst : env.failure s iface portalIp =
      [.hookCreate, .attachIngress, .attachEgress, .setTxqueuelen, .replaceRoot, .addIfb, .upIfb,
        .replaceIfbRoot, .ifbIndex, .getIfbIdx, .updateIfbIdx, .getPortalCfg, .portalIp,
        .updatePortalCfg].find? (env.failsAt s iface portalIp)) :
    KeepsIfFailed s (Prog.run env.exec s' (startHooks ifindex iface portalIp portalPort)) ↔
      StartHarmless env s iface portalIp := by
  have hsame : (s'.devices (env.hookIndex s iface)).isNone =
      (s.devices (env.hookIndex s iface)).isNone := by
    rw [h.devices]
    exact Option.isNone_map
  refine keepsIfFailed_onDevice env h hfirst (by rw [StartEnv.exec, hindex]) (by rw [hsame]; rfl)
    fun hok hfirst => ?_
  have hhook := Option.isSome_iff_ne_none.mp
    (Option.isNone_eq_false_iff.mp (Bool.or_eq_false_iff.mp hok).2)
  have hingress := at_attachIngress env h hhook
  have hnotNone : ∀ {s'' : NetState} {step : StartStep}, At env s s'' iface step →
      (s''.devices (env.hookIndex s iface)).isNone = false := by
    intro s'' step h
    rw [Option.isNone_eq_false_iff, Option.isSome_iff_ne_none]
    exact h.devices_ne_none env hhook
  refine keepsIfFailed_onDevice env hingress hfirst
    (by rw [StartEnv.exec, hindex, hingress.attach_eq env fun c => Option.some_ne_none _])
    (by rw [hnotNone hingress, Bool.or_false]; rfl) fun hok hfirst => ?_
  have hegress := at_attachEgress env hingress
  refine keepsIfFailed_onDevice env hegress hfirst
    (by rw [StartEnv.exec, hindex, hegress.attach_eq env fun c => Option.some_ne_none _])
    (by rw [hnotNone hegress, Bool.or_false]; rfl) fun hok hfirst => ?_
  exact startDownload_keeps_iff env (at_setTxqueuelen env hegress) hfirst

/-- The index that the programs are attached to. -/
theorem run_getIfindex (iface : CString) :
    Prog.run env.exec s (getIfindex iface) = ((env.hookIndex s iface).toInt32, s) := by
  have hcall : env.exec s (.bridgeIndex iface) = (env.ifNametoindex .bridgeIndex iface s, s) := rfl
  rw [getIfindex, host, Prog.run_bind, Prog.run_perform, hcall, StartEnv.ifNametoindex,
    StartEnv.hookIndex]
  cases env.fails .bridgeIndex with
  | true => rfl
  | false =>
    rw [if_neg Bool.false_ne_true, Bool.false_or]
    by_cases hzero : s.ifindex iface = 0
    · rw [hzero]
      rfl
    · have hne : (s.ifindex iface).toInt32 ≠ 0 := fun heq => hzero (congrArg Int32.toUInt32 heq)
      rw [if_neg hne, decide_eq_false hzero, if_neg Bool.false_ne_true]
      rfl

theorem hookIndex_le_zero_iff :
    (env.hookIndex s iface).toInt32 ≤ 0 ↔ env.failsAt s iface portalIp .bridgeIndex = true := by
  rw [StartEnv.hookIndex, StartEnv.failsAt]
  cases env.fails .bridgeIndex with
  | true =>
    rw [Bool.true_or, if_pos rfl]
    exact iff_of_false (by decide) Bool.false_ne_true
  | false =>
    by_cases hzero : s.ifindex iface = 0
    · rw [hzero]
      exact iff_of_false (by decide) (by decide)
    · have hne : (s.ifindex iface).toInt32 ≠ 0 := fun heq => hzero (congrArg Int32.toUInt32 heq)
      rw [Bool.false_or, decide_eq_false hzero, if_neg Bool.false_ne_true, Bool.not_false,
        Bool.true_and, decide_eq_true_iff, Int32.le_iff_lt_or_eq, or_iff_left hne]

/-- The object is loaded into a pin directory that is there now, whether or not it was before. -/
theorem at_hookCreate (hnamed : (env.named iface).isSome = true)
    (hdir : s' = { s with pinDir := some (s.pinDir.getD ⟨fun _ => none, false⟩) })
    (hok : env.fails .loadObject = false) :
    env.exec s' .loadObject = (true, s'.modifyPins env.loaded) ∧
      At env s (s'.modifyPins env.loaded) iface .hookCreate := by
  subst hdir
  refine ⟨?_, hnamed, by decide, .inl (by decide), .inl (by decide), .inl (by decide), rfl,
    fun i => ?_, rfl⟩
  · rw [StartEnv.exec, hok]
    rfl
  · have hsame : env.changed s iface .hookCreate i = id := by
      funext d
      simp +decide [StartEnv.changed, StartEnv.hooksAt]
    rw [hsame, Option.map_id]
    rfl

/-- Until the object is loaded a failed start leaves the pin directory behind, but nothing else. -/
theorem keepsIfFailed_mkdir :
    KeepsIfFailed s (false, { s with pinDir := some (s.pinDir.getD ⟨fun _ => none, false⟩) }) ↔
      s.pinDir ≠ none := by
  obtain ⟨ifindex, devices, pinDir, zero, known⟩ := s
  cases pinDir with
  | none => simp [KeepsIfFailed]
  | some p => simp [KeepsIfFailed]

/-- The condition is enough for a failed run to leave the state as it was, and necessary if the
    shell commands act on the device that the text names. -/
def KeepsExactly (s : NetState) (iface portalIp : CString) (r : Bool × NetState) : Prop :=
  (StartHarmless env s iface portalIp → KeepsIfFailed s r) ∧
    ((env.named iface).isSome = true → KeepsIfFailed s r → StartHarmless env s iface portalIp)

theorem keepsExactly_of_iff {r : Bool × NetState}
    (h : KeepsIfFailed s r ↔ StartHarmless env s iface portalIp) :
    KeepsExactly env s iface portalIp r :=
  ⟨h.mpr, fun _ => h.mp⟩

/-- The steps behind the load, of which each runs the clean-up if it fails. -/
def StartStep.loaded : List StartStep :=
  [.hookCreate, .attachIngress, .attachEgress, .setTxqueuelen, .replaceRoot, .addIfb, .upIfb,
    .replaceIfbRoot, .ifbIndex, .getIfbIdx, .updateIfbIdx, .getPortalCfg, .portalIp,
    .updatePortalCfg]

/-- A text that names no device fails a loaded start at its first shell command, if not before,
    and then nothing is known of the clean-up. -/
theorem not_startHarmless_of_unnamed (hnamed : env.named iface = none)
    (hfirst : env.failure s iface portalIp =
      StartStep.loaded.find? (env.failsAt s iface portalIp)) :
    ¬ StartHarmless env s iface portalIp := by
  have hshell : env.failsAt s iface portalIp .setTxqueuelen = true := by
    simp [StartEnv.failsAt, StartEnv.target, hnamed]
  have hsome : (env.failure s iface portalIp).isSome = true := by
    rw [hfirst, List.find?_isSome]
    exact ⟨.setTxqueuelen, by decide, hshell⟩
  obtain ⟨step, hstep⟩ := Option.isSome_iff_exists.mp hsome
  have hlate : ∀ step ∈ StartStep.loaded, StartStep.hookCreate ≤ step := by decide
  rw [startHarmless_iff env (hlate step (List.mem_of_find?_eq_some (hfirst ▸ hstep))) hstep, hnamed]
  exact fun h => Bool.false_ne_true h.1

/-- The part that loads the object, once the pin directory is there. -/
theorem load_keeps {ifindex : Int32}
    (hdir : s' = { s with pinDir := some (s.pinDir.getD ⟨fun _ => none, false⟩) })
    (hindex : ifindex.toUInt32 = env.hookIndex s iface)
    (hfirst : env.failure s iface portalIp =
      (.openObject :: .loadObject :: StartStep.loaded).find? (env.failsAt s iface portalIp)) :
    KeepsExactly env s iface portalIp (Prog.run env.exec s' (do
      if ← host .openObject then
        if ← host .loadObject then startHooks ifindex iface portalIp portalPort
        else pure false
      else pure false)) := by
  have hopen : env.exec s' .openObject = (!env.fails .openObject, s') := rfl
  rw [run_call env _ hopen]
  cases hfails : env.fails .openObject with
  | true =>
    refine keepsExactly_of_iff env ?_
    rw [StartHarmless, failure_of_fails env hfirst hfails, hdir]
    exact keepsIfFailed_mkdir
  | false =>
    have hfirst := failure_of_ok env hfirst hfails
    rw [Bool.not_false, if_pos rfl]
    cases hload : env.fails .loadObject with
    | true =>
      have hcall : env.exec s' .loadObject = (false, s') := by
        rw [StartEnv.exec, hload]
        rfl
      refine keepsExactly_of_iff env ?_
      rw [run_call env _ hcall, StartHarmless, failure_of_fails env hfirst hload, hdir]
      exact keepsIfFailed_mkdir
    | false =>
      have hfirst := failure_of_ok env hfirst hload
      cases hnamed : env.named iface with
      | none =>
        refine ⟨fun hharmless => ?_, fun hsome => ?_⟩
        · exact absurd hharmless (not_startHarmless_of_unnamed env hnamed hfirst)
        · rw [hnamed] at hsome
          cases hsome
      | some w =>
        have hsome : (env.named iface).isSome = true := by rw [hnamed]; rfl
        obtain ⟨hcall, hloaded⟩ := at_hookCreate env hsome hdir hload
        refine keepsExactly_of_iff env ?_
        rw [run_call env _ hcall, if_pos rfl]
        exact startHooks_keeps_iff env hloaded hindex hfirst

end

/-! ## Failed starts -/

/-- A start that fails leaves the state as it was if its clean-up removes nothing that was there
    before; and only then, if the text is one by which the shell commands find a device, as every
    plain word is. -/
theorem failed_start_restores_iff (env : StartEnv) (s : NetState) (iface portalIp : CString)
    (portalPort : UInt16) :
    (StartHarmless env s iface portalIp →
      (env.start s iface portalIp portalPort).1 = false →
        (env.start s iface portalIp portalPort).2 = s) ∧
      ((env.named iface).isSome = true →
        ((env.start s iface portalIp portalPort).1 = false →
          (env.start s iface portalIp portalPort).2 = s) →
        StartHarmless env s iface portalIp) := by
  change KeepsExactly env s iface portalIp
    (Prog.run env.exec s (startAction iface portalIp portalPort))
  have hfirst : env.failure s iface portalIp =
    StartStep.all.find? (env.failsAt s iface portalIp) := rfl
  have hle : (env.hookIndex s iface).toInt32 ≤ 0 ↔
      env.failsAt s iface portalIp .bridgeIndex = true := hookIndex_le_zero_iff env
  rw [startAction, Prog.run_bind, run_getIfindex]
  dsimp only
  cases hbridge : env.failsAt s iface portalIp .bridgeIndex with
  | true =>
    refine keepsExactly_of_iff env ?_
    rw [if_pos (hle.mpr hbridge), StartHarmless, failure_of_fails env hfirst hbridge]
    exact iff_of_true (fun _ => rfl) trivial
  | false =>
    have hfirst := failure_of_ok env hfirst hbridge
    rw [hbridge] at hle
    rw [if_neg fun hneg => Bool.false_ne_true (hle.mp hneg)]
    cases hmkdir : env.fails .mkdir with
    | true =>
      have hcall : env.exec s .mkdir = (false, s) := by rw [StartEnv.exec, if_pos hmkdir]
      refine keepsExactly_of_iff env ?_
      rw [run_call env _ hcall, StartHarmless, failure_of_fails env hfirst hmkdir]
      exact iff_of_true (fun _ => rfl) trivial
    | false =>
      have hcall : env.exec s .mkdir =
          (true, { s with pinDir := some (s.pinDir.getD ⟨fun _ => none, false⟩) }) := by
        rw [StartEnv.exec, hmkdir]
        rfl
      rw [run_call env _ hcall, if_pos rfl]
      exact load_keeps env rfl rfl (failure_of_ok env hfirst hmkdir)

/-- Without a device of exactly that name the programs go to the first device, where a clean-up
    that names another one does not reach them. -/
theorem unknown_interface_not_harmless {env : StartEnv} {s : NetState} {iface portalIp : CString}
    {step : StartStep} (hiface : s.ifindex iface = 0) (htarget : env.target s iface ≠ 1)
    (hfirst : s.devices 1 ≠ none) (hstep : .attachEgress ≤ step)
    (hfailure : env.failure s iface portalIp = some step) :
    ¬ StartHarmless env s iface portalIp := by
  intro h
  rw [startHarmless_iff env (Nat.le_trans (by decide) hstep) hfailure] at h
  obtain ⟨d, hd⟩ := Option.ne_none_iff_exists'.mp hfirst
  have hhook : env.hookIndex s iface = 1 := by
    rw [StartEnv.hookIndex, if_pos]
    simp [hiface]
  have hhooks := h.2.hooks 1 d hd
  rw [hhook, if_neg fun hone => htarget hone.1.symm] at hhooks
  obtain rfl | ⟨rfl, -⟩ := hhooks rfl
  · exact absurd hstep (by decide)
  · exact absurd hstep (by decide)

/-! ## A second start -/

/-- A host on which no call fails and every shell command wants one plain word. -/
def soundHost : StartEnv where
  fails := fun _ => false
  named := shellWord
  named_word := fun _ _ h => h
  otherwise := fun _ _ s => (false, s)
  ingressProg := 1
  egressProg := 2
  newIfb := ⟨false, 32, none, none⟩
  newIfbIndex := 5
  newIfbIndex_ne := by decide
  freshMap
    | .hgIfbIdx => .ifbIdx 0
    | .hgPortalCfg => .portalCfg ⟨0, 0⟩
    | map => .table map.ctorIdx

/-- A host with a loopback device and a bridge, whose queues have this length. -/
def bridgeWith (txqueuelen : Nat) : NetState where
  ifindex := fun name => if name = "lo".toList then 1 else if name = "br0".toList then 3 else 0
  devices := fun i => if i = 1 ∨ i = 3 then some ⟨true, txqueuelen, none, none⟩ else none
  pinDir := none
  zero := rfl
  known := by
    intro name hname
    by_cases hlo : name = "lo".toList
    · rw [if_pos hlo]
      exact Option.some_ne_none _
    · rw [if_neg hlo] at hname ⊢
      by_cases hbr : name = "br0".toList
      · rw [if_pos hbr]
        exact Option.some_ne_none _
      · rw [if_neg hbr] at hname
        exact absurd rfl hname

def bridgeHost : NetState := bridgeWith 1000

/-- A start with an invalid address leaves a bridge alone whose queue has no length. -/
theorem failed_start_restores_idle_bridge :
    (soundHost.start (bridgeWith 0) "br0".toList "10.0.0.256".toList 2050).1 = false ∧
      (soundHost.start (bridgeWith 0) "br0".toList "10.0.0.256".toList 2050).2 = bridgeWith 0 := by
  have hfailed : (soundHost.start (bridgeWith 0) "br0".toList "10.0.0.256".toList 2050).1 = false := by
    decide +kernel
  have hfailure : soundHost.failure (bridgeWith 0) "br0".toList "10.0.0.256".toList =
      some .portalIp := by decide +kernel
  have hdevices : ∀ i d, (bridgeWith 0).devices i = some d → d = ⟨true, 0, none, none⟩ := by
    intro i d hd
    simp only [bridgeWith] at hd
    split at hd
    · exact (Option.some.inj hd).symm
    · cases hd
  have htarget : soundHost.target (bridgeWith 0) "br0".toList =
      soundHost.hookIndex (bridgeWith 0) "br0".toList := by decide +kernel
  refine ⟨hfailed, (failed_start_restores_iff soundHost (bridgeWith 0) _ _ 2050).1 ?_ hfailed⟩
  rw [startHarmless_iff soundHost (by decide) hfailure]
  refine ⟨by decide +kernel, fun i d hd => ?_, fun d hd => ?_, fun d hd => ?_, ?_, ?_⟩
  · rw [hdevices i d hd, htarget]
    split
    · rfl
    · next hother => exact fun hi => absurd ⟨hi, rfl⟩ hother
  · rw [hdevices _ d hd]
    rfl
  · rw [hdevices _ d hd]
    rfl
  · exact (if_neg Bool.false_ne_true).mpr (by decide +kernel)
  · exact ⟨rfl, fun _ => rfl⟩

/-- The gateway after a first start on `br0`. -/
def runningGateway : NetState :=
  (soundHost.start bridgeHost "br0".toList "10.0.0.1".toList 2050).2

/-- A second start that is given an invalid address stops the gateway that is running. -/
theorem second_start_stops_gateway :
    (soundHost.start bridgeHost "br0".toList "10.0.0.1".toList 2050).1 = true ∧
      (runningGateway.device "br0".toList).map NetDevice.clsact = some (some ⟨[1], [2]⟩) ∧
      runningGateway.pinDir ≠ none ∧
      (soundHost.start runningGateway "br0".toList "10.0.0.256".toList 2050).1 = false ∧
      ((soundHost.start runningGateway "br0".toList "10.0.0.256".toList 2050).2.device
        "br0".toList).map NetDevice.clsact = some none ∧
      (soundHost.start runningGateway "br0".toList "10.0.0.256".toList 2050).2.pinDir = none ∧
      (soundHost.start runningGateway "br0".toList "10.0.0.256".toList 2050).2 ≠
        runningGateway := by
  have hpinned : runningGateway.pinDir.isSome = true := by decide +kernel
  have hgone : (soundHost.start runningGateway "br0".toList "10.0.0.256".toList
      2050).2.pinDir.isNone = true := by decide +kernel
  refine ⟨by decide +kernel, by decide +kernel, Option.isSome_iff_ne_none.mp hpinned,
    by decide +kernel, by decide +kernel, Option.isNone_iff_eq_none.mp hgone, fun heq => ?_⟩
  rw [heq] at hgone
  rw [Option.isNone_iff_eq_none.mp hgone] at hpinned
  cases hpinned

end HawkGate
