-- SUMMARY: A stop of which no call fails leaves the same host, whatever starts and stops of the interface ran before.
import HawkGate.Guarantees.FailedStart
import HawkGate.Lib.ProgLogic
import HawkGate.Lib.Transition

/-!
# Stopping the gateway

`hgctl stop` does not know what a start has done: it removes everything that one
may have left. So it does not matter how many starts and stops came before it, nor
where they failed. Each call of theirs leaves unchanged what a complete stop would
make of the host, as long as the programs go to the interface itself.
-/

namespace HawkGate

open CString Prog Transition

/-! ## What a stop leaves -/

/-- A device without the qdiscs and the queue of the gateway. -/
def NetDevice.bare (d : NetDevice) : NetDevice :=
  { d with txqueuelen := 0, root := none, clsact := none }

/-- Files of others keep the directory. -/
def PinDir.swept (p : PinDir) : Option PinDir :=
  if p.others then some ⟨fun _ => none, true⟩ else none

namespace NetState

/-- The host after a stop of which no call fails. -/
def stopped (s : NetState) (iface : CString) : NetState where
  ifindex := fun name => if s.ifindex name = s.ifindex ifbName then 0 else s.ifindex name
  devices := fun i =>
    if i = s.ifindex ifbName then none
    else if i = s.ifindex iface then (s.devices i).map NetDevice.bare
    else s.devices i
  pinDir := s.pinDir.bind PinDir.swept
  zero := by simp [s.zero]
  known := by
    intro name hname
    split at hname
    · exact absurd rfl hname
    · next hother =>
      rw [if_neg hother, if_neg hother]
      split
      · simpa using s.known name hname
      · exact s.known name hname

/-- The gateway has left nothing on the host. -/
structure Clean (s : NetState) (iface : CString) : Prop where
  ifb : s.ifindex ifbName = 0
  device : ∀ d, s.device iface = some d → d.bare = d
  pins : ∀ p, s.pinDir = some p → p.others = true ∧ ∀ map, p.maps map = none

variable {s : NetState} {iface : CString}

theorem stopped_ifindex (s : NetState) (iface name : CString) : (s.stopped iface).ifindex name =
    if s.ifindex name = s.ifindex ifbName then 0 else s.ifindex name := rfl

theorem stopped_devices (s : NetState) (iface : CString) (i : UInt32) :
    (s.stopped iface).devices i =
      if i = s.ifindex ifbName then none
      else if i = s.ifindex iface then (s.devices i).map NetDevice.bare
      else s.devices i := rfl

theorem Clean.stopped_eq (h : s.Clean iface) : s.stopped iface = s := by
  have hdevices : (s.stopped iface).devices = s.devices := by
    funext i
    simp only [stopped, h.ifb]
    by_cases hzero : i = 0
    · rw [if_pos hzero, hzero, s.zero]
    · rw [if_neg hzero]
      by_cases hi : i = s.ifindex iface
      · subst hi
        rw [if_pos rfl]
        cases hd : s.devices (s.ifindex iface) with
        | none => rfl
        | some d => exact congrArg some (h.device d hd)
      · rw [if_neg hi]
  have hpins : (s.stopped iface).pinDir = s.pinDir := by
    cases hp : s.pinDir with
    | none => simp [stopped, hp]
    | some p =>
      obtain ⟨hothers, hmaps⟩ := h.pins p hp
      have hsame : (⟨fun _ => none, true⟩ : PinDir) = p :=
        PinDir.ext (funext fun map => (hmaps map).symm) hothers.symm
      simp [stopped, hp, PinDir.swept, hothers, hsame]
  refine NetState.ext (funext fun name => ?_) hdevices hpins
  simp only [stopped, h.ifb]
  exact ite_eq_right_iff.mpr Eq.symm

theorem stopped_clean (s : NetState) (iface : CString) : (s.stopped iface).Clean iface where
  ifb := by simp [stopped]
  device := by
    intro d hd
    simp only [device, stopped] at hd
    by_cases hifb : s.ifindex iface = s.ifindex ifbName
    · simp [hifb, s.zero] at hd
    · simp only [if_neg hifb, if_pos] at hd
      obtain ⟨d', -, rfl⟩ := Option.map_eq_some_iff.mp hd
      rfl
  pins := by
    intro p hp
    obtain ⟨q, -, hq⟩ := Option.bind_eq_some_iff.mp hp
    unfold PinDir.swept at hq
    split at hq
    · cases hq
      exact ⟨rfl, fun _ => rfl⟩
    · cases hq

/-! ## Calls -/

/-- A stop reaches what is done to the device with the index. -/
def Reached (s : NetState) (iface : CString) (i : UInt32) : Prop :=
  s.ifindex iface = i ∨ s.ifindex ifbName = i ∨ s.devices i = none

/-- What a stop removes from a device may be there or not. -/
theorem stopped_modify {i : UInt32} {f : NetDevice → NetDevice} (hi : s.Reached iface i)
    (hf : s.ifindex ifbName = i ∨ ∀ d, (f d).bare = d.bare) :
    (s.modify i f).stopped iface = s.stopped iface := by
  have hindex : (s.modify i f).ifindex = s.ifindex := rfl
  have hdevice : ∀ j, (s.modify i f).devices j =
      if j = i then (s.devices j).map f else s.devices j := fun j => rfl
  refine NetState.ext rfl (funext fun j => ?_) rfl
  rw [stopped_devices, stopped_devices, hindex, hdevice]
  by_cases hifb : j = s.ifindex ifbName
  · rw [if_pos hifb, if_pos hifb]
  · rw [if_neg hifb, if_neg hifb]
    by_cases hj : j = i
    · subst hj
      have hf : ∀ d, (f d).bare = d.bare := hf.resolve_left fun h => hifb h.symm
      rcases hi with hi | hi | hi
      · rw [if_pos hi.symm, if_pos hi.symm, if_pos rfl]
        cases s.devices j with
        | none => rfl
        | some d => exact congrArg some (hf d)
      · exact absurd hi.symm hifb
      · simp [hi]
    · rw [if_neg hj]

theorem reached_modify {i j : UInt32} {f : NetDevice → NetDevice} (h : s.Reached iface i) :
    (s.modify j f).Reached iface i := by
  rcases h with h | h | h
  · exact .inl h
  · exact .inr (.inl h)
  · refine .inr (.inr ?_)
    simp [modify, h]

theorem reached_iface (s : NetState) (iface : CString) : s.Reached iface (s.ifindex iface) :=
  .inl rfl

theorem reached_ifb (s : NetState) (iface : CString) : s.Reached iface (s.ifindex ifbName) :=
  .inr (.inl rfl)

end NetState

/-- The state is one that a complete stop turns into the same host, and it reaches the device with
    the index. -/
structure StopAbsorbs (t : NetState) (iface : CString) (i : UInt32) (s : NetState) : Prop where
  stopped : s.stopped iface = t.stopped iface
  reached : s.Reached iface i

/-- The calls of starts and stops of the interface whose programs go to the device with the
    index. -/
def StartOp.OnInterface (iface : CString) (i : UInt32) {β : Type} : StartOp β → Prop
  | .bridgeIndex name | .setTxqueuelen name | .replaceRoot name | .delClsact name | .delRoot name
  | .resetTxqueuelen name => name = iface
  | .hookCreate j | .attachIngress j | .attachEgress j => j.toUInt32 = i
  | _ => True

section
variable {env : StartEnv} {t s : NetState} {iface : CString} {i : UInt32}

theorem StopAbsorbs.onDevice (h : StopAbsorbs t iface i s) (call : StartCall) {j : UInt32}
    {f : NetDevice → NetDevice} (hj : s.Reached iface j)
    (hf : s.ifindex ifbName = j ∨ ∀ d, (f d).bare = d.bare) :
    StopAbsorbs t iface i (env.onDevice call j f s).2 := by
  unfold StartEnv.onDevice
  split
  · exact h
  · exact ⟨(NetState.stopped_modify hj hf).trans h.stopped, NetState.reached_modify h.reached⟩

theorem StopAbsorbs.attach (h : StopAbsorbs t iface i s) (call : StartCall) (f : Hooks → Hooks) :
    StopAbsorbs t iface i (env.attach call i f s).2 := by
  unfold StartEnv.attach
  split
  · exact h
  · exact h.onDevice call h.reached (.inr fun d => rfl)

/-- A change of the pins that keeps the files of others. -/
theorem StopAbsorbs.pins {s' : NetState} (h : StopAbsorbs t iface i s)
    (hifindex : s'.ifindex = s.ifindex) (hdevices : s'.devices = s.devices)
    (hpins : s'.pinDir.bind PinDir.swept = s.pinDir.bind PinDir.swept) :
    StopAbsorbs t iface i s' := by
  have hsame : s'.stopped iface = s.stopped iface := by
    refine NetState.ext (funext fun name => ?_) (funext fun j => ?_) hpins
    · rw [NetState.stopped_ifindex, NetState.stopped_ifindex, hifindex]
    · rw [NetState.stopped_devices, NetState.stopped_devices, hifindex, hdevices]
  refine ⟨hsame.trans h.stopped, ?_⟩
  · have := h.reached
    rwa [NetState.Reached, ← hifindex, ← hdevices] at this

theorem StopAbsorbs.modifyPins (h : StopAbsorbs t iface i s) {f : PinDir → PinDir}
    (hf : ∀ p, (f p).others = p.others) : StopAbsorbs t iface i (s.modifyPins f) := by
  refine h.pins rfl rfl ?_
  rw [NetState.modifyPins]
  cases s.pinDir with
  | none => rfl
  | some p => simp [PinDir.swept, hf]

theorem StopAbsorbs.addIfb (h : StopAbsorbs t iface i s) (hifb : s.ifindex ifbName = 0)
    (hfree : s.devices env.newIfbIndex = none) :
    StopAbsorbs t iface i
      (s.addDevice ifbName env.newIfbIndex env.newIfbIndex_ne env.newIfb) := by
  have hother : ∀ name, s.ifindex name ≠ env.newIfbIndex := by
    intro name heq
    refine s.known name ?_ (heq ▸ hfree)
    rw [heq]
    exact env.newIfbIndex_ne
  generalize hadd : s.addDevice ifbName env.newIfbIndex env.newIfbIndex_ne env.newIfb = s'
  have hnew : s'.ifindex ifbName = env.newIfbIndex := by
    rw [← hadd]
    exact Function.update_self ifbName env.newIfbIndex s.ifindex
  have hname : ∀ name, name ≠ ifbName → s'.ifindex name = s.ifindex name := by
    intro name hne
    rw [← hadd]
    exact Function.update_of_ne hne env.newIfbIndex s.ifindex
  have hdevice : ∀ j, j ≠ env.newIfbIndex → s'.devices j = s.devices j := by
    intro j hj
    rw [← hadd]
    exact Function.update_of_ne hj (some env.newIfb) s.devices
  have hsame : s'.stopped iface = s.stopped iface := by
    refine NetState.ext (funext fun name => ?_) (funext fun j => ?_) (by rw [← hadd]; rfl)
    · rw [NetState.stopped_ifindex, NetState.stopped_ifindex, hnew, hifb]
      by_cases hne : name = ifbName
      · rw [hne, hnew, hifb, if_pos rfl, if_pos rfl]
      · rw [hname name hne, if_neg (hother name)]
        exact (ite_eq_right_iff.mpr Eq.symm).symm
    · rw [NetState.stopped_devices, NetState.stopped_devices, hnew, hifb]
      by_cases hj : j = env.newIfbIndex
      · rw [if_pos hj, hj, if_neg env.newIfbIndex_ne, hfree, Option.map_none, ite_self]
      · rw [if_neg hj, hdevice j hj]
        by_cases hzero : j = 0
        · simp [hzero, s.zero]
        · rw [if_neg hzero]
          by_cases hiface : iface = ifbName
          · rw [hiface, hnew, hifb, if_neg hj, if_neg hzero]
          · rw [hname iface hiface]
  refine ⟨hsame.trans h.stopped, ?_⟩
  rcases h.reached with hi | hi | hi
  · by_cases hiface : iface = ifbName
    · -- the interface is the device for uploads, which was not there
      subst hiface
      rw [hifb] at hi
      exact .inr (.inr (hi ▸ NetState.zero _))
    · exact .inl ((hname iface hiface).trans hi)
  · rw [hifb] at hi
    exact .inr (.inr (hi ▸ NetState.zero _))
  · by_cases hj : i = env.newIfbIndex
    · exact .inr (.inl (hnew.trans hj.symm))
    · exact .inr (.inr ((hdevice i hj).trans hi))

theorem StopAbsorbs.delIfb (h : StopAbsorbs t iface i s) :
    StopAbsorbs t iface i (s.removeDevice (s.ifindex ifbName)) := by
  generalize hremove : s.removeDevice (s.ifindex ifbName) = s'
  have hdevice : ∀ j, s'.devices j = if j = s.ifindex ifbName then none else s.devices j := by
    intro j
    rw [← hremove]
    exact Function.update_apply s.devices (s.ifindex ifbName) none j
  have hname : ∀ name, s'.ifindex name =
      if s.ifindex name = s.ifindex ifbName then 0 else s.ifindex name := by
    intro name
    rw [← hremove]
    rfl
  have hifb : s'.ifindex ifbName = 0 := by rw [hname, if_pos rfl]
  have hsame : s'.stopped iface = s.stopped iface := by
    refine NetState.ext (funext fun name => ?_) (funext fun j => ?_) (by rw [← hremove]; rfl)
    · rw [NetState.stopped_ifindex, NetState.stopped_ifindex, hifb, ← hname]
      exact ite_eq_right_iff.mpr Eq.symm
    · rw [NetState.stopped_devices, NetState.stopped_devices, hifb, hdevice]
      by_cases hj : j = s.ifindex ifbName
      · rw [if_pos hj, if_pos hj, Option.map_none, ite_self, ite_self]
      · rw [if_neg hj, if_neg hj]
        by_cases hzero : j = 0
        · simp [hzero, s.zero]
        · rw [if_neg hzero, hname]
          by_cases hiface : s.ifindex iface = s.ifindex ifbName
          · rw [if_pos hiface, hiface, if_neg hzero, if_neg hj]
          · rw [if_neg hiface]
  refine ⟨hsame.trans h.stopped, ?_⟩
  by_cases hi : i = s.ifindex ifbName
  · exact .inr (.inr (by rw [hdevice, if_pos hi]))
  · rcases h.reached with hiface | hupload | hnone
    · refine .inl ?_
      rw [hname, hiface, if_neg hi]
    · exact absurd hupload.symm hi
    · exact .inr (.inr (by rw [hdevice, if_neg hi, hnone]))

/-- The shell commands act on the device whose name is one plain word. -/
theorem onText_word (hword : shellWord iface = some iface) (call : StartCall)
    (f : NetDevice → NetDevice) (s : NetState) :
    env.onText call iface f s = env.onDevice call (s.ifindex iface) f s := by
  rw [StartEnv.onText, StartEnv.target, env.named_word iface iface hword]
  rfl

/-- One call of a start or a stop is nothing to a complete stop. -/
theorem StopAbsorbs.exec {β : Type} (hword : shellWord iface = some iface)
    (h : StopAbsorbs t iface i s) (op : StartOp β) (hop : op.OnInterface iface i) : StopAbsorbs t iface i (env.exec s op).2 := by
  have hiface := NetState.reached_iface s iface
  have hifb := NetState.reached_ifb s iface
  cases op with
  | bridgeIndex | openObject | modprobeIfb | ifbIndex | getIfbIdx | getPortalCfg => exact h
  | mkdir =>
    rw [StartEnv.exec]
    split
    · exact h
    · refine h.pins rfl rfl ?_
      cases s.pinDir with
      | none => rfl
      | some p => rfl
  | loadObject =>
    rw [StartEnv.exec]
    split
    · exact h
    · exact h.modifyPins fun p => rfl
  | hookCreate j =>
    obtain rfl : j.toUInt32 = i := hop
    exact h.onDevice _ h.reached (.inr fun d => rfl)
  | attachIngress j =>
    obtain rfl : j.toUInt32 = i := hop
    exact h.attach _ _
  | attachEgress j =>
    obtain rfl : j.toUInt32 = i := hop
    exact h.attach _ _
  | setTxqueuelen name | replaceRoot name | delClsact name | delRoot name | resetTxqueuelen name =>
    obtain rfl : name = iface := hop
    rw [StartEnv.exec, onText_word hword]
    exact h.onDevice _ hiface (.inr fun d => rfl)
  | addIfb =>
    rw [StartEnv.exec]
    split
    · exact h
    · next hnone =>
      simp only [Bool.or_eq_true, decide_eq_true_eq, not_or, not_not, Bool.not_eq_true,
        Option.isSome_eq_false_iff, Option.isNone_iff_eq_none] at hnone
      exact h.addIfb hnone.1.2 hnone.2
  | upIfb | replaceIfbRoot => exact h.onDevice _ hifb (.inl rfl)
  | updateIfbIdx | updatePortalCfg =>
    rw [StartEnv.exec, StartEnv.updatePinned]
    split
    · exact h
    · exact h.modifyPins fun p => rfl
  | unlink map =>
    rw [StartEnv.exec]
    split
    · exact h
    · exact h.modifyPins fun p => rfl
  | rmdir =>
    rw [StartEnv.exec]
    split
    · exact h
    · next hnone =>
      refine h.pins rfl rfl ?_
      cases hp : s.pinDir with
      | none => rfl
      | some p =>
        have hothers : p.others = false := by
          rw [hp] at hnone
          simp only [PinDir.isEmpty, Option.any_some] at hnone
          grind
        simp [PinDir.swept, hothers]
  | delIfb =>
    rw [StartEnv.exec]
    split
    · exact h
    · exact h.delIfb

/-! ## Programs -/

theorem only_unlinkMaps (maps : List MapName) :
    Only (StartOp.OnInterface iface i) (unlinkMaps maps) := by
  induction maps with
  | nil => exact only_pure _
  | cons map maps ih => exact (only_perform trivial).bind fun _ => ih

theorem only_hgCleanMaps : Only (StartOp.OnInterface iface i) hgCleanMaps :=
  (only_unlinkMaps pinnedMaps).bind fun _ => (only_perform trivial).bind fun _ => only_pure _

theorem only_stopAction : Only (StartOp.OnInterface iface i) (stopAction iface) :=
  (only_perform rfl).bind fun _ => (only_perform trivial).bind fun _ =>
    (only_perform rfl).bind fun _ => (only_perform rfl).bind fun _ =>
      only_hgCleanMaps.bind fun _ => only_pure _

theorem only_failStart : Only (StartOp.OnInterface iface i) (failStart iface) :=
  Only.bind
    ((only_perform rfl).bind fun _ => only_hgCleanMaps.bind fun _ =>
      (only_perform trivial).bind fun _ => (only_perform rfl).bind fun _ =>
        (only_perform rfl).bind fun _ => only_pure _)
    fun _ => only_pure _

/-- A step of a start that runs the clean-up if it fails. -/
theorem only_stepOrFail {op : StartOp Bool} {next : Starter Bool} (hop : op.OnInterface iface i)
    (hnext : Only (StartOp.OnInterface iface i) next) :
    Only (StartOp.OnInterface iface i)
      (do if ← host op then next else failStart iface) := by
  refine (only_perform hop).bind fun ok => ?_
  cases ok with
  | true => exact hnext
  | false => exact only_failStart

theorem only_startPortal (portalIp : CString) (portalPort : UInt16) :
    Only (StartOp.OnInterface iface i) (startPortal iface portalIp portalPort) := by
  refine only_stepOrFail trivial ?_
  cases inetPton portalIp with
  | none => exact only_failStart
  | some addr => exact only_stepOrFail trivial (only_pure true)

theorem only_startUpload (portalIp : CString) (portalPort : UInt16) :
    Only (StartOp.OnInterface iface i) (startUpload iface portalIp portalPort) := by
  refine (only_perform trivial).bind fun _ => (only_perform trivial).bind fun _ =>
    (only_perform trivial).bind fun _ => only_stepOrFail trivial ?_
  refine (only_perform trivial).bind fun ifbIfindex => ?_
  by_cases hzero : ifbIfindex = 0
  · rw [if_pos hzero]
    exact only_failStart
  · rw [if_neg hzero]
    exact only_stepOrFail trivial (only_stepOrFail trivial (only_startPortal portalIp portalPort))

theorem only_startHooks {ifindex : Int32} (hindex : ifindex.toUInt32 = i) (portalIp : CString)
    (portalPort : UInt16) :
    Only (StartOp.OnInterface iface i) (startHooks ifindex iface portalIp portalPort) :=
  only_stepOrFail hindex <| only_stepOrFail hindex <| only_stepOrFail hindex <|
    only_stepOrFail rfl <| only_stepOrFail rfl <| only_startUpload portalIp portalPort

end

section
variable (env : StartEnv) (s : NetState) (iface : CString)

/-- A start whose programs go to the interface is nothing to a complete stop of it. -/
theorem stopped_start (hword : shellWord iface = some iface) (portalIp : CString)
    (portalPort : UInt16) (hindex : env.hookIndex s iface = s.ifindex iface) :
    (env.start s iface portalIp portalPort).2.stopped iface = s.stopped iface := by
  have hs : StopAbsorbs s iface (s.ifindex iface) s := ⟨rfl, s.reached_iface iface⟩
  rw [StartEnv.start, startAction, Prog.run_bind, run_getIfindex, hindex]
  dsimp only
  refine (Only.run_inv (P := StartOp.OnInterface iface (s.ifindex iface)) (fun _ op h hop =>
    h.exec hword op hop) ?_ hs).stopped
  split
  · exact only_pure _
  · refine (only_perform trivial).bind fun ok => ?_
    cases ok with
    | false => exact only_pure _
    | true =>
      refine (only_perform trivial).bind fun ok => ?_
      cases ok with
      | false => exact only_pure _
      | true =>
        refine (only_perform trivial).bind fun ok => ?_
        cases ok with
        | false => exact only_pure _
        | true => exact only_startHooks rfl portalIp portalPort

/-- A stop is nothing to a complete stop, wherever it failed. -/
theorem stopped_stop (hword : shellWord iface = some iface) :
    (env.stop s iface).2.stopped iface = s.stopped iface := by
  have hs : StopAbsorbs s iface (s.ifindex iface) s := ⟨rfl, s.reached_iface iface⟩
  exact (Only.run_inv (fun _ op h hop => h.exec hword op hop) only_stopAction hs).stopped

/-! ## The complete stop -/

theorem run_unlinkMaps_none (maps : List MapName) (h : s.pinDir = none) :
    (Prog.run env.exec s (unlinkMaps maps)).2 = s := by
  have hcall : ∀ map, (env.exec s (.unlink map)).2 = s := by
    intro map
    rw [StartEnv.exec]
    split
    · rfl
    · exact NetState.ext rfl rfl (by rw [NetState.modifyPins, h]; rfl)
  induction maps with
  | nil => rfl
  | cons map maps ih =>
    rw [unlinkMaps, host, Prog.run_bind, Prog.run_perform, hcall]
    exact ih

variable {env} {s}

theorem pins_hgCleanMaps (hok : ∀ call, env.fails call = false) (p : PinDir)
    (hp : (Prog.run env.exec s hgCleanMaps).2.pinDir = some p) :
    p.others = true ∧ ∀ map, p.maps map = none := by
  cases hdir : s.pinDir with
  | none =>
    rw [hgCleanMaps, Prog.run_bind, run_unlinkMaps_none env s pinnedMaps hdir, host,
      Prog.run_bind, Prog.run_perform, StartEnv.exec, hdir, hok] at hp
    cases hp
  | some q =>
    rw [run_hgCleanMaps env hdir] at hp
    have hmaps : ∀ map, (env.unlinked pinnedMaps q).maps map = none := fun map =>
      if_pos ⟨mem_pinnedMaps map, hok _⟩
    unfold StartEnv.cleanPins at hp
    split at hp
    · next hleft =>
      cases hp
      refine ⟨?_, hmaps⟩
      rw [hok, Bool.false_or, Bool.not_eq_true', PinDir.isEmpty] at hleft
      by_contra hothers
      rw [Bool.not_eq_true] at hothers
      simp [hothers, hmaps] at hleft
    · cases hp

/-- Whether calls of it fail or not, `hg_clean_maps` changes the pins only. -/
theorem run_hgCleanMaps_frame :
    (Prog.run env.exec s hgCleanMaps).2.ifindex = s.ifindex ∧
      (Prog.run env.exec s hgCleanMaps).2.devices = s.devices := by
  cases hdir : s.pinDir with
  | none =>
    rw [hgCleanMaps, Prog.run_bind, run_unlinkMaps_none env s pinnedMaps hdir, host,
      Prog.run_bind, Prog.run_perform, StartEnv.exec]
    split
    · exact ⟨rfl, rfl⟩
    · exact ⟨rfl, rfl⟩
  | some q =>
    rw [run_hgCleanMaps env hdir]
    exact ⟨rfl, rfl⟩

theorem clean_stop (hword : shellWord iface = some iface)
    (hok : ∀ call, env.fails call = false) : (env.stop s iface).2.Clean iface := by
  have hstop : (env.stop s iface).2 =
      (Prog.run env.exec (env.exec (env.exec (env.exec (env.exec s (.delClsact iface)).2 .delIfb).2
        (.delRoot iface)).2 (.resetTxqueuelen iface)).2 hgCleanMaps).2 := by
    simp only [StartEnv.stop, stopAction, host, Prog.run_bind, Prog.run_perform, Prog.run_pure]
  generalize hs₁ : (env.exec s (.delClsact iface)).2 = s₁ at hstop
  generalize hs₂ : (env.exec s₁ .delIfb).2 = s₂ at hstop
  generalize hs₃ : (env.exec s₂ (.delRoot iface)).2 = s₃ at hstop
  generalize hs₄ : (env.exec s₃ (.resetTxqueuelen iface)).2 = s₄ at hstop
  have hframe : (Prog.run env.exec s₄ hgCleanMaps).2.ifindex = s₄.ifindex ∧
      (Prog.run env.exec s₄ hgCleanMaps).2.devices = s₄.devices := run_hgCleanMaps_frame
  obtain ⟨hindex, hdevices⟩ := hframe
  rw [← hstop] at hindex hdevices
  have hindex₁ : s₁.ifindex = s.ifindex := by
    rw [← hs₁, StartEnv.exec, onText_word hword, onDevice_ifindex]
  have hindex₃ : s₃.ifindex = s₂.ifindex := by
    rw [← hs₃, StartEnv.exec, onText_word hword, onDevice_ifindex]
  have hindex₄ : s₄.ifindex = s₃.ifindex := by
    rw [← hs₄, StartEnv.exec, onText_word hword, onDevice_ifindex]
  have hifb : s₂.ifindex ifbName = 0 := by
    rw [← hs₂, exec_delIfb_ifindex, if_pos ⟨rfl, hok _⟩]
  refine ⟨by rw [hindex, hindex₄, hindex₃, hifb], ?_, fun p hp => ?_⟩
  · intro d hd
    rw [NetState.device, hindex, hdevices, hindex₄, hindex₃] at hd
    -- the interface still has its index, unless it was the device for uploads
    have hclsact : ∀ d, s₂.devices (s₂.ifindex iface) = some d → d.clsact = none := by
      intro d hd
      rw [← hs₂, exec_delIfb_devices, exec_delIfb_ifindex] at hd
      by_cases hsame : s₁.ifindex iface = s₁.ifindex ifbName
      · rw [if_pos (And.intro hsame (hok .delIfb)), s₁.zero, ite_self] at hd
        cases hd
      · have hkept : ¬ (s₁.ifindex iface = s₁.ifindex ifbName ∧ env.fails .delIfb = false) :=
          fun h => hsame h.1
        rw [if_neg hkept, if_neg hkept, hindex₁, ← hs₁, StartEnv.exec, onText_word hword, onDevice_devices,
          if_pos ⟨rfl, hok _⟩] at hd
        obtain ⟨d', -, rfl⟩ := Option.map_eq_some_iff.mp hd
        rfl
    rw [← hs₄, StartEnv.exec, onText_word hword, onDevice_devices, hindex₃, if_pos ⟨rfl, hok _⟩] at hd
    obtain ⟨d₃, hd₃, rfl⟩ := Option.map_eq_some_iff.mp hd
    rw [← hs₃, StartEnv.exec, onText_word hword, onDevice_devices, if_pos ⟨rfl, hok _⟩] at hd₃
    obtain ⟨d₂, hd₂, rfl⟩ := Option.map_eq_some_iff.mp hd₃
    have hnone := hclsact d₂ hd₂
    rw [NetDevice.bare]
    simp [hnone]
  · rw [hstop] at hp
    exact pins_hgCleanMaps hok p hp

/-- A stop of which no call fails. -/
theorem stop_eq (hword : shellWord iface = some iface) (hok : ∀ call, env.fails call = false) :
    env.stop s iface = (true, s.stopped iface) := by
  have hstate : (env.stop s iface).2 = s.stopped iface := by
    rw [← (clean_stop iface hword hok).stopped_eq, stopped_stop env s iface hword]
  refine Prod.ext ?_ hstate
  simp only [StartEnv.stop, stopAction, host, Prog.run_bind, Prog.run_perform, Prog.run_pure]

end

/-! ## Histories -/

/-- What was done about the interface, and on what host. -/
inductive HostCommand where
  | start (env : StartEnv) (portalIp : CString) (portalPort : UInt16)
  | stop (env : StartEnv)

/-- A history of an interface, one command at a time. -/
def HostCommand.step (iface : CString) (s : NetState) : HostCommand → NetState
  | .start env portalIp portalPort => (env.start s iface portalIp portalPort).2
  | .stop env => (env.stop s iface).2

/-- The programs of a start go to the interface that was named. -/
def HostCommand.FindsInterface (iface : CString) (s : NetState) : HostCommand → Prop
  | .start env _ _ => env.hookIndex s iface = s.ifindex iface
  | .stop _ => True

/-- A host with a bridge that never was a gateway. -/
def bareHost : NetState := bridgeHost.stopped "br0".toList

end HawkGate
