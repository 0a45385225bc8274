-- SUMMARY: What the clean-up of a start leaves of the devices and the pinned maps.
import HawkGate.Control.Start
import Mathlib.Data.List.Basic

/-!
# The clean-up of a start

Once the object is loaded every failure of a start runs the same clean-up, which
removes what the start may have made whether or not it made it, and only from
the interface that was named. What was there before is gone then, and only a
host without any of it is left as it was. Here the state before each step and
the state after the clean-up are written down, field by field.
-/

namespace HawkGate

open CString

/-! ## The step that fails -/

/-- The steps of a start, in order. To add the device for uploads and to bring it up may fail. -/
inductive StartStep where
  | bridgeIndex | mkdir | openObject | loadObject | hookCreate | attachIngress | attachEgress
  | setTxqueuelen | replaceRoot | addIfb | upIfb | replaceIfbRoot | ifbIndex | getIfbIdx
  | updateIfbIdx | getPortalCfg | portalIp | updatePortalCfg
  deriving DecidableEq

def StartStep.all : List StartStep :=
  [.bridgeIndex, .mkdir, .openObject, .loadObject, .hookCreate, .attachIngress, .attachEgress,
    .setTxqueuelen, .replaceRoot, .addIfb, .upIfb, .replaceIfbRoot, .ifbIndex, .getIfbIdx,
    .updateIfbIdx, .getPortalCfg, .portalIp, .updatePortalCfg]

/-- No later step. -/
instance : LE StartStep := ⟨fun a b => a.ctorIdx ≤ b.ctorIdx⟩

instance (a b : StartStep) : Decidable (a ≤ b) := inferInstanceAs (Decidable (_ ≤ _))

/-- The device that gets the programs: without an index for the interface it is the first one. -/
def StartEnv.hookIndex (env : StartEnv) (s : NetState) (iface : CString) : UInt32 :=
  if env.fails .bridgeIndex || s.ifindex iface = 0 then 1 else s.ifindex iface

/-- The index of the device for uploads once it should have been added, 0 if there is none. -/
def StartEnv.ifbIndex (env : StartEnv) (s : NetState) : UInt32 :=
  if s.ifindex ifbName ≠ 0 then s.ifindex ifbName
  else if env.fails .addIfb || (s.devices env.newIfbIndex).isSome then 0 else env.newIfbIndex

/-- The step makes the start fail when it is reached. -/
def StartEnv.failsAt (env : StartEnv) (s : NetState) (iface portalIp : CString) :
    StartStep → Bool
  | .bridgeIndex => !env.fails .bridgeIndex && (s.ifindex iface).toInt32 < 0
  | .mkdir => env.fails .mkdir
  | .openObject => env.fails .openObject
  | .loadObject => env.fails .loadObject
  | .hookCreate => env.fails .hookCreate || (s.devices (env.hookIndex s iface)).isNone
  | .attachIngress => env.fails .attachIngress
  | .attachEgress => env.fails .attachEgress
  | .setTxqueuelen => env.fails .setTxqueuelen || env.target s iface = 0
  | .replaceRoot => env.fails .replaceRoot
  | .addIfb | .upIfb => false
  | .replaceIfbRoot => env.fails .replaceIfbRoot || env.ifbIndex s = 0
  | .ifbIndex => env.fails .ifbIndex
  | .getIfbIdx => env.fails .getIfbIdx
  | .updateIfbIdx => env.fails .updateIfbIdx
  | .getPortalCfg => env.fails .getPortalCfg
  | .portalIp => (inetPton portalIp).isNone
  | .updatePortalCfg => env.fails .updatePortalCfg

/-- The first step that fails. -/
def StartEnv.failure (env : StartEnv) (s : NetState) (iface portalIp : CString) :
    Option StartStep :=
  StartStep.all.find? (env.failsAt s iface portalIp)

/-! ## When nothing is lost -/

/-- The hooks are as they were before the failing step. -/
def HooksUntouched (c : Option Hooks) (step : StartStep) : Prop :=
  step = .hookCreate ∨ (step = .attachIngress ∧ c ≠ none)

/-- The device for uploads is as it was before the failing step. -/
def IfbUntouched (env : StartEnv) (s : NetState) (iface : CString) (step : StartStep) : Prop :=
  match s.device ifbName with
  | none => step ≤ .addIfb ∨ env.ifbIndex s = 0
  | some b =>
    (step ≤ .upIfb ∨ env.fails .upIfb = true ∨ b.up = true) ∧
      (step ≤ .replaceIfbRoot ∨ env.target s iface = s.ifindex ifbName ∨ b.root = some .fq)

/-- A pinned map is as it was before the failing step. -/
def MapUntouched (env : StartEnv) (s : NetState) (step : StartStep) (map : MapName)
    (m : Option PinnedMap) : Prop :=
  m ≠ none ∧ (map = .hgIfbIdx → step ≤ .updateIfbIdx ∨ m = some (.ifbIdx (env.ifbIndex s)))

/-- The clean-up removes the pins that were not there before. -/
def PinsHarmless (env : StartEnv) (s : NetState) (step : StartStep) : Prop :=
  match s.pinDir with
  | none => env.fails .rmdir = false ∧ ∀ map, env.fails (.unlink map) = false
  | some p =>
    (∀ map, if env.fails (.unlink map) then MapUntouched env s step map (p.maps map)
      else p.maps map = none) ∧
      (env.fails .rmdir = true ∨ p.others = true ∨ ∃ map, env.fails (.unlink map) = true)

/-- Each thing that the clean-up removes or resets was not there before; where it does not reach a
    thing or its call fails, the start has not touched the thing. The shell commands of both go to
    the device that they name. -/
structure CleanupHarmless (env : StartEnv) (s : NetState) (iface : CString) (step : StartStep) :
    Prop where
  hooks : ∀ i d, s.devices i = some d →
    if i = env.target s iface ∧ env.fails .delClsact = false then d.clsact = none
    else i = env.hookIndex s iface → HooksUntouched d.clsact step
  root : ∀ d, s.devices (env.target s iface) = some d →
    if env.fails .delRoot then step ≤ .replaceRoot ∨ d.root = some .fq else d.root = none
  txqueuelen : ∀ d, s.devices (env.target s iface) = some d →
    if env.fails .resetTxqueuelen then step ≤ .setTxqueuelen ∨ d.txqueuelen = 1000
    else d.txqueuelen = 0
  ifb : if env.fails .delIfb then IfbUntouched env s iface step else s.ifindex ifbName = 0
  pins : PinsHarmless env s step

/-- The start succeeds, fails before it changes anything, or cleans up nothing but its own, with
    commands that the shell lets act on one device. -/
def StartHarmless (env : StartEnv) (s : NetState) (iface portalIp : CString) : Prop :=
  match env.failure s iface portalIp with
  | none | some .bridgeIndex | some .mkdir => True
  | some .openObject | some .loadObject => s.pinDir ≠ none
  | some step => (env.named iface).isSome = true ∧ CleanupHarmless env s iface step

/-! ## The clean-up -/

section
variable (env : StartEnv) {s s' : NetState} {iface : CString}
variable {d : NetDevice} {p : PinDir} {step : StartStep}

/-- The interface after the clean-up. -/
def StartEnv.cleanDevice (d : NetDevice) : NetDevice :=
  { d with
    clsact := if env.fails .delClsact then d.clsact else none
    root := if env.fails .delRoot then d.root else none
    txqueuelen := if env.fails .resetTxqueuelen then d.txqueuelen else 0 }

/-- The pins after some of them were to be removed. -/
def StartEnv.unlinked (maps : List MapName) (p : PinDir) : PinDir where
  maps := fun map => if map ∈ maps ∧ env.fails (.unlink map) = false then none else p.maps map
  others := p.others

/-- The pin directory after the clean-up; it goes if nothing is left in it. -/
def StartEnv.cleanPins (p : PinDir) : Option PinDir :=
  if env.fails .rmdir || !(env.unlinked pinnedMaps p).isEmpty then
    some (env.unlinked pinnedMaps p) else none

/-- A call changes its device only, and nothing if it fails. -/
theorem onDevice_devices (call : StartCall) (i : UInt32) (f : NetDevice → NetDevice) (j : UInt32) :
    (env.onDevice call i f s).2.devices j =
      if j = i ∧ env.fails call = false then (s.devices j).map f else s.devices j := by
  unfold StartEnv.onDevice
  cases hfails : env.fails call with
  | true => simp
  | false =>
    cases hd : s.devices i with
    | some d => simp [NetState.modify]
    | none =>
      by_cases hj : j = i
      · subst hj
        simp [hd]
      · simp [hj]

@[simp] theorem onDevice_ifindex (call : StartCall) (i : UInt32) (f : NetDevice → NetDevice) :
    (env.onDevice call i f s).2.ifindex = s.ifindex := by
  unfold StartEnv.onDevice
  split
  · rfl
  · rfl

@[simp] theorem onDevice_pinDir (call : StartCall) (i : UInt32) (f : NetDevice → NetDevice) :
    (env.onDevice call i f s).2.pinDir = s.pinDir := by
  unfold StartEnv.onDevice
  split
  · rfl
  · rfl

/-- One more pin is removed. -/
theorem exec_unlink_state (map : MapName) (h : s.pinDir = some p) :
    (env.exec s (.unlink map)).2 = { s with pinDir := some (env.unlinked [map] p) } := by
  rw [StartEnv.exec]
  cases hfails : env.fails (.unlink map) with
  | true =>
    have hself : env.unlinked [map] p = p := by
      simp only [StartEnv.unlinked, List.mem_singleton]
      congr 1
      funext other
      rw [if_neg]
      rintro ⟨rfl, hok⟩
      rw [hfails] at hok
      cases hok
    rw [hself, ← h]
    rfl
  | false =>
    have hset : p.setMap map none = env.unlinked [map] p := by
      simp only [StartEnv.unlinked, PinDir.setMap, List.mem_singleton]
      congr 1
      funext other
      by_cases ho : other = map
      · subst ho
        simp [hfails]
      · simp [ho]
    rw [← hset]
    simp [NetState.modifyPins, h]

theorem run_unlinkMaps (maps : List MapName) (h : s.pinDir = some p) :
    (Prog.run env.exec s (unlinkMaps maps)).2 =
      { s with pinDir := some (env.unlinked maps p) } := by
  induction maps generalizing s p with
  | nil =>
    have hself : env.unlinked [] p = p := by simp [StartEnv.unlinked]
    rw [hself, ← h]
    rfl
  | cons map maps ih =>
    have hboth : env.unlinked maps (env.unlinked [map] p) = env.unlinked (map :: maps) p := by
      simp only [StartEnv.unlinked, List.mem_cons]
      congr 1
      funext other
      grind
    rw [unlinkMaps, host, Prog.run_bind, Prog.run_perform, exec_unlink_state env map h, ih rfl,
      hboth]

theorem run_hgCleanMaps (h : s.pinDir = some p) :
    (Prog.run env.exec s hgCleanMaps).2 = { s with pinDir := env.cleanPins p } := by
  rw [hgCleanMaps, Prog.run_bind, run_unlinkMaps env pinnedMaps h, host, Prog.run_bind,
    Prog.run_perform, StartEnv.exec, StartEnv.cleanPins]
  simp only [Option.any_some]
  split
  · rfl
  · rfl

theorem exec_delIfb_ifindex (name : CString) :
    (env.exec s .delIfb).2.ifindex name =
      if s.ifindex name = s.ifindex ifbName ∧ env.fails .delIfb = false then 0
      else s.ifindex name := by
  rw [StartEnv.exec]
  cases env.fails .delIfb with
  | true => simp
  | false => simp [NetState.removeDevice]

theorem exec_delIfb_devices (i : UInt32) :
    (env.exec s .delIfb).2.devices i =
      if i = s.ifindex ifbName ∧ env.fails .delIfb = false then none else s.devices i := by
  rw [StartEnv.exec]
  cases env.fails .delIfb with
  | true => simp
  | false =>
    by_cases hi : i = s.ifindex ifbName
    · simp [NetState.removeDevice, hi]
    · simp [NetState.removeDevice, hi]

/-- A text that names a device makes the shell commands calls on that device. -/
theorem onText_eq (hnamed : (env.named iface).isSome = true) (call : StartCall)
    (f : NetDevice → NetDevice) :
    env.onText call iface f s = env.onDevice call (env.target s iface) f s := by
  obtain ⟨w, hw⟩ := Option.isSome_iff_exists.mp hnamed
  rw [StartEnv.onText, hw]

theorem devices_target (h : env.target s iface ≠ 0) : s.devices (env.target s iface) ≠ none := by
  unfold StartEnv.target at h ⊢
  cases hw : env.named iface with
  | none =>
    rw [hw] at h
    exact absurd rfl h
  | some w =>
    rw [hw] at h
    exact s.known w h

theorem target_congr (h : s'.ifindex = s.ifindex) (text : CString) :
    env.target s' text = env.target s text := by
  rw [StartEnv.target, h]
  rfl

/-- What is named after the device for uploads is removed with it. -/
theorem target_delIfb (text : CString) :
    env.target (env.exec s .delIfb).2 text =
      if env.target s text = s.ifindex ifbName ∧ env.fails .delIfb = false then 0
      else env.target s text := by
  unfold StartEnv.target
  cases env.named text with
  | none => exact (ite_self 0).symm
  | some w => exact exec_delIfb_ifindex env w

/-- Every failure of a loaded start ends in the same clean-up. -/
theorem run_failStart (hnamed : (env.named iface).isSome = true) (hpins : s'.pinDir = some p) :
    ∃ s'', Prog.run env.exec s' (failStart iface) = (false, s'') ∧
      (∀ name, s''.ifindex name =
        if s'.ifindex name = s'.ifindex ifbName ∧ env.fails .delIfb = false then 0
        else s'.ifindex name) ∧
      (∀ i, s''.devices i =
        if i = s'.ifindex ifbName ∧ env.fails .delIfb = false then none
        else if i = env.target s' iface then (s'.devices i).map env.cleanDevice
        else s'.devices i) ∧
      s''.pinDir = env.cleanPins p := by
  obtain ⟨s₁, hs₁⟩ : ∃ s₁, s₁ = (env.exec s' (.delClsact iface)).2 := ⟨_, rfl⟩
  have hexec₁ := congrArg Prod.snd (onText_eq env (s := s') hnamed .delClsact
    fun d => { d with clsact := none })
  have hindex₁ : s₁.ifindex = s'.ifindex := by rw [hs₁, StartEnv.exec, hexec₁, onDevice_ifindex]
  have hpins₁ : s₁.pinDir = some p := by rw [hs₁, StartEnv.exec, hexec₁, onDevice_pinDir, hpins]
  obtain ⟨s₂, hs₂⟩ : ∃ s₂ : NetState, s₂ = { s₁ with pinDir := env.cleanPins p } := ⟨_, rfl⟩
  obtain ⟨s₃, hs₃⟩ : ∃ s₃, s₃ = (env.exec s₂ .delIfb).2 := ⟨_, rfl⟩
  obtain ⟨s₄, hs₄⟩ : ∃ s₄, s₄ = (env.exec s₃ (.delRoot iface)).2 := ⟨_, rfl⟩
  have hrun : Prog.run env.exec s' (failStart iface) =
      (false, (env.exec s₄ (.resetTxqueuelen iface)).2) := by
    rw [failStart, Prog.run_bind, cleanupOnFailure]
    simp only [host, Prog.run_bind, Prog.run_perform, Prog.run_pure]
    rw [← hs₁, run_hgCleanMaps env hpins₁, ← hs₂, ← hs₃, ← hs₄]
  have hexec₄ := congrArg Prod.snd (onText_eq env (s := s₃) hnamed .delRoot
    fun d => { d with root := none })
  have hexec₅ := congrArg Prod.snd (onText_eq env (s := s₄) hnamed .resetTxqueuelen
    fun d => { d with txqueuelen := 0 })
  have hindex₂ : s₂.ifindex = s'.ifindex := by rw [hs₂, ← hindex₁]
  have hindex₃ : ∀ name, s₃.ifindex name =
      if s'.ifindex name = s'.ifindex ifbName ∧ env.fails .delIfb = false then 0
      else s'.ifindex name := by
    intro name
    rw [hs₃, exec_delIfb_ifindex, hindex₂]
  have hindex₄ : s₄.ifindex = s₃.ifindex := by rw [hs₄, StartEnv.exec, hexec₄, onDevice_ifindex]
  have htarget₃ : env.target s₃ iface =
      if env.target s' iface = s'.ifindex ifbName ∧ env.fails .delIfb = false then 0
      else env.target s' iface := by
    rw [hs₃, target_delIfb, hindex₂, target_congr env hindex₂]
  refine ⟨_, hrun, fun name => ?_, fun i => ?_, ?_⟩
  · rw [StartEnv.exec, hexec₅, onDevice_ifindex, hindex₄, hindex₃]
  · have hfirst : s₂.devices i = if i = env.target s' iface ∧ env.fails .delClsact = false then
        (s'.devices i).map fun d => { d with clsact := none } else s'.devices i := by
      rw [hs₂, hs₁, StartEnv.exec, hexec₁, onDevice_devices]
    rw [StartEnv.exec, hexec₅, onDevice_devices, target_congr env hindex₄, hs₄, StartEnv.exec,
      hexec₄, onDevice_devices, htarget₃, hs₃, exec_delIfb_devices, hindex₂, hfirst]
    by_cases hgone : i = s'.ifindex ifbName ∧ env.fails .delIfb = false
    · simp [hgone]
    · by_cases hi : i = env.target s' iface
      · subst hi
        simp only [hgone, if_false, if_true, true_and]
        cases s'.devices (env.target s' iface) with
        | none => simp
        | some d =>
          cases hclsact : env.fails .delClsact
          all_goals cases hroot : env.fails .delRoot
          all_goals cases hqueue : env.fails .resetTxqueuelen
          all_goals simp [StartEnv.cleanDevice, hclsact, hroot, hqueue]
      · by_cases hzero : i = 0
        · -- the interface may have gone with the device for uploads
          subst hzero
          simp [s'.zero]
        · have hother : i ≠ if env.target s' iface = s'.ifindex ifbName ∧ env.fails .delIfb = false
              then 0 else env.target s' iface := by
            split
            · exact hzero
            · exact hi
          simp [hgone, hi, hother]
  · have hdel : (env.exec s₂ .delIfb).2.pinDir = s₂.pinDir := by
      rw [StartEnv.exec]
      split
      · rfl
      · rfl
    rw [StartEnv.exec, hexec₅, onDevice_pinDir, hs₄, StartEnv.exec, hexec₄, onDevice_pinDir, hs₃,
      hdel, hs₂]

/-! ## Pins -/

theorem unlinked_maps (map : MapName) :
    (env.unlinked pinnedMaps p).maps map =
      if env.fails (.unlink map) then p.maps map else none := by
  simp only [StartEnv.unlinked, mem_pinnedMaps, true_and]
  cases env.fails (.unlink map) with
  | true => simp
  | false => simp

/-- When every map is pinned, the directory is empty exactly if all of them could be removed. -/
theorem isEmpty_unlinked (hall : ∀ map, p.maps map ≠ none) :
    (env.unlinked pinnedMaps p).isEmpty = true ↔
      p.others = false ∧ ∀ map, env.fails (.unlink map) = false := by
  have hnone : ∀ map, ((env.unlinked pinnedMaps p).maps map).isNone = true ↔
      env.fails (.unlink map) = false := by
    intro map
    rw [unlinked_maps]
    cases env.fails (.unlink map) with
    | true => simp [hall map]
    | false => simp
  rw [PinDir.isEmpty, Bool.and_eq_true, List.all_eq_true]
  refine and_congr (by simp [StartEnv.unlinked]) ⟨fun h map => ?_, fun h map _ => ?_⟩
  · exact (hnone map).mp (h map (mem_pinnedMaps map))
  · exact (hnone map).mpr (h map)

/-- The pins are restored exactly if the clean-up harms none, where every map is pinned and the
    start has changed only what the step says. -/
theorem cleanPins_eq_iff (hall : ∀ map, p.maps map ≠ none)
    (hothers : p.others = s.pinDir.any PinDir.others)
    (hmap : ∀ q ∈ s.pinDir, ∀ map,
      p.maps map = q.maps map ↔ MapUntouched env s step map (q.maps map)) :
    env.cleanPins p = s.pinDir ↔ PinsHarmless env s step := by
  have hempty := isEmpty_unlinked env hall
  unfold StartEnv.cleanPins PinsHarmless
  cases hdir : s.pinDir with
  | none =>
    rw [hdir] at hothers
    simp only [Option.any_none] at hothers
    dsimp only
    rw [ite_eq_right_iff, hothers] at *
    simp only [reduceCtorEq, imp_false, Bool.or_eq_true, Bool.not_eq_true', not_or,
      Bool.not_eq_true, Bool.not_eq_false, hempty, true_and]
  | some q =>
    rw [hdir] at hothers
    simp only [Option.any_some] at hothers
    have hkeep : env.unlinked pinnedMaps p = q ↔ ∀ map, if env.fails (.unlink map) then
        MapUntouched env s step map (q.maps map) else q.maps map = none := by
      have hmaps : env.unlinked pinnedMaps p = q ↔
          (env.unlinked pinnedMaps p).maps = q.maps := by
        refine ⟨fun h => by rw [h], fun h => ?_⟩
        exact PinDir.ext h hothers
      rw [hmaps, funext_iff]
      refine forall_congr' fun map => ?_
      rw [unlinked_maps]
      split
      · exact hmap q hdir map
      · exact eq_comm
    have hstays : env.fails .rmdir = true ∨ (env.unlinked pinnedMaps p).isEmpty = false ↔
        env.fails .rmdir = true ∨ q.others = true ∨ ∃ map, env.fails (.unlink map) = true := by
      rw [← Bool.not_eq_true, hempty, hothers]
      simp only [not_and_or, Bool.not_eq_false, not_forall]
    dsimp only
    rw [← hkeep, ← hstays]
    cases hrm : env.fails .rmdir with
    | true => simp
    | false =>
      cases hleft : (env.unlinked pinnedMaps p).isEmpty with
      | true => simp
      | false => simp

/-! ## Up to the failing step -/

/-- The hooks when the start takes the step. -/
def StartEnv.hooksAt (c : Option Hooks) : StartStep → Option Hooks
  | .bridgeIndex | .mkdir | .openObject | .loadObject | .hookCreate => c
  | .attachIngress => some (c.getD ⟨[], []⟩)
  | .attachEgress => some
      { c.getD ⟨[], []⟩ with ingress := (c.getD ⟨[], []⟩).ingress ++ [env.ingressProg] }
  | _ => some
      { ingress := (c.getD ⟨[], []⟩).ingress ++ [env.ingressProg]
        egress := (c.getD ⟨[], []⟩).egress ++ [env.egressProg] }

/-- A device when the start takes the step. -/
def StartEnv.changed (s : NetState) (iface : CString) (step : StartStep) (i : UInt32)
    (d : NetDevice) : NetDevice where
  up := if step ≤ .upIfb then d.up
    else d.up || decide (i = env.ifbIndex s) && !env.fails .upIfb
  txqueuelen := if step ≤ .setTxqueuelen then d.txqueuelen
    else if i = env.target s iface then 1000 else d.txqueuelen
  root := if step ≤ .replaceRoot then d.root
    else if i = env.target s iface then some .fq
    else if step ≤ .replaceIfbRoot then d.root
    else if i = env.ifbIndex s then some .fq else d.root
  clsact := if i = env.hookIndex s iface then env.hooksAt d.clsact step else d.clsact

/-- The devices when the start takes the step, but for what it has changed. -/
def StartEnv.present (s : NetState) (step : StartStep) (i : UInt32) : Option NetDevice :=
  if step ≤ .addIfb then s.devices i
  else if s.ifindex ifbName = 0 ∧ env.ifbIndex s ≠ 0 ∧ i = env.ifbIndex s then some env.newIfb
  else s.devices i

def StartEnv.ifindexAt (s : NetState) (step : StartStep) : CString → UInt32 :=
  if step ≤ .addIfb then s.ifindex else Function.update s.ifindex ifbName (env.ifbIndex s)

/-- The pins when the start takes the step. -/
def StartEnv.pinsAt (s : NetState) (step : StartStep) : PinDir :=
  let p := env.loaded (s.pinDir.getD ⟨fun _ => none, false⟩)
  if step ≤ .updateIfbIdx then p
  else p.setMap .hgIfbIdx (some (.ifbIdx (env.ifbIndex s)))

/-- The start is about to take the step; the calls before it have found their devices, and the
    shell commands name one. -/
structure At (s s' : NetState) (iface : CString) (step : StartStep) : Prop where
  named : (env.named iface).isSome = true
  loaded : .hookCreate ≤ step
  hook : step ≤ .hookCreate ∨ s.devices (env.hookIndex s iface) ≠ none
  bridge : step ≤ .setTxqueuelen ∨ env.target s iface ≠ 0
  ifb : step ≤ .replaceIfbRoot ∨ env.ifbIndex s ≠ 0
  ifindex : s'.ifindex = env.ifindexAt s step
  devices : ∀ i, s'.devices i = (env.present s step i).map (env.changed s iface step i)
  pins : s'.pinDir = some (env.pinsAt s step)

theorem hooksAt_eq_iff {c : Option Hooks} (hstep : .hookCreate ≤ step) :
    env.hooksAt c step = c ↔ HooksUntouched c step := by
  unfold HooksUntouched
  cases step with
  | bridgeIndex | mkdir | openObject | loadObject => exact absurd hstep (by decide)
  | hookCreate => simp [StartEnv.hooksAt]
  | attachIngress => cases c <;> simp [StartEnv.hooksAt]
  | attachEgress | setTxqueuelen | replaceRoot | addIfb | upIfb | replaceIfbRoot | ifbIndex
  | getIfbIdx | updateIfbIdx | getPortalCfg | portalIp | updatePortalCfg =>
    obtain - | ⟨ingress, egress⟩ := c
    · simp [StartEnv.hooksAt]
    · simp [StartEnv.hooksAt]

theorem pinsAt_others (step : StartStep) :
    (env.pinsAt s step).others = s.pinDir.any PinDir.others := by
  unfold StartEnv.pinsAt
  cases s.pinDir with
  | none => split <;> rfl
  | some q => split <;> rfl

/-- Every map is pinned once the object is loaded. -/
theorem pinsAt_maps_ne_none (map : MapName) : (env.pinsAt s step).maps map ≠ none := by
  unfold StartEnv.pinsAt
  dsimp only
  split
  · simp [StartEnv.loaded]
  · by_cases hmap : map = .hgIfbIdx
    · subst hmap
      simp [PinDir.setMap]
    · simp [PinDir.setMap, hmap, StartEnv.loaded]

theorem pinsAt_maps_eq_iff {q : PinDir} (hq : s.pinDir = some q) (map : MapName) :
    (env.pinsAt s step).maps map = q.maps map ↔ MapUntouched env s step map (q.maps map) := by
  have hloaded : (env.loaded q).maps map = q.maps map ↔ q.maps map ≠ none := by
    cases hm : q.maps map with
    | none => simp [StartEnv.loaded, hm]
    | some m => simp [StartEnv.loaded, hm]
  unfold StartEnv.pinsAt MapUntouched
  rw [hq]
  dsimp only [Option.getD_some]
  split
  · next hearly => simp [hloaded, hearly]
  · next hlate =>
    by_cases hmap : map = .hgIfbIdx
    · subst hmap
      simp only [PinDir.setMap, Function.update_self, true_implies, hlate, false_or]
      grind
    · simp only [PinDir.setMap, Function.update_of_ne hmap, hloaded, hmap, false_implies, and_true]

/-! ## What the clean-up restores -/

/-- A failed run leaves the state as it was. -/
def KeepsIfFailed (s : NetState) (r : Bool × NetState) : Prop := r.1 = false → r.2 = s

theorem ifbIndex_of_ne (h : s.ifindex ifbName ≠ 0) : env.ifbIndex s = s.ifindex ifbName := by
  rw [StartEnv.ifbIndex, if_pos h]

/-- A device that is to be added gets an index that is free. -/
theorem devices_ifbIndex (h : s.ifindex ifbName = 0) : s.devices (env.ifbIndex s) = none := by
  rw [StartEnv.ifbIndex, if_neg (not_not_intro h)]
  split
  · exact s.zero
  · next hfree =>
    simp only [Bool.or_eq_true, not_or, Bool.not_eq_true, Option.isSome_eq_false_iff,
      Option.isNone_iff_eq_none] at hfree
    exact hfree.2

theorem At.target (h : At env s s' iface step) : env.target s' iface = env.target s iface := by
  unfold StartEnv.target
  cases hw : env.named iface with
  | none => rfl
  | some w =>
    change s'.ifindex w = s.ifindex w
    rw [h.ifindex, StartEnv.ifindexAt]
    split
    · rfl
    · next hlate =>
      have hne : s.ifindex w ≠ 0 := by
        have hbridge := h.bridge.resolve_left fun hearly => hlate
          (Nat.le_trans hearly (by decide))
        rwa [StartEnv.target, hw] at hbridge
      by_cases hname : w = ifbName
      · subst hname
        rw [Function.update_self, ifbIndex_of_ne env hne]
      · rw [Function.update_of_ne hname]

/-- The names are restored exactly if no device was added that stays, and none went that was there. -/
theorem ifindex_restored_iff (h : At env s s' iface step) :
    (∀ name, (if s'.ifindex name = s'.ifindex ifbName ∧ env.fails .delIfb = false then 0
      else s'.ifindex name) = s.ifindex name) ↔
      if env.fails .delIfb then step ≤ .addIfb ∨ env.ifbIndex s = s.ifindex ifbName
      else s.ifindex ifbName = 0 := by
  cases hfails : env.fails .delIfb with
  | true =>
    simp only [Bool.true_eq_false, and_false, if_false, if_true]
    rw [h.ifindex, ← funext_iff, StartEnv.ifindexAt]
    split
    · next hearly => simp [hearly]
    · next hlate => simp [hlate, Function.update_eq_self_iff]
  | false =>
    simp only [and_true, Bool.false_eq_true, if_false]
    constructor
    · intro hall
      have hifb := hall ifbName
      rw [if_pos rfl] at hifb
      exact hifb.symm
    · intro hzero name
      rw [h.ifindex, StartEnv.ifindexAt]
      split
      · rw [hzero]
        split
        · next heq => exact heq.symm
        · rfl
      · by_cases hname : name = ifbName
        · subst hname
          rw [if_pos rfl, hzero]
        · rw [Function.update_of_ne hname, Function.update_self]
          split
          · next heq =>
            by_contra hne
            exact s.known name (Ne.symm hne) (heq ▸ devices_ifbIndex env hzero)
          · rfl

/-- A device after the clean-up. -/
def StartEnv.cleaned (s : NetState) (iface : CString) (step : StartStep) (i : UInt32)
    (d : NetDevice) : NetDevice :=
  if i = env.target s iface then env.cleanDevice (env.changed s iface step i d)
  else env.changed s iface step i d

/-- The devices are restored exactly if each one is that was there before. -/
theorem devices_restored_iff (h : At env s s' iface step)
    (hnames : if env.fails .delIfb then step ≤ .addIfb ∨ env.ifbIndex s = s.ifindex ifbName
      else s.ifindex ifbName = 0) :
    (∀ i, (if i = s'.ifindex ifbName ∧ env.fails .delIfb = false then none
      else if i = env.target s' iface then (s'.devices i).map env.cleanDevice else s'.devices i) =
      s.devices i) ↔
      ∀ i d, s.devices i = some d → env.cleaned s iface step i d = d := by
  have hdev : ∀ i, (if i = s'.ifindex ifbName ∧ env.fails .delIfb = false then none
      else if i = env.target s' iface then (s'.devices i).map env.cleanDevice else s'.devices i) =
      (s.devices i).map (env.cleaned s iface step i) := by
    intro i
    have hifb : s'.ifindex ifbName = env.ifindexAt s step ifbName := by rw [h.ifindex]
    by_cases hgone : i = s'.ifindex ifbName ∧ env.fails .delIfb = false
    · rw [if_pos hgone]
      rw [hgone.2, if_neg Bool.false_ne_true] at hnames
      have hnone : s.devices i = none := by
        rw [hgone.1, hifb, StartEnv.ifindexAt]
        split
        · rw [hnames, s.zero]
        · rw [Function.update_self, devices_ifbIndex env hnames]
      rw [hnone, Option.map_none]
    · rw [if_neg hgone]
      have hpresent : env.present s step i = s.devices i := by
        unfold StartEnv.present
        split
        · rfl
        · next hlate =>
          rw [if_neg]
          rintro ⟨hzero, hne, rfl⟩
          cases hfails : env.fails .delIfb with
          | true =>
            rw [hfails, if_pos rfl] at hnames
            exact hne ((hnames.resolve_left hlate).trans hzero)
          | false =>
            refine hgone ⟨?_, hfails⟩
            rw [hifb, StartEnv.ifindexAt, if_neg hlate, Function.update_self]
      rw [h.devices, hpresent, h.target]
      unfold StartEnv.cleaned
      split
      · rw [Option.map_map]
        rfl
      · rfl
  simp only [hdev]
  refine forall_congr' fun i => ?_
  cases s.devices i with
  | none => simp
  | some d => simp

theorem cleaned_eq (i : UInt32) (d : NetDevice) :
    env.cleaned s iface step i d =
      { env.changed s iface step i d with
        txqueuelen := if i = env.target s iface ∧ env.fails .resetTxqueuelen = false then 0
          else (env.changed s iface step i d).txqueuelen
        root := if i = env.target s iface ∧ env.fails .delRoot = false then none
          else (env.changed s iface step i d).root
        clsact := if i = env.target s iface ∧ env.fails .delClsact = false then none
          else (env.changed s iface step i d).clsact } := by
  unfold StartEnv.cleaned StartEnv.cleanDevice
  by_cases hi : i = env.target s iface
  · simp only [hi, if_true, true_and, ← Bool.not_eq_true, ite_not]
  · simp only [hi, if_false, false_and]

theorem cleaned_up_iff (i : UInt32) (d : NetDevice) :
    (env.cleaned s iface step i d).up = d.up ↔
      (i = env.ifbIndex s → step ≤ .upIfb ∨ env.fails .upIfb = true ∨ d.up = true) := by
  rw [cleaned_eq]
  dsimp only [StartEnv.changed]
  by_cases hearly : step ≤ .upIfb
  · simp [hearly]
  · by_cases hifb : i = env.ifbIndex s
    · simp only [hearly, hifb, if_false, decide_true, Bool.true_and, true_implies, false_or]
      cases env.fails .upIfb with
      | true => simp
      | false => simp
    · simp [hearly, hifb]

theorem cleaned_txqueuelen_iff (i : UInt32) (d : NetDevice) :
    (env.cleaned s iface step i d).txqueuelen = d.txqueuelen ↔
      (i = env.target s iface →
        if env.fails .resetTxqueuelen then step ≤ .setTxqueuelen ∨ d.txqueuelen = 1000
        else d.txqueuelen = 0) := by
  rw [cleaned_eq]
  dsimp only [StartEnv.changed]
  by_cases hi : i = env.target s iface
  · cases env.fails .resetTxqueuelen with
    | true =>
      by_cases hearly : step ≤ .setTxqueuelen
      · simp [hi, hearly]
      · simp [hi, hearly, @eq_comm _ 1000]
    | false => simp [hi, @eq_comm _ 0]
  · simp [hi]

theorem cleaned_root_iff (i : UInt32) (d : NetDevice) :
    (env.cleaned s iface step i d).root = d.root ↔
      (i = env.target s iface →
        if env.fails .delRoot then step ≤ .replaceRoot ∨ d.root = some .fq else d.root = none) ∧
      (i = env.ifbIndex s →
        step ≤ .replaceIfbRoot ∨ i = env.target s iface ∨ d.root = some .fq) := by
  have hle : step ≤ .replaceRoot → step ≤ .replaceIfbRoot :=
    fun hearly => Nat.le_trans hearly (by decide)
  rw [cleaned_eq]
  dsimp only [StartEnv.changed]
  by_cases hi : i = env.target s iface
  · cases env.fails .delRoot with
    | true =>
      by_cases hearly : step ≤ .replaceRoot
      · simp [hi, hearly]
      · simp [hi, hearly, @eq_comm _ (some Qdisc.fq)]
    | false => simp [hi, @eq_comm _ none]
  · by_cases hearly : step ≤ .replaceRoot
    · simp [hi, hearly, hle hearly]
    · by_cases hmid : step ≤ .replaceIfbRoot
      · simp [hi, hearly, hmid]
      · by_cases hifb : i = env.ifbIndex s
        · rw [hifb] at hi
          simp [hi, hearly, hmid, hifb, @eq_comm _ (some Qdisc.fq)]
        · simp [hi, hearly, hmid, hifb]

theorem cleaned_clsact_iff (hstep : .hookCreate ≤ step) (i : UInt32) (d : NetDevice) :
    (env.cleaned s iface step i d).clsact = d.clsact ↔
      if i = env.target s iface ∧ env.fails .delClsact = false then d.clsact = none
      else i = env.hookIndex s iface → HooksUntouched d.clsact step := by
  rw [← hooksAt_eq_iff env hstep, cleaned_eq]
  dsimp only [StartEnv.changed]
  by_cases hcleaned : i = env.target s iface ∧ env.fails .delClsact = false
  · rw [if_pos hcleaned, if_pos hcleaned]
    exact eq_comm
  · rw [if_neg hcleaned, if_neg hcleaned]
    by_cases hhook : i = env.hookIndex s iface
    · simp [hhook]
    · simp [hhook]

/-- What the clean-up must leave of a device that was there before. -/
theorem cleaned_eq_iff (hstep : .hookCreate ≤ step) (i : UInt32) (d : NetDevice) :
    env.cleaned s iface step i d = d ↔
      (if i = env.target s iface ∧ env.fails .delClsact = false then d.clsact = none
        else i = env.hookIndex s iface → HooksUntouched d.clsact step) ∧
      (i = env.target s iface →
        if env.fails .delRoot then step ≤ .replaceRoot ∨ d.root = some .fq else d.root = none) ∧
      (i = env.target s iface →
        if env.fails .resetTxqueuelen then step ≤ .setTxqueuelen ∨ d.txqueuelen = 1000
        else d.txqueuelen = 0) ∧
      (i = env.ifbIndex s → step ≤ .upIfb ∨ env.fails .upIfb = true ∨ d.up = true) ∧
      (i = env.ifbIndex s →
        step ≤ .replaceIfbRoot ∨ i = env.target s iface ∨ d.root = some .fq) := by
  rw [NetDevice.ext_iff, cleaned_up_iff, cleaned_txqueuelen_iff, cleaned_root_iff,
    cleaned_clsact_iff env hstep]
  constructor
  · rintro ⟨hup, hqueue, ⟨hroot, hifb⟩, hhooks⟩
    exact ⟨hhooks, hroot, hqueue, hup, hifb⟩
  · rintro ⟨hhooks, hroot, hqueue, hup, hifb⟩
    exact ⟨hup, hqueue, ⟨hroot, hifb⟩, hhooks⟩

/-- What becomes of the device for uploads. -/
theorem ifb_restored_iff (iface : CString) :
    ((if env.fails .delIfb then step ≤ .addIfb ∨ env.ifbIndex s = s.ifindex ifbName
        else s.ifindex ifbName = 0) ∧
      ∀ i d, s.devices i = some d →
        (i = env.ifbIndex s → step ≤ .upIfb ∨ env.fails .upIfb = true ∨ d.up = true) ∧
        (i = env.ifbIndex s →
          step ≤ .replaceIfbRoot ∨ i = env.target s iface ∨ d.root = some .fq)) ↔
      if env.fails .delIfb then IfbUntouched env s iface step else s.ifindex ifbName = 0 := by
  unfold IfbUntouched
  cases hb : s.device ifbName with
  | none =>
    have hzero := (s.device_eq_none_iff ifbName).mp hb
    have hfree := devices_ifbIndex env hzero
    rw [hzero, and_iff_left]
    intro i d hd
    have hne : i ≠ env.ifbIndex s := by
      rintro rfl
      rw [hfree] at hd
      cases hd
    exact ⟨fun heq => absurd heq hne, fun heq => absurd heq hne⟩
  | some b =>
    have hne : s.ifindex ifbName ≠ 0 := by
      rw [Ne, ← s.device_eq_none_iff, hb]
      exact Option.some_ne_none b
    rw [ifbIndex_of_ne env hne]
    cases env.fails .delIfb with
    | true =>
      simp only [if_true, or_true, true_and]
      constructor
      · intro hall
        obtain ⟨hup, hroot⟩ := hall _ b hb
        refine ⟨hup rfl, (hroot rfl).imp_right (Or.imp_left Eq.symm)⟩
      · rintro ⟨hup, hroot⟩ i d hd
        constructor
        · rintro rfl
          obtain rfl := Option.some.inj (hb.symm.trans hd)
          exact hup
        · rintro rfl
          obtain rfl := Option.some.inj (hb.symm.trans hd)
          exact hroot.imp_right (Or.imp_left Eq.symm)
    | false => simp [hne]

/-- A step that fails leaves the state as it was exactly if its clean-up is harmless. -/
theorem keepsIfFailed_failStart_iff (h : At env s s' iface step) :
    KeepsIfFailed s (Prog.run env.exec s' (failStart iface)) ↔
      CleanupHarmless env s iface step := by
  obtain ⟨s'', hrun, hindex, hdevices, hpins⟩ := run_failStart env h.named h.pins
  have hsame : s'' = s ↔
      (∀ name, s''.ifindex name = s.ifindex name) ∧ (∀ i, s''.devices i = s.devices i) ∧
        s''.pinDir = s.pinDir := by
    rw [NetState.ext_iff, funext_iff, funext_iff]
  have hnames : (∀ name, s''.ifindex name = s.ifindex name) ↔
      if env.fails .delIfb then step ≤ .addIfb ∨ env.ifbIndex s = s.ifindex ifbName
      else s.ifindex ifbName = 0 := by
    simp only [hindex]
    exact ifindex_restored_iff env h
  have hpinned : s''.pinDir = s.pinDir ↔ PinsHarmless env s step := by
    rw [hpins]
    exact cleanPins_eq_iff env (pinsAt_maps_ne_none env) (pinsAt_others env step)
      fun q hq map => pinsAt_maps_eq_iff env hq map
  rw [hrun]
  constructor
  · intro hkeeps
    obtain ⟨hname, hdevice, hpin⟩ := hsame.mp (hkeeps rfl)
    have hstays := hnames.mp hname
    have hall := (devices_restored_iff env h hstays).mp fun i => by rw [← hdevices, hdevice]
    have hfields := fun i d hd => (cleaned_eq_iff env h.loaded i d).mp (hall i d hd)
    refine ⟨fun i d hd => (hfields i d hd).1, fun d hd => (hfields _ d hd).2.1 rfl,
      fun d hd => (hfields _ d hd).2.2.1 rfl, ?_, hpinned.mp hpin⟩
    exact (ifb_restored_iff env iface).mp ⟨hstays, fun i d hd => (hfields i d hd).2.2.2⟩
  · rintro ⟨hhooks, hroot, hqueue, hifb, hpin⟩ -
    obtain ⟨hstays, hifb⟩ := (ifb_restored_iff env iface).mpr hifb
    refine hsame.mpr ⟨hnames.mpr hstays, fun i => ?_, hpinned.mpr hpin⟩
    rw [hdevices]
    refine (devices_restored_iff env h hstays).mpr (fun i d hd => ?_) i
    refine (cleaned_eq_iff env h.loaded i d).mpr ⟨hhooks i d hd, ?_, ?_, hifb i d hd⟩
    · rintro rfl
      exact hroot d hd
    · rintro rfl
      exact hqueue d hd

end

end HawkGate
