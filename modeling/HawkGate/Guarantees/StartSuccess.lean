-- SUMMARY: What a successful start leaves on a machine: the programs, the devices, the pins and the contents of the maps.
import HawkGate.Guarantees.StopCleanup
import HawkGate.System.Node

/-!
# Successful starts

A start that succeeds has had every one of its calls answered, except the three
that it makes best effort, so the state that it leaves can be followed call by
call. Maps that were pinned before keep what they hold.
-/

namespace HawkGate

open CString Prog Transition

variable {ncpu : Nat}

/-! ## One call -/

section
variable {σ : Type} {h : ∀ {β : Type}, σ → StartOp β → β × σ} {s s' : σ} {iface : CString}

/-- If the start succeeds, so did the step. -/
theorem run_stepOrFail_true {op : StartOp Bool} {next : Starter Bool}
    (hrun : Prog.run h s (do if ← host op then next else failStart iface) = (true, s')) :
    (h s op).1 = true ∧ Prog.run h (h s op).2 next = (true, s') := by
  rw [host, Prog.run_bind, Prog.run_perform] at hrun
  cases hok : (h s op).1 with
  | true =>
    rw [hok, if_pos rfl] at hrun
    exact ⟨rfl, hrun⟩
  | false =>
    rw [hok, if_neg Bool.false_ne_true, failStart, Prog.run_bind, Prog.run_pure] at hrun
    cases hrun

/-- A step before the object is loaded. -/
theorem run_stepOrFalse_true {op : StartOp Bool} {next : Starter Bool}
    (hrun : Prog.run h s (do if ← host op then next else pure false) = (true, s')) :
    (h s op).1 = true ∧ Prog.run h (h s op).2 next = (true, s') := by
  rw [host, Prog.run_bind, Prog.run_perform] at hrun
  cases hok : (h s op).1 with
  | true =>
    rw [hok, if_pos rfl] at hrun
    exact ⟨rfl, hrun⟩
  | false =>
    rw [hok, if_neg Bool.false_ne_true, Prog.run_pure] at hrun
    cases hrun

end

section
variable {env : StartEnv} {s : NetState}

theorem onDevice_true {call : StartCall} {i : UInt32} {f : NetDevice → NetDevice}
    (h : (env.onDevice call i f s).1 = true) :
    s.devices i ≠ none ∧ (env.onDevice call i f s).2 = s.modify i f := by
  unfold StartEnv.onDevice at h ⊢
  split at h
  · cases h
  · next hok =>
    rw [if_neg hok]
    simp only [Bool.or_eq_true, not_or, Option.isNone_iff_eq_none] at hok
    exact ⟨hok.2, rfl⟩

theorem onText_true {iface : CString} (hword : shellWord iface = some iface) {call : StartCall}
    {f : NetDevice → NetDevice} (h : (env.onText call iface f s).1 = true) :
    s.devices (s.ifindex iface) ≠ none ∧
      (env.onText call iface f s).2 = s.modify (s.ifindex iface) f := by
  rw [onText_word hword] at h ⊢
  exact onDevice_true h

theorem attach_true {call : StartCall} {i : UInt32} {f : Hooks → Hooks}
    (h : (env.attach call i f s).1 = true) :
    (env.attach call i f s).2 = s.modify i fun d => { d with clsact := d.clsact.map f } := by
  unfold StartEnv.attach at h ⊢
  split at h
  · cases h
  · next hok =>
    rw [if_neg hok]
    exact (onDevice_true h).2

end

section
variable {env : StartEnv} {s : NetState}

theorem updatePinned_true {call : StartCall} {map : MapName} {m : PinnedMap}
    (h : (env.updatePinned call map m s).1 = true) :
    (env.updatePinned call map m s).2 = s.modifyPins fun p => p.setMap map (some m) := by
  unfold StartEnv.updatePinned at h ⊢
  split at h
  · cases h
  · next hok => rw [if_neg hok]

theorem ifNametoindex_ne {call : StartCall} {name : CString}
    (h : env.ifNametoindex call name s ≠ 0) : env.ifNametoindex call name s = s.ifindex name := by
  unfold StartEnv.ifNametoindex at h ⊢
  split at h
  · exact absurd rfl h
  · next hok => rw [if_neg hok]

end

theorem NetState.modify_modify (s : NetState) (i : UInt32) (f g : NetDevice → NetDevice) :
    (s.modify i f).modify i g = s.modify i (g ∘ f) := by
  refine NetState.ext rfl (funext fun j => ?_) rfl
  simp only [NetState.modify]
  by_cases hj : j = i
  · rw [if_pos hj, if_pos hj, if_pos hj, Option.map_map]
  · rw [if_neg hj, if_neg hj, if_neg hj]

/-! ## The device for uploads -/

/-- The device for uploads is there, it shapes, and nothing else was changed. -/
structure WithIfb (s s' : NetState) (ifb : UInt32) : Prop where
  index : s'.ifindex ifbName = ifb
  root : (s'.devices ifb).bind NetDevice.root = some .fq
  others : ∀ i, i ≠ ifb → s'.devices i = s.devices i
  names : ∀ name, name ≠ ifbName → s'.ifindex name = s.ifindex name
  free : s.devices ifb = none
  pinDir : s'.pinDir = s.pinDir

/-- The three calls that set up the device; the last one tells whether they did. -/
theorem withIfb_of_root {env : StartEnv} {s : NetState} (hclean : s.ifindex ifbName = 0)
    (h : (env.exec (env.exec (env.exec s .addIfb).2 .upIfb).2 .replaceIfbRoot).1 = true) :
    ∃ ifb, ifb ≠ 0 ∧
      WithIfb s (env.exec (env.exec (env.exec s .addIfb).2 .upIfb).2 .replaceIfbRoot).2 ifb := by
  generalize hs₁ : (env.exec s .addIfb).2 = s₁ at h ⊢
  generalize hs₂ : (env.exec s₁ .upIfb).2 = s₂ at h ⊢
  obtain ⟨hdevice, hroot⟩ := onDevice_true h
  have hindex₂ : s₂.ifindex = s₁.ifindex := hs₂ ▸ onDevice_ifindex env _ _ _
  -- without the device the last call would have failed
  have hadd : s₁ = s.addDevice ifbName env.newIfbIndex env.newIfbIndex_ne env.newIfb ∧
      s.devices env.newIfbIndex = none := by
    rw [StartEnv.exec] at hs₁
    split at hs₁
    · refine absurd ?_ hdevice
      rw [hindex₂, ← hs₁, hclean, s₂.zero]
    · next hok =>
      simp only [Bool.or_eq_true, not_or, Bool.not_eq_true, Option.isSome_eq_false_iff,
        Option.isNone_iff_eq_none] at hok
      exact ⟨hs₁.symm, hok.2⟩
  obtain ⟨hadd, hfree⟩ := hadd
  have hindex : s₂.ifindex ifbName = env.newIfbIndex := by
    rw [hindex₂, hadd]
    exact Function.update_self ifbName env.newIfbIndex s.ifindex
  have hup : ∀ i, i ≠ env.newIfbIndex → s₂.devices i = s.devices i := by
    intro i hi
    have hindex₁ : s₁.ifindex ifbName = env.newIfbIndex := by rw [← hindex₂, hindex]
    rw [← hs₂, StartEnv.exec, onDevice_devices, hindex₁, if_neg fun h => hi h.1, hadd]
    exact Function.update_of_ne hi (some env.newIfb) s.devices
  rw [StartEnv.exec, hroot]
  refine ⟨env.newIfbIndex, env.newIfbIndex_ne, hindex, ?_, fun i hi => ?_, fun name hname => ?_,
    hfree, ?_⟩
  · obtain ⟨d, hd⟩ := Option.ne_none_iff_exists'.mp hdevice
    rw [hindex] at hd
    simp [NetState.modify, hindex, hd]
  · rw [← hup i hi]
    exact if_neg (by rwa [hindex])
  · change s₂.ifindex name = _
    rw [hindex₂, hadd]
    exact Function.update_of_ne hname env.newIfbIndex s.ifindex
  · change s₂.pinDir = _
    rw [← hs₂, StartEnv.exec, onDevice_pinDir, hadd]
    rfl

/-! ## The whole start -/

/-- The interface with the two programs behind those that it had, and with its queue. -/
def StartEnv.serving (env : StartEnv) (d : NetDevice) : NetDevice :=
  { d with
    txqueuelen := 1000
    root := some .fq
    clsact :=
      some ⟨(d.clsact.getD ⟨[], []⟩).ingress ++ [env.ingressProg],
        (d.clsact.getD ⟨[], []⟩).egress ++ [env.egressProg]⟩ }

/-- The pins once the object is loaded and the two indices are written. -/
def StartEnv.pinned (env : StartEnv) (p : PinDir) (ifb : UInt32) (portal : HgPortalCfg) : PinDir :=
  ((env.loaded p).setMap .hgIfbIdx (some (.ifbIdx ifb))).setMap .hgPortalCfg
    (some (.portalCfg portal))

theorem pinned_ne_none (env : StartEnv) (p : PinDir) (ifb : UInt32) (portal : HgPortalCfg)
    (map : MapName) : (env.pinned p ifb portal).maps map ≠ none := by
  simp only [StartEnv.pinned, PinDir.setMap, StartEnv.loaded, Function.update_apply]
  split
  · exact Option.some_ne_none _
  · split
    · exact Option.some_ne_none _
    · exact Option.some_ne_none _

/-- What a start has made of the devices and the pins. -/
structure Started (env : StartEnv) (s s' : NetState) (iface : CString) (ifb : UInt32)
    (portal : HgPortalCfg) : Prop where
  ifb_ne : ifb ≠ 0
  index : s'.ifindex ifbName = ifb
  free : s.devices ifb = none
  root : (s'.devices ifb).bind NetDevice.root = some .fq
  names : ∀ name, name ≠ ifbName → s'.ifindex name = s.ifindex name
  device : ∃ d, s.device iface = some d ∧ s'.device iface = some (env.serving d)
  others : ∀ i, i ≠ ifb → i ≠ s.ifindex iface → s'.devices i = s.devices i
  pins : s'.pinDir = some (env.pinned (s.pinDir.getD ⟨fun _ => none, false⟩) ifb portal)

section
variable {env : StartEnv} {n n' : Node ncpu} {iface portalIp : CString} {portalPort : UInt16}

theorem maps_startExec {op : StartOp Bool} (h : (Node.startExec env n op).1 = true) :
    (Node.startExec env n op).2.maps = op.writes n true :=
  congrArg (op.writes n) h

theorem startPortal_true
    (hrun : Prog.run (Node.startExec env) n (startPortal iface portalIp portalPort) = (true, n')) :
    ∃ addr, inetPton portalIp = some addr ∧
      n'.net = n.net.modifyPins (fun p =>
        p.setMap .hgPortalCfg (some (.portalCfg ⟨addr, Bytes.swap16 portalPort⟩))) ∧
      n'.maps = { n.maps with portalCfg := some ⟨addr, Bytes.swap16 portalPort⟩ } := by
  obtain ⟨-, hrun⟩ := run_stepOrFail_true hrun
  cases haddr : inetPton portalIp with
  | none =>
    rw [haddr] at hrun
    simp only [failStart, Prog.run_bind, Prog.run_pure] at hrun
    cases hrun
  | some addr =>
    rw [haddr] at hrun
    obtain ⟨hok, hrun⟩ := run_stepOrFail_true hrun
    cases hrun
    exact ⟨addr, rfl, updatePinned_true hok, maps_startExec hok⟩

theorem startUpload_true (hclean : n.net.ifindex ifbName = 0)
    (hrun : Prog.run (Node.startExec env) n (startUpload iface portalIp portalPort) = (true, n')) :
    ∃ addr ifb s, inetPton portalIp = some addr ∧ ifb ≠ 0 ∧ WithIfb n.net s ifb ∧
      n'.net = s.modifyPins (fun p => (p.setMap .hgIfbIdx (some (.ifbIdx ifb))).setMap .hgPortalCfg
        (some (.portalCfg ⟨addr, Bytes.swap16 portalPort⟩))) ∧
      n'.maps = { n.maps with
        ifbIdx := some ifb
        portalCfg := some ⟨addr, Bytes.swap16 portalPort⟩ } := by
  simp only [startUpload, host, Prog.run_bind, Prog.run_perform] at hrun
  obtain ⟨hroot, hrun⟩ := run_stepOrFail_true hrun
  obtain ⟨ifb, hne, hifb⟩ := withIfb_of_root hclean hroot
  generalize hn₁ : (Node.startExec env (Node.startExec env (Node.startExec env (Node.startExec env n
    .modprobeIfb).2 .addIfb).2 .upIfb).2 .replaceIfbRoot).2 = n₁ at hrun
  have hnet₁ : n₁.net =
      (env.exec (env.exec (env.exec n.net .addIfb).2 .upIfb).2 .replaceIfbRoot).2 := by
    rw [← hn₁]
    rfl
  have hmaps₁ : n₁.maps = n.maps := by
    rw [← hn₁]
    rfl
  rw [← hnet₁] at hifb
  rw [Prog.run_bind, Prog.run_perform] at hrun
  change Prog.run (Node.startExec env) n₁ (if env.ifNametoindex .ifbIndex ifbName n₁.net = 0 then _
    else _) = _ at hrun
  by_cases hzero : env.ifNametoindex .ifbIndex ifbName n₁.net = 0
  · rw [if_pos hzero, failStart, Prog.run_bind, Prog.run_pure] at hrun
    cases hrun
  · have hindex : (Node.startExec env n₁ .ifbIndex).1 = ifb :=
      (ifNametoindex_ne hzero).trans hifb.index
    rw [if_neg hzero, hindex] at hrun
    obtain ⟨-, hrun⟩ := run_stepOrFail_true hrun
    have hsame : (Node.startExec env n₁ .getIfbIdx).2 = n₁ := rfl
    rw [hsame] at hrun
    obtain ⟨hok, hrun⟩ := run_stepOrFail_true hrun
    have hnet₂ : (Node.startExec env n₁ (.updateIfbIdx ifb)).2.net =
        n₁.net.modifyPins fun p => p.setMap .hgIfbIdx (some (.ifbIdx ifb)) := updatePinned_true hok
    have hmaps₂ : (Node.startExec env n₁ (.updateIfbIdx ifb)).2.maps =
        { n₁.maps with ifbIdx := some ifb } := maps_startExec hok
    generalize (Node.startExec env n₁ (.updateIfbIdx ifb)).2 = n₂ at hnet₂ hmaps₂ hrun
    obtain ⟨addr, haddr, hnet, hmaps⟩ := startPortal_true hrun
    refine ⟨addr, ifb, n₁.net, haddr, hne, hifb, ?_, ?_⟩
    · rw [hnet, hnet₂]
      simp only [NetState.modifyPins, Option.map_map]
      rfl
    · rw [hmaps, hmaps₂, hmaps₁]

/-- The steps on the interface itself. -/
theorem startHooks_true {ifindex : Int32} (hword : shellWord iface = some iface)
    (hindex : ifindex.toUInt32 = n.net.ifindex iface)
    (hclean : n.net.ifindex ifbName = 0)
    (hrun : Prog.run (Node.startExec env) n (startHooks ifindex iface portalIp portalPort) =
      (true, n')) :
    ∃ addr ifb s, inetPton portalIp = some addr ∧ ifb ≠ 0 ∧
      n.net.devices (n.net.ifindex iface) ≠ none ∧
      WithIfb (n.net.modify (n.net.ifindex iface) env.serving) s ifb ∧
      n'.net = s.modifyPins (fun p => (p.setMap .hgIfbIdx (some (.ifbIdx ifb))).setMap .hgPortalCfg
        (some (.portalCfg ⟨addr, Bytes.swap16 portalPort⟩))) ∧
      n'.maps = { n.maps with
        ifbIdx := some ifb
        portalCfg := some ⟨addr, Bytes.swap16 portalPort⟩ } := by
  obtain ⟨hcreate, hrun⟩ := run_stepOrFail_true hrun
  have hnet₁ := (onDevice_true hcreate).2
  change (Node.startExec env n (.hookCreate ifindex)).2.net = _ at hnet₁
  have hmaps₁ : (Node.startExec env n (.hookCreate ifindex)).2.maps = n.maps := rfl
  generalize (Node.startExec env n (.hookCreate ifindex)).2 = n₁ at hnet₁ hmaps₁ hrun
  obtain ⟨hingress, hrun⟩ := run_stepOrFail_true hrun
  have hnet₂ := attach_true hingress
  change (Node.startExec env n₁ (.attachIngress ifindex)).2.net = _ at hnet₂
  have hmaps₂ : (Node.startExec env n₁ (.attachIngress ifindex)).2.maps = n₁.maps := rfl
  generalize (Node.startExec env n₁ (.attachIngress ifindex)).2 = n₂ at hnet₂ hmaps₂ hrun
  obtain ⟨hegress, hrun⟩ := run_stepOrFail_true hrun
  have hnet₃ := attach_true hegress
  change (Node.startExec env n₂ (.attachEgress ifindex)).2.net = _ at hnet₃
  have hmaps₃ : (Node.startExec env n₂ (.attachEgress ifindex)).2.maps = n₂.maps := rfl
  generalize (Node.startExec env n₂ (.attachEgress ifindex)).2 = n₃ at hnet₃ hmaps₃ hrun
  obtain ⟨htxqueuelen, hrun⟩ := run_stepOrFail_true hrun
  have hnet₄ := (onText_true hword htxqueuelen).2
  change (Node.startExec env n₃ (.setTxqueuelen iface)).2.net = _ at hnet₄
  have hmaps₄ : (Node.startExec env n₃ (.setTxqueuelen iface)).2.maps = n₃.maps := rfl
  generalize (Node.startExec env n₃ (.setTxqueuelen iface)).2 = n₄ at hnet₄ hmaps₄ hrun
  obtain ⟨hroot, hrun⟩ := run_stepOrFail_true hrun
  have hnet₅ := (onText_true hword hroot).2
  change (Node.startExec env n₄ (.replaceRoot iface)).2.net = _ at hnet₅
  have hmaps₅ : (Node.startExec env n₄ (.replaceRoot iface)).2.maps = n₄.maps := rfl
  generalize (Node.startExec env n₄ (.replaceRoot iface)).2 = n₅ at hnet₅ hmaps₅ hrun
  have hserving : n₅.net = n.net.modify (n.net.ifindex iface) env.serving := by
    have hindex₃ : n₃.net.ifindex iface = n.net.ifindex iface := by rw [hnet₃, hnet₂, hnet₁]; rfl
    have hindex₄ : n₄.net.ifindex iface = n.net.ifindex iface := by rw [hnet₄]; exact hindex₃
    rw [hnet₅, hindex₄, hnet₄, hindex₃, hnet₃, hnet₂, hnet₁, hindex]
    simp only [NetState.modify_modify]
    rfl
  have hclean₅ : n₅.net.ifindex ifbName = 0 := by
    rw [hserving]
    exact hclean
  obtain ⟨addr, ifb, s, haddr, hne, hifb, hnet, hmaps⟩ := startUpload_true hclean₅ hrun
  rw [hserving] at hifb
  rw [hmaps₅, hmaps₄, hmaps₃, hmaps₂, hmaps₁] at hmaps
  refine ⟨addr, ifb, s, haddr, hne, ?_, hifb, hnet, hmaps⟩
  rw [← hindex]
  exact (onDevice_true hcreate).1

theorem run_getIfindex_node :
    Prog.run (Node.startExec env) n (getIfindex iface) =
      ((env.hookIndex n.net iface).toInt32, n) := by
  have hanswer := (run_startExec_net env (getIfindex iface) n).1
  rw [run_getIfindex] at hanswer
  refine Prod.ext hanswer ?_
  rw [getIfindex, host, Prog.run_bind, Prog.run_perform]
  split
  · rfl
  · rfl

/-- The pin directory is there, with the pins that were in it. -/
theorem mkdir_true (h : (Node.startExec env n .mkdir).1 = true) :
    (Node.startExec env n .mkdir).2.net =
      { n.net with pinDir := some (n.net.pinDir.getD ⟨fun _ => none, false⟩) } := by
  change (env.exec n.net .mkdir).2 = _
  replace h : (env.exec n.net .mkdir).1 = true := h
  rw [StartEnv.exec] at h ⊢
  split at h
  · cases h
  · next hok => rw [if_neg hok]

theorem loadObject_true (h : (Node.startExec env n .loadObject).1 = true) :
    (Node.startExec env n .loadObject).2.net = n.net.modifyPins env.loaded := by
  change (env.exec n.net .loadObject).2 = _
  replace h : (env.exec n.net .loadObject).1 = true := h
  rw [StartEnv.exec] at h ⊢
  split at h
  · cases h
  · next hok => rw [if_neg hok]

/-- A start that succeeds leaves one more program at each hook of the interface, the devices and
    pins that the programs need, and in the maps what pinned ones held. -/
theorem startAction_true (hword : shellWord iface = some iface)
    (hindex : env.hookIndex n.net iface = n.net.ifindex iface)
    (hclean : n.net.ifindex ifbName = 0)
    (hrun : Prog.run (Node.startExec env) n (startAction iface portalIp portalPort) =
      (true, n')) :
    ∃ addr ifb, inetPton portalIp = some addr ∧
      Started env n.net n'.net iface ifb ⟨addr, Bytes.swap16 portalPort⟩ ∧
      n'.maps = { n.maps.loaded n.net.pinned with
        ifbIdx := some ifb
        portalCfg := some ⟨addr, Bytes.swap16 portalPort⟩ } := by
  rw [startAction, Prog.run_bind, run_getIfindex_node, hindex] at hrun
  dsimp only at hrun
  split at hrun
  · cases hrun
  · obtain ⟨hmkdir, hrun⟩ := run_stepOrFalse_true hrun
    have hnet₁ := mkdir_true hmkdir
    have hmaps₁ : (Node.startExec env n .mkdir).2.maps = n.maps := rfl
    generalize (Node.startExec env n .mkdir).2 = n₁ at hnet₁ hmaps₁ hrun
    obtain ⟨-, hrun⟩ := run_stepOrFalse_true hrun
    have hsame : (Node.startExec env n₁ .openObject).2 = n₁ := rfl
    rw [hsame] at hrun
    obtain ⟨hload, hrun⟩ := run_stepOrFalse_true hrun
    have hnet₂ := loadObject_true hload
    have hmaps₂ : (Node.startExec env n₁ .loadObject).2.maps = n₁.maps.loaded n₁.net.pinned :=
      maps_startExec hload
    generalize (Node.startExec env n₁ .loadObject).2 = n₂ at hnet₂ hmaps₂ hrun
    have hpins₂ : n₂.net.pinDir =
        some (env.loaded (n.net.pinDir.getD ⟨fun _ => none, false⟩)) := by
      rw [hnet₂, hnet₁]
      rfl
    have hindex₂ : n₂.net.ifindex = n.net.ifindex := by rw [hnet₂, hnet₁]; rfl
    have hdevices₂ : n₂.net.devices = n.net.devices := by rw [hnet₂, hnet₁]; rfl
    have hpinned : n₁.net.pinned = n.net.pinned := by
      rw [hnet₁]
      funext map
      unfold NetState.pinned
      cases n.net.pinDir with
      | none => rfl
      | some p => rfl
    obtain ⟨addr, ifb, s, haddr, hne, hdevice, hifb, hnet, hmaps⟩ := startHooks_true hword
      (by rw [hindex₂]; rfl) (by rw [hindex₂]; exact hclean) hrun
    rw [hindex₂] at hdevice hifb
    rw [hdevices₂] at hdevice
    rw [hmaps₂, hmaps₁, hpinned] at hmaps
    refine ⟨addr, ifb, haddr, ?_, hmaps⟩
    have hmodified : ∀ j, (n₂.net.modify (n.net.ifindex iface) env.serving).devices j =
        if j = n.net.ifindex iface then (n.net.devices j).map env.serving
        else n.net.devices j := by
      intro j
      rw [← hdevices₂]
      rfl
    have hfree : n.net.devices ifb = none := by
      have hfree := hifb.free
      rw [hmodified] at hfree
      split at hfree
      · exact Option.map_eq_none_iff.mp hfree
      · exact hfree
    have hother : n.net.ifindex iface ≠ ifb := fun heq => hdevice (heq ▸ hfree)
    have hiface : iface ≠ ifbName := by
      rintro rfl
      rw [hclean] at hdevice
      exact hdevice n.net.zero
    have hname : ∀ name, name ≠ ifbName → n'.net.ifindex name = n.net.ifindex name := by
      intro name hne
      rw [hnet, ← hindex₂]
      exact hifb.names name hne
    refine ⟨hne, ?_, hfree, ?_, hname, ?_, ?_, ?_⟩
    · rw [hnet]
      exact hifb.index
    · rw [hnet]
      exact hifb.root
    · obtain ⟨d, hd⟩ := Option.ne_none_iff_exists'.mp hdevice
      refine ⟨d, hd, ?_⟩
      rw [NetState.device, hname iface hiface, hnet]
      change s.devices _ = _
      rw [hifb.others _ hother, hmodified, if_pos rfl, hd]
      rfl
    · intro i hi hne
      rw [hnet]
      change s.devices _ = _
      rw [hifb.others _ hi, hmodified, if_neg hne]
    · rw [hnet, NetState.modifyPins]
      have hpins : s.pinDir = n₂.net.pinDir := hifb.pinDir
      rw [hpins, hpins₂]
      rfl

end

end HawkGate
