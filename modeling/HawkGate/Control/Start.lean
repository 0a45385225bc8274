-- SUMMARY: `hgctl start`, its clean-up and `hgctl stop` as calls on the devices and the pinned maps, each of which may fail.
import HawkGate.Control.Sys
import HawkGate.Lib.CString
import HawkGate.Lib.Prog
import Mathlib.Logic.Function.Basic

/-!
# Starting the gateway

`start_action`, `cleanup_on_failure` and `stop_action` of `hg_control.c`. A call
fails for a reason of its own, which the environment decides, or because what it
needs is not there; a call that fails changes nothing. The name of the interface
is also spliced into shell commands, where it is a text that the shell splits:
only some texts make the commands act on one device.
-/

namespace HawkGate

open CString

/-! ## Devices and pinned maps -/

inductive Qdisc where
  | fq
  | other (kind : CString)
  deriving DecidableEq

/-- The programs at the two hooks of a clsact qdisc, in the order in which they were attached. -/
structure Hooks where
  ingress : List Nat
  egress : List Nat
  deriving DecidableEq

@[ext]
structure NetDevice where
  up : Bool
  txqueuelen : Nat
  /-- `none` is the default of the device. -/
  root : Option Qdisc
  clsact : Option Hooks
  deriving DecidableEq

/-- A map in the pin directory; of the tables only the identity is known. -/
inductive PinnedMap where
  | ifbIdx (ifindex : UInt32)
  | portalCfg (cfg : HgPortalCfg)
  | table (id : Nat)
  deriving DecidableEq

/-- The pin directory and whether there are files of others in it. -/
@[ext]
structure PinDir where
  maps : MapName → Option PinnedMap
  others : Bool

/-- The devices by their index, and the pins. -/
@[ext]
structure NetState where
  /-- The index of the device with a name, 0 if there is none. -/
  ifindex : CString → UInt32
  devices : UInt32 → Option NetDevice
  /-- `none` if there is no such directory. -/
  pinDir : Option PinDir
  zero : devices 0 = none
  known : ∀ name, ifindex name ≠ 0 → devices (ifindex name) ≠ none

def ifbName : CString := "ifb_hg".toList

/-- The maps, in the order in which `hg_clean_maps` removes them. -/
def pinnedMaps : List MapName :=
  [.hgClients, .hgCounters, .hgProto, .hgL2Allow, .hgRates, .hgIfbIdx, .hgPortalCfg, .hgConntrack,
    .hgMacIp, .hgIpMac, .hgBypass, .hgWalledGarden]

theorem mem_pinnedMaps (map : MapName) : map ∈ pinnedMaps := by
  cases map <;> decide

namespace NetState

def modify (s : NetState) (i : UInt32) (f : NetDevice → NetDevice) : NetState where
  ifindex := s.ifindex
  devices := fun j => if j = i then (s.devices j).map f else s.devices j
  pinDir := s.pinDir
  zero := by simp [s.zero]
  known := by
    intro name hname
    split
    · simp [s.known name hname]
    · exact s.known name hname

def addDevice (s : NetState) (name : CString) (i : UInt32) (hi : i ≠ 0) (d : NetDevice) :
    NetState where
  ifindex := Function.update s.ifindex name i
  devices := Function.update s.devices i (some d)
  pinDir := s.pinDir
  zero := by rw [Function.update_of_ne (Ne.symm hi), s.zero]
  known := by
    intro other hother
    by_cases hname : other = name
    · simp [hname]
    · rw [Function.update_of_ne hname] at hother ⊢
      by_cases hindex : s.ifindex other = i
      · simp [hindex]
      · rw [Function.update_of_ne hindex]
        exact s.known other hother

/-- Remove the device and its names. -/
def removeDevice (s : NetState) (i : UInt32) : NetState where
  ifindex := fun name => if s.ifindex name = i then 0 else s.ifindex name
  devices := Function.update s.devices i none
  pinDir := s.pinDir
  zero := by
    by_cases hi : 0 = i
    · simp [← hi]
    · rw [Function.update_of_ne hi, s.zero]
  known := by
    intro name hname
    split at hname
    · exact absurd rfl hname
    · next hother =>
      rw [if_neg hother, Function.update_of_ne hother]
      exact s.known name hname

def modifyPins (s : NetState) (f : PinDir → PinDir) : NetState :=
  { s with pinDir := s.pinDir.map f }

/-- The device with a name. -/
def device (s : NetState) (name : CString) : Option NetDevice := s.devices (s.ifindex name)

theorem device_eq_none_iff (s : NetState) (name : CString) :
    s.device name = none ↔ s.ifindex name = 0 := by
  refine ⟨fun h => ?_, fun h => ?_⟩
  · by_contra hname
    exact s.known name hname h
  · rw [device, h, s.zero]

end NetState

namespace PinDir

def setMap (p : PinDir) (map : MapName) (m : Option PinnedMap) : PinDir :=
  { p with maps := Function.update p.maps map m }

def isEmpty (p : PinDir) : Bool := !p.others && pinnedMaps.all fun map => (p.maps map).isNone

end PinDir

/-! ## Calls -/

/-- The calls of `start_action` and `cleanup_on_failure`, by what they are for. -/
inductive StartCall where
  | bridgeIndex | mkdir | openObject | loadObject | hookCreate | attachIngress | attachEgress
  | setTxqueuelen | replaceRoot | modprobeIfb | addIfb | upIfb | replaceIfbRoot | ifbIndex
  | getIfbIdx | updateIfbIdx | getPortalCfg | updatePortalCfg
  | delClsact | unlink (map : MapName) | rmdir | delIfb | delRoot | resetTxqueuelen
  deriving DecidableEq

/-! ## Shell words -/

/-- A blank between two words of a command line. -/
def isShellBlank (c : Char) : Bool := c = ' ' || c = '\t'

/-- A character of device names that is nothing special to the shell. -/
def isShellPlain (c : Char) : Bool := c.isAlphanum || c = '.' || c = '_' || c = '-'

/-- The word of a text that is one plain word, with or without blanks around it. The commands are
    printed into 160 bytes, and the longest of them has 41 characters besides the text. -/
def shellWord (text : CString) : Option CString :=
  let rest := text.dropWhile isShellBlank
  let word := rest.takeWhile isShellPlain
  if word ≠ [] ∧ (rest.dropWhile isShellPlain).all isShellBlank = true ∧ text.length ≤ 118 then
    some word
  else none

example : shellWord "br0 ".toList = some "br0".toList := by decide

example : shellWord "br0 up".toList = none := by decide

/-- What the host decides: which calls fail, what the shell makes of a text, and what the new
    objects are. -/
structure StartEnv where
  fails : StartCall → Bool
  /-- The device that the shell commands act on when they are given this text, if they do what
      they do with the plain name of a device. -/
  named : CString → Option CString
  named_word : ∀ text word, shellWord text = some word → named text = some word
  /-- What a command does with any other text, which may be anything. -/
  otherwise : StartCall → CString → NetState → Bool × NetState
  ingressProg : Nat
  egressProg : Nat
  newIfb : NetDevice
  newIfbIndex : UInt32
  newIfbIndex_ne : newIfbIndex ≠ 0
  freshMap : MapName → PinnedMap

/-- The calls with their answers; a `Bool` is whether the call succeeded. -/
inductive StartOp : Type → Type where
  /-- `if_nametoindex(iface)`, 0 if it fails. -/
  | bridgeIndex (iface : CString) : StartOp UInt32
  /-- `mkdir` of the pin directory; `EEXIST` is a success. -/
  | mkdir : StartOp Bool
  | openObject : StartOp Bool
  /-- Every map that is pinned already is used, every other one is created and pinned. A load that
      fails removes what it pinned. -/
  | loadObject : StartOp Bool
  /-- `bpf_tc_hook_create`; `EEXIST` is a success. -/
  | hookCreate (ifindex : Int32) : StartOp Bool
  | attachIngress (ifindex : Int32) : StartOp Bool
  | attachEgress (ifindex : Int32) : StartOp Bool
  /-- `ip link set dev <iface> txqueuelen 1000` -/
  | setTxqueuelen (iface : CString) : StartOp Bool
  /-- `tc qdisc replace dev <iface> root fq` -/
  | replaceRoot (iface : CString) : StartOp Bool
  /-- `modprobe ifb`; the devices that the module brings along are not the gateway's. -/
  | modprobeIfb : StartOp Bool
  /-- `ip link add ifb_hg type ifb` -/
  | addIfb : StartOp Bool
  /-- `ip link set ifb_hg up` -/
  | upIfb : StartOp Bool
  /-- `tc qdisc replace dev ifb_hg root fq` -/
  | replaceIfbRoot : StartOp Bool
  /-- `if_nametoindex("ifb_hg")` -/
  | ifbIndex : StartOp UInt32
  | getIfbIdx : StartOp Bool
  | updateIfbIdx (ifindex : UInt32) : StartOp Bool
  | getPortalCfg : StartOp Bool
  | updatePortalCfg (cfg : HgPortalCfg) : StartOp Bool
  /-- `tc qdisc del dev <iface> clsact` -/
  | delClsact (iface : CString) : StartOp Bool
  | unlink (map : MapName) : StartOp Bool
  /-- `rmdir` of the pin directory, which must be empty. -/
  | rmdir : StartOp Bool
  /-- `ip link del ifb_hg` -/
  | delIfb : StartOp Bool
  /-- `tc qdisc del dev <iface> root` -/
  | delRoot (iface : CString) : StartOp Bool
  /-- `ip link set dev <iface> txqueuelen 0` -/
  | resetTxqueuelen (iface : CString) : StartOp Bool

namespace StartEnv

variable (env : StartEnv)

/-- A call on a device, which must be there. -/
def onDevice (call : StartCall) (i : UInt32) (f : NetDevice → NetDevice) (s : NetState) :
    Bool × NetState :=
  if env.fails call || (s.devices i).isNone then (false, s) else (true, s.modify i f)

/-- The index of the device that the shell commands act on, 0 if there is none. -/
def target (s : NetState) (text : CString) : UInt32 := (env.named text).elim 0 s.ifindex

/-- A shell command that is given a text for the device. -/
def onText (call : StartCall) (text : CString) (f : NetDevice → NetDevice) (s : NetState) :
    Bool × NetState :=
  match env.named text with
  | some _ => env.onDevice call (env.target s text) f s
  | none => env.otherwise call text s

def ifNametoindex (call : StartCall) (name : CString) (s : NetState) : UInt32 :=
  if env.fails call then 0 else s.ifindex name

/-- A hook takes a program only while there is a clsact qdisc. -/
def attach (call : StartCall) (i : UInt32) (f : Hooks → Hooks) (s : NetState) :
    Bool × NetState :=
  if ((s.devices i).bind NetDevice.clsact).isNone then (false, s)
  else env.onDevice call i (fun d => { d with clsact := d.clsact.map f }) s

/-- Open a pinned map. -/
def objGet (call : StartCall) (map : MapName) (s : NetState) : Bool :=
  !env.fails call && (s.pinDir.bind fun p => p.maps map).isSome

def updatePinned (call : StartCall) (map : MapName) (m : PinnedMap) (s : NetState) :
    Bool × NetState :=
  if env.fails call then (false, s) else (true, s.modifyPins fun p => p.setMap map (some m))

/-- The pin directory after a load. -/
def loaded (p : PinDir) : PinDir :=
  { p with maps := fun map => some ((p.maps map).getD (env.freshMap map)) }

def exec {β : Type} (s : NetState) : StartOp β → β × NetState
  | .bridgeIndex iface => (env.ifNametoindex .bridgeIndex iface s, s)
  | .mkdir =>
    if env.fails .mkdir then (false, s)
    else (true, { s with pinDir := some (s.pinDir.getD ⟨fun _ => none, false⟩) })
  | .openObject => (!env.fails .openObject, s)
  | .loadObject =>
    if env.fails .loadObject || s.pinDir.isNone then (false, s) else (true, s.modifyPins env.loaded)
  | .hookCreate ifindex =>
    env.onDevice .hookCreate ifindex.toUInt32
      (fun d => { d with clsact := some (d.clsact.getD ⟨[], []⟩) }) s
  | .attachIngress ifindex =>
    env.attach .attachIngress ifindex.toUInt32
      (fun h => { h with ingress := h.ingress ++ [env.ingressProg] }) s
  | .attachEgress ifindex =>
    env.attach .attachEgress ifindex.toUInt32
      (fun h => { h with egress := h.egress ++ [env.egressProg] }) s
  | .setTxqueuelen iface =>
    env.onText .setTxqueuelen iface (fun d => { d with txqueuelen := 1000 }) s
  | .replaceRoot iface =>
    env.onText .replaceRoot iface (fun d => { d with root := some .fq }) s
  | .modprobeIfb => (!env.fails .modprobeIfb, s)
  | .addIfb =>
    if env.fails .addIfb || s.ifindex ifbName ≠ 0 || (s.devices env.newIfbIndex).isSome then
      (false, s)
    else (true, s.addDevice ifbName env.newIfbIndex env.newIfbIndex_ne env.newIfb)
  | .upIfb => env.onDevice .upIfb (s.ifindex ifbName) (fun d => { d with up := true }) s
  | .replaceIfbRoot =>
    env.onDevice .replaceIfbRoot (s.ifindex ifbName) (fun d => { d with root := some .fq }) s
  | .ifbIndex => (env.ifNametoindex .ifbIndex ifbName s, s)
  | .getIfbIdx => (env.objGet .getIfbIdx .hgIfbIdx s, s)
  | .updateIfbIdx ifindex => env.updatePinned .updateIfbIdx .hgIfbIdx (.ifbIdx ifindex) s
  | .getPortalCfg => (env.objGet .getPortalCfg .hgPortalCfg s, s)
  | .updatePortalCfg cfg => env.updatePinned .updatePortalCfg .hgPortalCfg (.portalCfg cfg) s
  | .delClsact iface =>
    env.onText .delClsact iface (fun d => { d with clsact := none }) s
  | .unlink map =>
    if env.fails (.unlink map) then (false, s) else (true, s.modifyPins fun p => p.setMap map none)
  | .rmdir =>
    if env.fails .rmdir || s.pinDir.any (fun p => !p.isEmpty) then (false, s)
    else (true, { s with pinDir := none })
  | .delIfb =>
    if env.fails .delIfb then (false, s) else (true, s.removeDevice (s.ifindex ifbName))
  | .delRoot iface => env.onText .delRoot iface (fun d => { d with root := none }) s
  | .resetTxqueuelen iface =>
    env.onText .resetTxqueuelen iface (fun d => { d with txqueuelen := 0 }) s

end StartEnv

/-! ## The command -/

abbrev Starter := Prog StartOp

def host {β : Type} (op : StartOp β) : Starter β := Prog.perform op

def unlinkMaps : List MapName → Starter Unit
  | [] => pure ()
  | map :: maps => do
    let _ ← host (.unlink map)
    unlinkMaps maps

def hgCleanMaps : Starter Unit := do
  unlinkMaps pinnedMaps
  let _ ← host .rmdir
  pure ()

def cleanupOnFailure (iface : CString) : Starter Unit := do
  let _ ← host (.delClsact iface)
  hgCleanMaps
  let _ ← host .delIfb
  let _ ← host (.delRoot iface)
  let _ ← host (.resetTxqueuelen iface)
  pure ()

/-- The way out of every failure once the object is loaded. -/
def failStart (iface : CString) : Starter Bool := do
  cleanupOnFailure iface
  pure false

/-- The last part of `start_action`: the portal's address and port. -/
def startPortal (iface portalIp : CString) (portalPort : UInt16) : Starter Bool := do
  if ← host .getPortalCfg then
    match inetPton portalIp with
    | none => failStart iface
    | some addr =>
      if ← host (.updatePortalCfg ⟨addr, Bytes.swap16 portalPort⟩) then pure true else failStart iface
  else failStart iface

/-- The part that sets up the device for uploads, and what follows. -/
def startUpload (iface portalIp : CString) (portalPort : UInt16) : Starter Bool := do
  let _ ← host .modprobeIfb
  let _ ← host .addIfb
  let _ ← host .upIfb
  if ← host .replaceIfbRoot then
    let ifbIfindex ← host .ifbIndex
    if ifbIfindex = 0 then failStart iface
    else if ← host .getIfbIdx then
      if ← host (.updateIfbIdx ifbIfindex) then startPortal iface portalIp portalPort
      else failStart iface
    else failStart iface
  else failStart iface

/-- The part that shapes downloads on the interface, and what follows. -/
def startDownload (iface portalIp : CString) (portalPort : UInt16) : Starter Bool := do
  if ← host (.setTxqueuelen iface) then
    if ← host (.replaceRoot iface) then startUpload iface portalIp portalPort
    else failStart iface
  else failStart iface

/-- The part that attaches the programs to the device with an index, and what follows. -/
def startHooks (ifindex : Int32) (iface portalIp : CString) (portalPort : UInt16) :
    Starter Bool := do
  if ← host (.hookCreate ifindex) then
    if ← host (.attachIngress ifindex) then
      if ← host (.attachEgress ifindex) then startDownload iface portalIp portalPort
      else failStart iface
    else failStart iface
  else failStart iface

/-- `FAILED`, which is an index as well. -/
def failed : Int32 := 1

def getIfindex (iface : CString) : Starter Int32 := do
  let idx ← host (.bridgeIndex iface)
  if idx.toInt32 = 0 then pure failed else pure idx.toInt32

/-- Whether it returns `SUCCESS`. -/
def startAction (iface portalIp : CString) (portalPort : UInt16) : Starter Bool := do
  let ifindex ← getIfindex iface
  if ifindex ≤ 0 then pure false
  else if ← host .mkdir then
    if ← host .openObject then
      if ← host .loadObject then startHooks ifindex iface portalIp portalPort
      else pure false
    else pure false
  else pure false

/-- The state and whether the start succeeded. -/
def StartEnv.start (env : StartEnv) (s : NetState) (iface portalIp : CString)
    (portalPort : UInt16) : Bool × NetState :=
  Prog.run env.exec s (startAction iface portalIp portalPort)

/-- No failure of a call is noticed. -/
def stopAction (iface : CString) : Starter Bool := do
  let _ ← host (.delClsact iface)
  let _ ← host .delIfb
  let _ ← host (.delRoot iface)
  let _ ← host (.resetTxqueuelen iface)
  hgCleanMaps
  pure true

def StartEnv.stop (env : StartEnv) (s : NetState) (iface : CString) : Bool × NetState :=
  Prog.run env.exec s (stopAction iface)

end HawkGate
