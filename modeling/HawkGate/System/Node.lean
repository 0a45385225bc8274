-- SUMMARY: The machine of the gateway: devices, pins and the contents of the maps, with `hgctl` as a process on it.
import HawkGate.Control.Main
import HawkGate.Daemon.BpfCtrl

/-!
# The machine

`hgctl start` makes the maps that the other commands open by their pins, so the
devices, the pins and the contents of the maps are one state here. A process
runs to its end. The daemon starts `hgctl` with the words of a command line;
`run_onNode` says that this does what the daemon's operations on the maps say.
-/

namespace HawkGate

open CString Prog

variable {ncpu : Nat}

structure Node (ncpu : Nat) where
  net : NetState
  /-- What the pinned maps hold. -/
  maps : HgMaps ncpu

def NetState.pinned (s : NetState) (map : MapName) : Bool :=
  (s.pinDir.bind fun p => p.maps map).isSome

/-! ## Processes -/

/-- The maps after a load, which creates those that are not pinned; an array is created zeroed. -/
def HgMaps.loaded (s : HgMaps ncpu) (pinned : MapName → Bool) : HgMaps ncpu where
  clients := if pinned .hgClients then s.clients else .empty
  counters := if pinned .hgCounters then s.counters else .empty
  rates := if pinned .hgRates then s.rates else .empty
  proto := if pinned .hgProto then s.proto else .empty
  l2Allow := if pinned .hgL2Allow then s.l2Allow else .empty
  ifbIdx := if pinned .hgIfbIdx then s.ifbIdx else some 0
  portalCfg := if pinned .hgPortalCfg then s.portalCfg else some ⟨0, 0⟩
  conntrack := if pinned .hgConntrack then s.conntrack else .empty
  macIp := if pinned .hgMacIp then s.macIp else .empty
  ipMac := if pinned .hgIpMac then s.ipMac else .empty
  bypass := if pinned .hgBypass then s.bypass else .empty
  walledGarden := if pinned .hgWalledGarden then s.walledGarden else .empty

/-- What a call of a start that was answered so writes to the maps. -/
def StartOp.writes (n : Node ncpu) : {β : Type} → StartOp β → β → HgMaps ncpu
  | _, .loadObject, true => n.maps.loaded n.net.pinned
  | _, .updateIfbIdx ifindex, true => { n.maps with ifbIdx := some ifindex }
  | _, .updatePortalCfg cfg, true => { n.maps with portalCfg := some cfg }
  | _, _, _ => n.maps

def Node.startExec (env : StartEnv) {β : Type} (n : Node ncpu) (op : StartOp β) :
    β × Node ncpu :=
  ((env.exec n.net op).1, ⟨(env.exec n.net op).2, op.writes n (env.exec n.net op).1⟩)

/-- What the system decides for a process. -/
structure ProcEnv where
  host : StartEnv
  gateway : GatewayEnv
  lib : ListingLib

/-- A map can only be opened while it is pinned. -/
def SysEnv.onNode (env : SysEnv) (net : NetState) : SysEnv :=
  { env with objGet := fun map => env.objGet map && net.pinned map }

/-- Run `hgctl` with the words behind its name; whether it exits with 0. -/
def Node.hgctl (env : ProcEnv) (n : Node ncpu) (argv : List CString) : Bool × Node ncpu :=
  match hgctlMain env.lib argv with
  | .start opts => Prog.run (Node.startExec env.host) n (hgctlStart opts)
  | .stop opts => Prog.run (Node.startExec env.host) n (hgctlStop opts)
  | .gateway cmd =>
    let r := cmd.prog.run { env.gateway with sys := env.gateway.sys.onNode n.net } n.maps
    (r.1 = .success, ⟨n.net, r.2⟩)

/-! ## The daemon's calls -/

inductive NodeOp : Type → Type where
  /-- `exec_cmd` of `hgctl` with these words behind its name. -/
  | execCmd (argv : List CString) : NodeOp Bool
  /-- `hg_read_one`; `none` stands for -1. -/
  | readOne (ip : CString) : NodeOp (Option HgClientStats)
  | readFile (path : List Char) : NodeOp (Option (List Char))

/-- What the system decides for the daemon, by the words of each command. -/
structure NodeEnv where
  fork : List CString → Bool
  wait : List CString → Bool
  proc : List CString → ProcEnv
  readerSys : SysEnv
  file : List Char → Option (List Char)

def NodeOp.exec (env : NodeEnv) {β : Type} (n : Node ncpu) : NodeOp β → β × Node ncpu
  | .execCmd argv =>
    if env.fork argv then
      let r := n.hgctl (env.proc argv) argv
      (env.wait argv && r.1, r.2)
    else (false, n)
  | .readOne ip =>
    let r := (hgReadOne ip).run (env.readerSys.onNode n.net) n.maps
    (r.1, ⟨n.net, r.2⟩)
  | .readFile path => (env.file path, n)

/-- What the daemon does on the machine. -/
abbrev DaemonProg (α : Type) := Prog NodeOp α

def execHgctl (cmd : MainCommand) : DaemonProg Bool := Prog.perform (.execCmd cmd.argv)

def Hgctl.command : Hgctl → HgctlCommand
  | .add opts => .add opts
  | .del opts => .del opts
  | .mapDel opts => .mapDel opts
  | .proto opts => .proto opts

def DaemonOp.onNode {β : Type} : DaemonOp β → DaemonProg β
  | .execCmd cmd => execHgctl (.gateway cmd.command)
  | .readOne ip => Prog.perform (.readOne ip)
  | .readFile path => Prog.perform (.readFile path)

def Daemon.onNode {α : Type} (p : Daemon α) : DaemonProg α := p.translate DaemonOp.onNode

/-! ## What the commands do -/

/-- A start does to the devices and pins what it does without the maps. -/
theorem run_startExec_net {α : Type} (env : StartEnv) (p : Starter α) (n : Node ncpu) :
    (Prog.run (Node.startExec env) n p).1 = (Prog.run env.exec n.net p).1 ∧
      (Prog.run (Node.startExec env) n p).2.net = (Prog.run env.exec n.net p).2 := by
  obtain ⟨hanswer, hstate⟩ := run_sim (R := fun s (m : Node ncpu) => m.net = s) env.exec
    (Node.startExec env) (by rintro β s m op rfl; exact ⟨rfl, rfl⟩) p (rfl : n.net = n.net)
  exact ⟨hanswer, hstate⟩

/-- The surroundings of the daemon's operations on the maps, while these pins are there. -/
def NodeEnv.daemon (env : NodeEnv) (net : NetState) : DaemonEnv where
  fork := fun cmd => env.fork cmd.command.argv
  wait := fun cmd => env.wait cmd.command.argv
  sys := fun cmd => (env.proc cmd.command.argv).gateway.sys.onNode net
  readerSys := env.readerSys.onNode net
  file := env.file

theorem run_command (env : GatewayEnv) (cmd : Hgctl) (s : HgMaps ncpu) :
    cmd.command.prog.run env s = cmd.tool.run env.sys s := by
  cases cmd <;> exact run_lift _ env s

/-- Running `hgctl` by the words of its command lines does what the daemon's operations say, to
    the maps and to nothing else. -/
theorem run_onNode {α : Type} (env : NodeEnv) (p : Daemon α) (n : Node ncpu) :
    Prog.run (NodeOp.exec env) n p.onNode =
      ((p.run (env.daemon n.net) n.maps).1, ⟨n.net, (p.run (env.daemon n.net) n.maps).2⟩) := by
  have hsim := run_translate_sim (R := fun s (m : Node ncpu) => m = ⟨n.net, s⟩)
    (t := DaemonOp.onNode) (DaemonOp.exec (env.daemon n.net)) (NodeOp.exec env) ?_ p
    (rfl : n = ⟨n.net, n.maps⟩)
  · exact Prod.ext hsim.1 hsim.2
  · rintro β s m op rfl
    cases op with
    | execCmd cmd =>
      have hmain : hgctlMain (env.proc cmd.command.argv).lib cmd.command.argv =
          .gateway cmd.command := by
        rw [← MainCommand.argv, hgctlMain_argv]
        cases cmd <;> rfl
      cases hfork : env.fork cmd.command.argv with
      | false => simp [DaemonOp.onNode, execHgctl, MainCommand.argv, NodeOp.exec, DaemonOp.exec,
          NodeEnv.daemon, hfork]
      | true =>
        simp [DaemonOp.onNode, execHgctl, MainCommand.argv, NodeOp.exec, DaemonOp.exec,
          NodeEnv.daemon, hfork, Node.hgctl, hmain, run_command]
        rfl
    | readOne ip => exact ⟨rfl, rfl⟩
    | readFile path => exact ⟨rfl, rfl⟩

end HawkGate
