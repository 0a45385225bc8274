-- SUMMARY: How the daemon starts and stops the gateway: stale state, the programs, and the configured lists.
import HawkGate.System.Node

/-!
# Start and stop

`start_hgctl`, `stop_hgctl` and `deauthenticate` of `hg_bpf_ctrl.cpp`. What is
left of an earlier run is removed first, and nobody looks whether that
succeeded; a list entry that cannot be added is left out.
-/

namespace HawkGate

open CString StdString

variable {ncpu : Nat}

def HgConfig.stopCommand (cfg : HgConfig) : MainCommand := .stop [.iface (cStr cfg.ifaceName)]

def HgConfig.startCommand (cfg : HgConfig) : MainCommand :=
  .start [.iface (cStr cfg.ifaceName), .portalIp (cStr cfg.portalIp),
    .portalPort (decimal cfg.httpPort.toNat)]

def applyWalledGarden (cfg : HgConfig) : DaemonProg Unit :=
  cfg.walledGardenIps.forM fun ip => do
    let _ ← execHgctl (.gateway (.wgAdd [.ip (cStr ip)]))
    pure ()

/-- The lists of the configuration. -/
def applyLists (cfg : HgConfig) : DaemonProg Unit := do
  (applyPreauthL2 cfg).onNode
  (applyPreauthL3 cfg).onNode
  (applyPreauthL4 cfg).onNode
  applyWalledGarden cfg

def startHgctl (cfg : HgConfig) : DaemonProg Bool := do
  let _ ← execHgctl cfg.stopCommand
  if ← execHgctl cfg.startCommand then
    applyLists cfg
    pure true
  else pure false

def stopHgctl (cfg : HgConfig) : DaemonProg Bool := execHgctl cfg.stopCommand

/-- `HgBpfCtrl::deauthenticate`. -/
def deauthenticate (cfg : HgConfig) (ip : List Char) : Daemon Bool :=
  if (inetPton (cStr ip)).isNone then pure false
  else execCmd (.del [.iface (cStr cfg.ifaceName), .client (cStr ip)])

/-- Run a program of the daemon on the machine. -/
def DaemonProg.run {α : Type} (p : DaemonProg α) (env : NodeEnv) (n : Node ncpu) :
    α × Node ncpu :=
  Prog.run (NodeOp.exec env) n p

end HawkGate
