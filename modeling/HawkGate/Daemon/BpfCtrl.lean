-- SUMMARY: The daemon's kernel interface: the hgctl commands it runs, and what a run of the daemon does to the maps.
import HawkGate.Control.Protocols
import HawkGate.Control.Reader
import HawkGate.Daemon.Config

/-!
# Kernel interface

`hg_bpf_ctrl.cpp`. The daemon changes the maps by running `hgctl` and reads them
with the shared reader. What the daemon does is a program over these operations,
so that its calls can be looked at without the maps, and run on them.
-/

namespace HawkGate

open CString StdString

variable {ncpu : Nat}

/-! ## Operations of the daemon -/

/-- An `hgctl` command line. -/
inductive Hgctl where
  | add (opts : List AddOpt)
  | del (opts : List DelOpt)
  | mapDel (opts : List MapDelOpt)
  | proto (opts : List ProtoOpt)

def Hgctl.tool : Hgctl → Tool ncpu Status
  | .add opts => hgctlAdd opts
  | .del opts => hgctlDel opts
  | .mapDel opts => hgctlMapDel opts
  | .proto opts => hgctlProto opts

inductive DaemonOp : Type → Type where
  /-- `exec_cmd`: whether the command ran and exited with 0. -/
  | execCmd (cmd : Hgctl) : DaemonOp Bool
  /-- `hg_read_one`; `none` stands for -1. -/
  | readOne (ip : CString) : DaemonOp (Option HgClientStats)
  /-- The content of a file, if it can be opened. -/
  | readFile (path : List Char) : DaemonOp (Option (List Char))

abbrev Daemon (α : Type) := Prog DaemonOp α

/-- What the system decides for a run of the daemon: whether a command can be started and
    waited for, the kernel's answers to it and to the reader, and the files. -/
structure DaemonEnv where
  fork : Hgctl → Bool
  wait : Hgctl → Bool
  sys : Hgctl → SysEnv
  readerSys : SysEnv
  file : List Char → Option (List Char)

/-- A system in which every command runs and succeeds; the files are given. -/
def DaemonEnv.good (ts : Timespec) (file : List Char → Option (List Char)) : DaemonEnv where
  fork := fun _ => true
  wait := fun _ => true
  sys := fun _ => .good ts
  readerSys := .good ts
  file := file

def DaemonOp.exec (env : DaemonEnv) {β : Type} (s : HgMaps ncpu) : DaemonOp β → β × HgMaps ncpu
  | .execCmd cmd =>
    if env.fork cmd then
      let r := cmd.tool.run (env.sys cmd) s
      (env.wait cmd && r.1 = .success, r.2)
    else (false, s)
  | .readOne ip => (hgReadOne ip).run env.readerSys s
  | .readFile path => (env.file path, s)

/-- Run the daemon's operations on the maps. -/
def Daemon.run {α : Type} (p : Daemon α) (env : DaemonEnv) (s : HgMaps ncpu) : α × HgMaps ncpu :=
  Prog.run (DaemonOp.exec env) s p

@[simp] theorem Daemon.run_pure {α : Type} (a : α) (env : DaemonEnv) (s : HgMaps ncpu) :
    Daemon.run (pure a) env s = (a, s) := rfl

@[simp] theorem Daemon.run_perform {α : Type} (op : DaemonOp α) (env : DaemonEnv)
    (s : HgMaps ncpu) : Daemon.run (Prog.perform op) env s = DaemonOp.exec env s op := rfl

@[simp] theorem Daemon.run_bind {α β : Type} (p : Daemon α) (f : α → Daemon β) (env : DaemonEnv)
    (s : HgMaps ncpu) :
    Daemon.run (p >>= f) env s = (f (p.run env s).1).run env (p.run env s).2 :=
  Prog.run_bind p f

def execCmd (cmd : Hgctl) : Daemon Bool := Prog.perform (.execCmd cmd)

/-- `HgBpfCtrl::poll_one`; the statistics keep the fields of the reader. -/
def pollOne (ip : List Char) : Daemon (Option HgClientStats) :=
  Prog.perform (.readOne (cStr ip))

/-! ## Sessions -/

/-- `struct client_auth`. -/
structure ClientAuth where
  ip : List Char
  /-- Empty if `hgctl` is to resolve it. -/
  mac : List Char
  expirySec : UInt32
  idleSec : UInt32
  dnRate : UInt32
  upRate : UInt32
  clientPort : UInt16

/-- `std::to_string` of an unsigned number. -/
def toText (n : UInt32) : CString := decimal n.toNat

/-- The options of the `hgctl add` that a login runs. -/
def ClientAuth.addOpts (auth : ClientAuth) (cfg : HgConfig) : List AddOpt :=
  .iface (cStr cfg.ifaceName) ::
    (if auth.mac ≠ [] then [.mac (cStr auth.mac)] else []) ++
    [.client (cStr auth.ip), .expire (toText auth.expirySec), .idle (toText auth.idleSec),
      .downloadRate (toText auth.dnRate), .uploadRate (toText auth.upRate)]

/-- `HgBpfCtrl::authenticate`. -/
def authenticate (cfg : HgConfig) (auth : ClientAuth) : Daemon Bool :=
  if (inetPton (cStr auth.ip)).isNone then pure false
  else execCmd (.add (auth.addOpts cfg))

/-- The text of an address passes the check. -/
theorem authenticate_inetNtop {cfg : HgConfig} {auth : ClientAuth} (client : IpAddr)
    (h : auth.ip = inetNtop client) : authenticate cfg auth = execCmd (.add (auth.addOpts cfg)) := by
  have hip : (inetPton (cStr auth.ip)).isNone = false := by
    rw [h, cStr_inetNtop, inetPton_inetNtop]
    rfl
  rw [authenticate, hip]
  rfl

/-- `HgBpfCtrl::map_ele_del`. -/
def mapEleDel (mapName key : List Char) : Daemon Bool :=
  execCmd (.mapDel [.map (cStr mapName), .key (cStr key)])

/-! ## Pre-auth protocols -/

def translateL2 (name : List Char) : List Char :=
  if name = "arp".toList then "0x0806".toList
  else if name = "ipv4".toList then "0x0800".toList
  else if name = "ipv6".toList then "0x86DD".toList
  else if name = "vlan".toList then "0x8100".toList
  else if name = "pppoe".toList then "0x8864".toList
  else []

/-- The protocols that `translate_l3` knows, with their numbers. -/
def l3Names : List (List Char × List Char) :=
  [("icmp".toList, "1".toList), ("igmp".toList, "2".toList), ("tcp".toList, "6".toList),
    ("udp".toList, "17".toList), ("gre".toList, "47".toList), ("esp".toList, "50".toList),
    ("ah".toList, "51".toList), ("icmpv6".toList, "58".toList), ("ospf".toList, "89".toList),
    ("sctp".toList, "132".toList)]

def translateL3 (name : List Char) : List Char := (l3Names.lookup name).getD []

/-- The services that `translate_l4` knows, with their rules for both directions. -/
def l4Names : List (List Char × List (List Char)) :=
  [("dns".toList, ["17:any:53".toList, "17:53:any".toList]),
    ("dhcp".toList, ["17:68:67".toList, "17:67:68".toList]),
    ("ntp".toList, ["17:any:123".toList, "17:123:any".toList]),
    ("http".toList, ["6:any:80".toList, "6:80:any".toList]),
    ("https".toList, ["6:any:443".toList, "6:443:any".toList]),
    ("mdns".toList, ["17:any:5353".toList, "17:5353:any".toList]),
    ("llmnr".toList, ["17:any:5355".toList, "17:5355:any".toList]),
    ("syslog".toList, ["17:any:514".toList, "17:514:any".toList]),
    ("snmp".toList, ["17:any:161".toList, "17:161:any".toList])]

def translateL4 (name : List Char) : List (List Char) := (l4Names.lookup name).getD []

/-- `hgctl proto -a add` with one rule. -/
def addProto (cfg : HgConfig) (rule : ProtoOpt) : Daemon Unit := do
  let _ ← execCmd (.proto [.action "add".toList, .iface (cStr cfg.ifaceName), rule])
  pure ()

def applyPreauthL2 (cfg : HgConfig) : Daemon Unit :=
  cfg.preauthL2.forM fun name =>
    let val := translateL2 name
    if val = [] then pure () else addProto cfg (.l2 val)

def applyPreauthL3 (cfg : HgConfig) : Daemon Unit :=
  cfg.preauthL3.forM fun name =>
    let val := translateL3 name
    if val = [] then pure () else addProto cfg (.l3 val)

def applyPreauthL4 (cfg : HgConfig) : Daemon Unit :=
  cfg.preauthL4.forM fun name => (translateL4 name).forM fun rule => addProto cfg (.l4 rule)

end HawkGate
