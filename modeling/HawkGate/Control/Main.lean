-- SUMMARY: The main function of `hgctl`: from the words of a command line to the command and its options.
import HawkGate.Control.Start
import HawkGate.Lib.Getopt
import HawkGate.Lib.StdString
import HawkGate.System.Gateway

/-!
# Main

`main`, `hg_parse_opcode` and the option tables of `hg_cli.c`, together with
`parse_start` and `parse_stop`. The words are those of `argv` behind the name of
the program; every option of every command takes an argument.
-/

namespace HawkGate

open CString Getopt StdString

variable {ncpu : Nat}

/-! ## start and stop -/

inductive StartOpt where
  | iface (arg : CString)
  | portalIp (arg : CString)
  | portalPort (arg : CString)
  | unknown

/-- The local variables of `parse_start`. -/
structure StartVars where
  iface : CString
  portalIp : CString
  portalPort : UInt16

def StartVars.set (v : StartVars) : StartOpt → Option StartVars
  | .iface arg => some { v with iface := strncpyInto 16 arg }
  | .portalIp arg => some { v with portalIp := strncpyInto 16 arg }
  | .portalPort arg => some { v with portalPort := atoiU16 arg }
  | .unknown => none

def parseStart (opts : List StartOpt) : Option StartVars := do
  let v ← opts.foldlM StartVars.set ⟨[], [], 0⟩
  if v.iface = [] ∨ v.portalIp = [] ∨ v.portalPort = 0 then none else some v

/-- Whether it returns `SUCCESS`. -/
def hgctlStart (opts : List StartOpt) : Starter Bool :=
  match parseStart opts with
  | none => pure false
  | some v => startAction v.iface v.portalIp v.portalPort

def hgctlStop (opts : List IfaceOpt) : Starter Bool :=
  match parseIface opts with
  | none => pure false
  | some iface => stopAction iface

/-! ## Options -/

/-- The codes of options without a letter. -/
def code1 : Char := Char.ofNat 1
def code2 : Char := Char.ofNat 2
def code3 : Char := Char.ofNat 3

/-- An option string in which every letter has its colon, and the table of the long options. -/
def optionTable (letters : List Char) (long : List (String × Char)) : Options Char where
  short := fun c => if c ∈ letters then some c else none
  long := long.map fun e => (e.1.toList, e.2)

/-- An option of one letter. -/
def letterFlag (c : Char) : CString := ['-', c]

/-- The protocol options as the daemon writes them. -/
def protoFlag (c : Char) : CString :=
  if c = code1 then "--l2".toList
  else if c = code2 then "--l3".toList
  else if c = code3 then "--l4".toList
  else letterFlag c

def mapDelFlag (c : Char) : CString := if c = 'm' then "--map".toList else "--key".toList

def StartOpt.ofItem : Item Char → StartOpt
  | .opt 'i' arg => .iface arg
  | .opt 'P' arg => .portalIp arg
  | .opt 'p' arg => .portalPort arg
  | _ => .unknown

def StartOpt.toItem : StartOpt → Item Char
  | .iface arg => .opt 'i' arg
  | .portalIp arg => .opt 'P' arg
  | .portalPort arg => .opt 'p' arg
  | .unknown => .bad

def startOpts : Codec Char StartOpt where
  table := optionTable ['i', 'P', 'p'] [("iface", 'i'), ("portal-port", 'p'), ("portal-ip", 'P')]
  flag := letterFlag
  unknown := .unknown
  toItem := StartOpt.toItem
  ofItem := StartOpt.ofItem
  ofItem_toItem x := by cases x <;> rfl
  toItem_ofItem i := by
    unfold StartOpt.ofItem
    split <;> first | exact .inr rfl | exact .inl rfl
  ofItem_bad := rfl
  names x v arg h := by cases x <;> cases h <;> decide
  bad := rfl

def IfaceOpt.ofItem : Item Char → IfaceOpt
  | .opt 'i' arg => .iface arg
  | _ => .unknown

def IfaceOpt.toItem : IfaceOpt → Item Char
  | .iface arg => .opt 'i' arg
  | .unknown => .bad

def ifaceOpts : Codec Char IfaceOpt where
  table := optionTable ['i'] [("iface", 'i')]
  flag := letterFlag
  unknown := .unknown
  toItem := IfaceOpt.toItem
  ofItem := IfaceOpt.ofItem
  ofItem_toItem x := by cases x <;> rfl
  toItem_ofItem i := by
    unfold IfaceOpt.ofItem
    split <;> first | exact .inr rfl | exact .inl rfl
  ofItem_bad := rfl
  names
    | .iface _, _, _, rfl => by decide
  bad := rfl

def AddOpt.ofItem : Item Char → AddOpt
  | .opt 'i' arg => .iface arg
  | .opt 'm' arg => .mac arg
  | .opt 'c' arg => .client arg
  | .opt 'e' arg => .expire arg
  | .opt 'w' arg => .idle arg
  | .opt 'D' arg => .downloadRate arg
  | .opt 'U' arg => .uploadRate arg
  | _ => .unknown

def AddOpt.toItem : AddOpt → Item Char
  | .iface arg => .opt 'i' arg
  | .mac arg => .opt 'm' arg
  | .client arg => .opt 'c' arg
  | .expire arg => .opt 'e' arg
  | .idle arg => .opt 'w' arg
  | .downloadRate arg => .opt 'D' arg
  | .uploadRate arg => .opt 'U' arg
  | .unknown => .bad

def addOpts : Codec Char AddOpt where
  table := optionTable ['i', 'm', 'c', 'e', 'w', 'D', 'U']
    [("iface", 'i'), ("mac", 'm'), ("client", 'c'), ("expire", 'e'), ("idle", 'w'),
      ("DownloadRate", 'D'), ("UploadRate", 'U')]
  flag := letterFlag
  unknown := .unknown
  toItem := AddOpt.toItem
  ofItem := AddOpt.ofItem
  ofItem_toItem x := by cases x <;> rfl
  toItem_ofItem i := by
    unfold AddOpt.ofItem
    split <;> first | exact .inr rfl | exact .inl rfl
  ofItem_bad := rfl
  names x v arg h := by cases x <;> cases h <;> decide
  bad := rfl

def DelOpt.ofItem : Item Char → DelOpt
  | .opt 'i' arg => .iface arg
  | .opt 'm' arg => .mac arg
  | .opt 'c' arg => .client arg
  | _ => .unknown

def DelOpt.toItem : DelOpt → Item Char
  | .iface arg => .opt 'i' arg
  | .mac arg => .opt 'm' arg
  | .client arg => .opt 'c' arg
  | .unknown => .bad

def delOpts : Codec Char DelOpt where
  table := optionTable ['i', 'm', 'c'] [("iface", 'i'), ("mac", 'm'), ("client", 'c')]
  flag := letterFlag
  unknown := .unknown
  toItem := DelOpt.toItem
  ofItem := DelOpt.ofItem
  ofItem_toItem x := by cases x <;> rfl
  toItem_ofItem i := by
    unfold DelOpt.ofItem
    split <;> first | exact .inr rfl | exact .inl rfl
  ofItem_bad := rfl
  names x v arg h := by cases x <;> cases h <;> decide
  bad := rfl

def DetailsOpt.ofItem : Item Char → DetailsOpt
  | .opt 'i' arg => .iface arg
  | .opt 'c' arg => .client arg
  | _ => .unknown

def DetailsOpt.toItem : DetailsOpt → Item Char
  | .iface arg => .opt 'i' arg
  | .client arg => .opt 'c' arg
  | .unknown => .bad

def detailsOpts : Codec Char DetailsOpt where
  table := optionTable ['i', 'c'] [("iface", 'i'), ("client", 'c')]
  flag := letterFlag
  unknown := .unknown
  toItem := DetailsOpt.toItem
  ofItem := DetailsOpt.ofItem
  ofItem_toItem x := by cases x <;> rfl
  toItem_ofItem i := by
    unfold DetailsOpt.ofItem
    split <;> first | exact .inr rfl | exact .inl rfl
  ofItem_bad := rfl
  names x v arg h := by cases x <;> cases h <;> decide
  bad := rfl

def ProtoOpt.ofItem : Item Char → ProtoOpt
  | .opt c arg =>
    if c = 'i' then .iface arg
    else if c = 'a' then .action arg
    else if c = code1 then .l2 arg
    else if c = code2 then .l3 arg
    else if c = code3 then .l4 arg
    else .unknown
  | .bad => .unknown

def ProtoOpt.toItem : ProtoOpt → Item Char
  | .action arg => .opt 'a' arg
  | .iface arg => .opt 'i' arg
  | .l2 arg => .opt code1 arg
  | .l3 arg => .opt code2 arg
  | .l4 arg => .opt code3 arg
  | .unknown => .bad

def protoOpts : Codec Char ProtoOpt where
  table := optionTable ['i', 'a']
    [("action", 'a'), ("iface", 'i'), ("l2", code1), ("l3", code2), ("l4", code3)]
  flag := protoFlag
  unknown := .unknown
  toItem := ProtoOpt.toItem
  ofItem := ProtoOpt.ofItem
  ofItem_toItem x := by cases x <;> rfl
  toItem_ofItem
    | .bad => .inl rfl
    | .opt c arg => by
      unfold ProtoOpt.ofItem
      dsimp only
      split_ifs <;> first | exact .inl rfl | (subst_vars; exact .inr rfl)
  ofItem_bad := rfl
  names x v arg h := by cases x <;> cases h <;> decide
  bad := rfl

def MapDelOpt.ofItem : Item Char → MapDelOpt
  | .opt 'm' arg => .map arg
  | .opt 'k' arg => .key arg
  | _ => .unknown

def MapDelOpt.toItem : MapDelOpt → Item Char
  | .map arg => .opt 'm' arg
  | .key arg => .opt 'k' arg
  | .unknown => .bad

def mapDelOpts : Codec Char MapDelOpt where
  table := optionTable ['m', 'k'] [("map", 'm'), ("key", 'k')]
  flag := mapDelFlag
  unknown := .unknown
  toItem := MapDelOpt.toItem
  ofItem := MapDelOpt.ofItem
  ofItem_toItem x := by cases x <;> rfl
  toItem_ofItem i := by
    unfold MapDelOpt.ofItem
    split <;> first | exact .inr rfl | exact .inl rfl
  ofItem_bad := rfl
  names x v arg h := by cases x <;> cases h <;> decide
  bad := rfl

def BypassOpt.ofItem : Item Char → BypassOpt
  | .opt c arg => if c = code1 then .ip arg else .unknown
  | .bad => .unknown

def BypassOpt.toItem : BypassOpt → Item Char
  | .ip arg => .opt code1 arg
  | .unknown => .bad

def bypassOpts : Codec Char BypassOpt where
  table := optionTable [] [("ip", code1)]
  flag := fun _ => "--ip".toList
  unknown := .unknown
  toItem := BypassOpt.toItem
  ofItem := BypassOpt.ofItem
  ofItem_toItem x := by cases x <;> rfl
  toItem_ofItem
    | .bad => .inl rfl
    | .opt c arg => by
      unfold BypassOpt.ofItem
      dsimp only
      split_ifs with h
      · exact .inr (by rw [h]; rfl)
      · exact .inl rfl
  ofItem_bad := rfl
  names
    | .ip _, _, _, rfl => by decide
  bad := rfl

def WgOpt.ofItem : Item Char → WgOpt
  | .opt c arg => if c = code1 then .ip arg else .unknown
  | .bad => .unknown

def WgOpt.toItem : WgOpt → Item Char
  | .ip arg => .opt code1 arg
  | .unknown => .bad

def wgOpts : Codec Char WgOpt where
  table := optionTable [] [("ip", code1)]
  flag := fun _ => "--ip".toList
  unknown := .unknown
  toItem := WgOpt.toItem
  ofItem := WgOpt.ofItem
  ofItem_toItem x := by cases x <;> rfl
  toItem_ofItem
    | .bad => .inl rfl
    | .opt c arg => by
      unfold WgOpt.ofItem
      dsimp only
      split_ifs with h
      · exact .inr (by rw [h]; rfl)
      · exact .inl rfl
  ofItem_bad := rfl
  names
    | .ip _, _, _, rfl => by decide
  bad := rfl

/-! ## Commands -/

inductive ActionOpcode where
  | badOp | start | stop | add | del | showClients | details | protocol | mapDel | bypassAdd
  | bypassDel | wgAdd | wgDel
  deriving DecidableEq

def actionTable : List (String × ActionOpcode) :=
  [("start", .start), ("stop", .stop), ("add", .add), ("del", .del), ("show", .showClients),
    ("details", .details), ("proto", .protocol), ("map-del", .mapDel),
    ("bypass-add", .bypassAdd), ("bypass-del", .bypassDel), ("wg-add", .wgAdd), ("wg-del", .wgDel)]

/-- The comparison is `strcasecmp`. -/
def hgParseOpcode (cmd : CString) : ActionOpcode :=
  match actionTable.find? fun e => toLower cmd = toLower e.1.toList with
  | some e => e.2
  | none => .badOp

/-- A command line that was understood. -/
inductive MainCommand where
  | start (opts : List StartOpt)
  | stop (opts : List IfaceOpt)
  /-- A command that leaves the devices and the pins alone. -/
  | gateway (cmd : HgctlCommand)

/-- What `show` and `details` take from the libraries. -/
structure ListingLib where
  qsort : Qsort
  fuel : Nat
  clockText : Int64 → CString

/-- `main`; without a command or with an unknown one it prints the help. -/
def hgctlMain (lib : ListingLib) : List CString → MainCommand
  | [] => .gateway .help
  | cmd :: args =>
    match hgParseOpcode cmd with
    | .start => .start (startOpts.read args)
    | .stop => .stop (ifaceOpts.read args)
    | .add => .gateway (.add (addOpts.read args))
    | .del => .gateway (.del (delOpts.read args))
    | .showClients => .gateway (.showClients lib.qsort lib.fuel (ifaceOpts.read args))
    | .details => .gateway (.details lib.clockText (detailsOpts.read args))
    | .protocol => .gateway (.proto (protoOpts.read args))
    | .mapDel => .gateway (.mapDel (mapDelOpts.read args))
    | .bypassAdd => .gateway (.bypassAdd (bypassOpts.read args))
    | .bypassDel => .gateway (.bypassDel (bypassOpts.read args))
    | .wgAdd => .gateway (.wgAdd (wgOpts.read args))
    | .wgDel => .gateway (.wgDel (wgOpts.read args))
    | .badOp => .gateway .help

/-! ## Writing a command line -/

def HgctlCommand.argv : HgctlCommand → List CString
  | .add opts => "add".toList :: addOpts.write opts
  | .del opts => "del".toList :: delOpts.write opts
  | .mapDel opts => "map-del".toList :: mapDelOpts.write opts
  | .proto opts => "proto".toList :: protoOpts.write opts
  | .bypassAdd opts => "bypass-add".toList :: bypassOpts.write opts
  | .bypassDel opts => "bypass-del".toList :: bypassOpts.write opts
  | .wgAdd opts => "wg-add".toList :: wgOpts.write opts
  | .wgDel opts => "wg-del".toList :: wgOpts.write opts
  | .showClients _ _ opts => "show".toList :: ifaceOpts.write opts
  | .details _ opts => "details".toList :: detailsOpts.write opts
  | .help => []

/-- The words of a command behind the name of the program. -/
def MainCommand.argv : MainCommand → List CString
  | .start opts => "start".toList :: startOpts.write opts
  | .stop opts => "stop".toList :: ifaceOpts.write opts
  | .gateway cmd => cmd.argv

/-- The command with these libraries. -/
def MainCommand.withLib (lib : ListingLib) : MainCommand → MainCommand
  | .gateway (.showClients _ _ opts) => .gateway (.showClients lib.qsort lib.fuel opts)
  | .gateway (.details _ opts) => .gateway (.details lib.clockText opts)
  | cmd => cmd

/-- Each name of the table, in lower case, is its own command's. -/
theorem hgParseOpcode_table : ∀ e ∈ actionTable, hgParseOpcode e.1.toList = e.2 := by
  decide +kernel

/-- `main` reads every command line that was written for a command as that command. -/
theorem hgctlMain_argv (lib : ListingLib) (cmd : MainCommand) :
    hgctlMain lib cmd.argv = cmd.withLib lib := by
  have hname := hgParseOpcode_table
  simp only [actionTable, List.forall_mem_cons, List.not_mem_nil, IsEmpty.forall_iff,
    implies_true, and_true] at hname
  obtain ⟨hstart, hstop, hadd, hdel, hshow, hdetails, hproto, hmapDel, hbypassAdd, hbypassDel,
    hwgAdd, hwgDel⟩ := hname
  cases cmd with
  | start opts => simp only [MainCommand.argv, hgctlMain, hstart, Codec.read_write,
      MainCommand.withLib]
  | stop opts => simp only [MainCommand.argv, hgctlMain, hstop, Codec.read_write,
      MainCommand.withLib]
  | gateway cmd =>
    rw [MainCommand.argv]
    cases cmd with
    | help => rfl
    | _ => simp only [HgctlCommand.argv, hgctlMain, hadd, hdel, hshow, hdetails, hproto, hmapDel,
        hbypassAdd, hbypassDel, hwgAdd, hwgDel, Codec.read_write, MainCommand.withLib]

end HawkGate
