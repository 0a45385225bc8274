-- SUMMARY: The hgctl commands `add`, `del` and `map-del` from their parsed options to the action they run.
import HawkGate.Control.Actions

/-!
# Commands

`parse_add`, `parse_del` and `parse_map_del` of `hg_cli.c`. A command line is the
list of options that `getopt_long` returns, in order; `unknown` is its `?`.
A command that prints its help returns `FAILED` without touching a map.
-/

namespace HawkGate

open CString

variable {ncpu : Nat}

/-- `strncpy(buf, optarg, sizeof(buf) - 1)` into a zeroed buffer of `size` bytes. -/
def strncpyInto (size : Nat) (arg : CString) : CString := arg.take (size - 1)

/-- A text argument that is passed as NULL when it is empty. -/
def nonEmpty (s : CString) : Option CString := if s = [] then none else some s

/-! ## add -/

inductive AddOpt where
  | iface (arg : CString)
  | mac (arg : CString)
  | client (arg : CString)
  | expire (arg : CString)
  | idle (arg : CString)
  | downloadRate (arg : CString)
  | uploadRate (arg : CString)
  | unknown

/-- The local variables of `parse_add`. -/
structure AddVars where
  iface : CString
  mac : CString
  ip : CString
  expire : Int64
  idle : Int64
  dLimit : UInt64
  uLimit : UInt64

def AddVars.init : AddVars := ⟨[], [], [], 0, 0, 0, 0⟩

/-- One turn of the option loop. -/
def AddVars.set (v : AddVars) : AddOpt → Option AddVars
  | .iface arg => some { v with iface := strncpyInto 16 arg }
  | .mac arg => some { v with mac := strncpyInto 18 arg }
  | .client arg => some { v with ip := strncpyInto 16 arg }
  | .expire arg => some { v with expire := atoll arg }
  | .idle arg => some { v with idle := atoll arg }
  | .downloadRate arg => some { v with dLimit := (atoll arg).toUInt64 }
  | .uploadRate arg => some { v with uLimit := (atoll arg).toUInt64 }
  | .unknown => none

def rateIdNoLimit : UInt32 := 0

/-- The rate id of an add: the last octet of the address, or else the last byte of
    the MAC, if both limits are given. -/
def addRateId (ip mac : CString) (dLimit uLimit : UInt64) : UInt32 :=
  if dLimit ≠ 0 ∧ uLimit ≠ 0 then
    if ip ≠ [] then (atoi ((afterLast '.' ip).getD ['0'])).toUInt32
    else UInt32.ofNat (((afterLast ':' mac).bind scanHex).elim 0 Prod.fst)
  else rateIdNoLimit

def parseAdd (opts : List AddOpt) : Option AddArgs := do
  let v ← opts.foldlM AddVars.set .init
  if v.iface = [] ∨ (v.mac = [] ∧ v.ip = []) then none
  else
    some {
      mac := nonEmpty v.mac
      ip := nonEmpty v.ip
      expire := v.expire
      idle := v.idle
      dLimit := v.dLimit
      uLimit := v.uLimit
      rateId := addRateId v.ip v.mac v.dLimit v.uLimit }

def hgctlAdd (opts : List AddOpt) : Tool ncpu Status :=
  match parseAdd opts with
  | none => pure .failed
  | some a => addAction a

/-! ## del -/

inductive DelOpt where
  | iface (arg : CString)
  | mac (arg : CString)
  | client (arg : CString)
  | unknown

/-- The local variables of `parse_del`. -/
structure DelVars where
  iface : CString
  mac : CString
  ip : CString

def DelVars.init : DelVars := ⟨[], [], []⟩

def DelVars.set (v : DelVars) : DelOpt → Option DelVars
  | .iface arg => some { v with iface := strncpyInto 16 arg }
  | .mac arg => some { v with mac := strncpyInto 18 arg }
  | .client arg => some { v with ip := strncpyInto 16 arg }
  | .unknown => none

def parseDel (opts : List DelOpt) : Option DelVars := do
  let v ← opts.foldlM DelVars.set .init
  if v.iface = [] ∨ (v.mac = [] ∧ v.ip = []) then none else some v

def hgctlDel (opts : List DelOpt) : Tool ncpu Status :=
  match parseDel opts with
  | none => pure .failed
  | some v =>
    if v.mac ≠ [] then delAction v.mac
    else do
      match ← resolveIpToMac v.ip with
      | none => pure .failed
      | some mac => delAction (strncpyInto 18 mac)

/-! ## map-del -/

inductive MapDelOpt where
  | map (arg : CString)
  | key (arg : CString)
  | unknown

/-- The local variables of `parse_map_del`. -/
structure MapDelVars where
  mapName : CString
  keySpec : CString

def MapDelVars.init : MapDelVars := ⟨[], []⟩

def MapDelVars.set (v : MapDelVars) : MapDelOpt → Option MapDelVars
  | .map arg => some { v with mapName := strncpyInto 32 arg }
  | .key arg => some { v with keySpec := strncpyInto 64 arg }
  | .unknown => none

def parseMapDel (opts : List MapDelOpt) : Option MapDelVars := do
  let v ← opts.foldlM MapDelVars.set .init
  if v.mapName = [] ∨ v.keySpec = [] then none else some v

def hgctlMapDel (opts : List MapDelOpt) : Tool ncpu Status :=
  match parseMapDel opts with
  | none => pure .failed
  | some v => mapDelAction v.mapName v.keySpec

end HawkGate
