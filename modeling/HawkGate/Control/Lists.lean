-- SUMMARY: The hgctl commands on the lists of the gateway: `bypass-add`, `bypass-del` and `show`.
import HawkGate.Control.Protocols
import HawkGate.Control.ReadAll
import HawkGate.Lib.ProgLogic

/-!
# Bypass list and listings

The two bypass actions of `hg_control.c` and `show`, which walks the two
allow-lists. Their calls come on top of those of the other tools; the daemon's
own calls complete the set, so that everything that runs beside the hooks is a
program over `GatewayOp`. What `show` prints is a record; the widths of its
columns are left out.
-/

namespace HawkGate

open CString

variable {ncpu : Nat}

/-! ## Calls -/

/-- The calls on the bypass list and the walks over the allow-lists. -/
inductive ListSys : Type → Type where
  | updateBypass (ip : IpAddr) (v : UInt8) : ListSys Bool
  | deleteBypass (ip : IpAddr) : ListSys Bool
  | nextL2Key (prev : Option UInt16) : ListSys (Option UInt16)
  | lookupL2 (k : UInt16) : ListSys (Option UInt8)
  | nextProtoKey (prev : Option HgAllowKey) : ListSys (Option HgAllowKey)
  | lookupProto (k : HgAllowKey) : ListSys (Option UInt8)

/-- What the daemon does besides: start a process, wait for it, read a page. -/
inductive HostSys : Type → Type where
  | fork : HostSys Bool
  | wait : HostSys Bool
  | readFile (path : List Char) : HostSys (Option (List Char))

inductive GatewayOp (ncpu : Nat) (β : Type) where
  | map (op : Sys ncpu β)
  | list (op : ListSys β)
  | host (op : HostSys β)

/-- What the kernel decides for one call. -/
structure GatewayEnv where
  sys : SysEnv
  fork : Bool
  wait : Bool
  file : List Char → Option (List Char)

def ListSys.exec (env : SysEnv) {β : Type} (s : HgMaps ncpu) : ListSys β → β × HgMaps ncpu
  | .updateBypass ip v =>
    let r := commit s.bypass (if env.update .hgBypass then s.bypass.update ip v else none)
    (r.1, { s with bypass := r.2 })
  | .deleteBypass ip =>
    let r := commit s.bypass (s.bypass.delete ip)
    (r.1, { s with bypass := r.2 })
  | .nextL2Key prev => (s.l2Allow.nextKey prev, s)
  | .lookupL2 k => (s.l2Allow.lookup k, s)
  | .nextProtoKey prev => (s.proto.nextKey prev, s)
  | .lookupProto k => (s.proto.lookup k, s)

def HostSys.answer (env : GatewayEnv) {β : Type} : HostSys β → β
  | .fork => env.fork
  | .wait => env.wait
  | .readFile path => env.file path

def GatewayOp.exec (env : GatewayEnv) {β : Type} (s : HgMaps ncpu) :
    GatewayOp ncpu β → β × HgMaps ncpu
  | .map op => Sys.exec env.sys s op
  | .list op => op.exec env.sys s
  | .host op => (op.answer env, s)

/-- A program beside the hooks. -/
abbrev GatewayProg (ncpu : Nat) (α : Type) := Prog (GatewayOp ncpu) α

def GatewayProg.run {α : Type} (p : GatewayProg ncpu α) (env : GatewayEnv) (s : HgMaps ncpu) :
    α × HgMaps ncpu :=
  Prog.run (GatewayOp.exec env) s p

/-- A tool among the programs. -/
def Tool.lift {α : Type} (p : Tool ncpu α) : GatewayProg ncpu α :=
  p.translate fun op => Prog.perform (.map op)

abbrev mapCall {β : Type} (op : Sys ncpu β) : GatewayProg ncpu β := Prog.perform (.map op)

abbrev listCall {β : Type} (op : ListSys β) : GatewayProg ncpu β := Prog.perform (.list op)

theorem run_lift {α : Type} (p : Tool ncpu α) (env : GatewayEnv) (s : HgMaps ncpu) :
    p.lift.run env s = p.run env.sys s :=
  Prog.run_translate (Sys.exec env.sys) (GatewayOp.exec env) (fun _ _ => rfl) p s

/-- A read of all clients only reads. -/
theorem only_hgReadAll_reads (qsort : Qsort) (fuel : Nat) (sort : HgSortKey)
    (filter : HgStateFilter) (limit : Int32) :
    (hgReadAll qsort fuel sort filter limit : Tool ncpu _).Only Sys.Reads := by
  have hcount : ∀ fuel prev total, (countCounters fuel prev total : Tool ncpu _).Only Sys.Reads := by
    intro fuel
    induction fuel with
    | zero => exact fun _ _ => Prog.only_pure _
    | succ fuel ih =>
      intro prev total
      refine (Prog.only_perform trivial).bind fun key => ?_
      cases key with
      | none => exact Prog.only_pure _
      | some key => exact ih (some key) (total + 1)
  have hfill : ∀ macFd total fuel prev r,
      (fillStatsBuf macFd total fuel prev r : Tool ncpu _).Only Sys.Reads := by
    intro macFd total fuel
    induction fuel with
    | zero => exact fun _ _ => Prog.only_pure _
    | succ fuel ih =>
      intro prev r
      refine (Prog.only_perform trivial).bind fun key => ?_
      cases key with
      | none => exact Prog.only_pure _
      | some key =>
        dsimp only
        split
        · exact (only_readEntry_reads macFd key).bind fun entry => ih (some key) _
        · exact Prog.only_pure _
  have hclose : (closeReadMaps : Tool ncpu Unit).Only Sys.Reads :=
    (Prog.only_perform trivial).bind fun _ => (Prog.only_perform trivial).bind fun _ =>
      Prog.only_perform trivial
  have hcloseIf : ∀ opened, (closeIf opened .hgIpMac : Tool ncpu Unit).Only Sys.Reads :=
    fun opened => only_closeIf opened trivial
  unfold hgReadAll
  refine (only_openReadMaps (fun _ => trivial) fun _ => trivial).bind fun opened => ?_
  split
  · refine (Prog.only_perform trivial).bind fun macFd => (Prog.only_perform trivial).bind fun mem => ?_
    split
    · refine (hcount _ _ _).bind fun total => ?_
      split
      · exact Prog.only_pure _
      · exact hclose.bind fun _ => Prog.only_pure _
      · refine (Prog.only_perform trivial).bind fun mem => ?_
        split
        · refine (hfill _ _ _ _ _).bind fun r => ?_
          split
          · exact Prog.only_pure _
          · exact (hcloseIf _).bind fun _ => hclose.bind fun _ => Prog.only_pure _
        · exact hclose.bind fun _ => Prog.only_pure _
    · exact (hcloseIf _).bind fun _ => hclose.bind fun _ => Prog.only_pure _
  · exact Prog.only_pure _

/-! ## Bypass -/

/-- Open the bypass list, change it, close it. -/
def withBypass (change : ListSys Bool) : GatewayProg ncpu Status := do
  if ← mapCall (.objGet .hgBypass) then
    let ok ← listCall change
    mapCall (.close .hgBypass)
    pure (removed ok)
  else pure .failed

def bypassAddAction (ip : CString) : GatewayProg ncpu Status :=
  match inetPton ip with
  | none => pure .failed
  | some ipKey => withBypass (.updateBypass ipKey 1)

def bypassDelAction (ip : CString) : GatewayProg ncpu Status :=
  match inetPton ip with
  | none => pure .failed
  | some ipKey => withBypass (.deleteBypass ipKey)

inductive BypassOpt where
  | ip (arg : CString)
  | unknown

/-- One turn of the option loop of both commands; the buffer has 16 bytes. -/
def BypassOpt.set (_ : CString) : BypassOpt → Option CString
  | .ip arg => some (strncpyInto 16 arg)
  | .unknown => none

def parseBypass (opts : List BypassOpt) : Option CString := do
  nonEmpty (← opts.foldlM BypassOpt.set [])

def hgctlBypassAdd (opts : List BypassOpt) : GatewayProg ncpu Status :=
  match parseBypass opts with
  | none => pure .failed
  | some ip => bypassAddAction ip

def hgctlBypassDel (opts : List BypassOpt) : GatewayProg ncpu Status :=
  match parseBypass opts with
  | none => pure .failed
  | some ip => bypassDelAction ip

/-! ## show -/

/-- The keys behind `prev` that are still there when they are looked up; `none` when the fuel runs
    out. -/
def listKeys {K : Type} (next : Option K → ListSys (Option K)) (lookup : K → ListSys (Option UInt8)) :
    Nat → Option K → List K → GatewayProg ncpu (Option (List K))
  | 0, _, _ => pure none
  | fuel + 1, prev, acc => do
    match ← listCall (next prev) with
    | none => pure (some acc)
    | some key =>
      let val ← listCall (lookup key)
      listKeys next lookup fuel (some key) (if val.isSome then acc ++ [key] else acc)

/-- The allow rules that are printed. -/
structure RuleListing where
  l2 : List UInt16
  l3l4 : List HgAllowKey

inductive ListingOutcome where
  | failed
  | done (rules : RuleListing)
  | outOfFuel

def showProtocols (fuel : Nat) : GatewayProg ncpu ListingOutcome := do
  let l2Fd ← mapCall (.objGet .hgL2Allow)
  let l3l4Fd ← mapCall (.objGet .hgProto)
  if l2Fd && l3l4Fd then
    match ← listKeys .nextL2Key .lookupL2 fuel none [] with
    | none => pure .outOfFuel
    | some l2 =>
      match ← listKeys .nextProtoKey .lookupProto fuel none [] with
      | none => pure .outOfFuel
      | some l3l4 =>
        mapCall (.close .hgL2Allow)
        mapCall (.close .hgProto)
        pure (.done ⟨l2, l3l4⟩)
  else
    (closeIf l2Fd .hgL2Allow).lift
    (closeIf l3l4Fd .hgProto).lift
    pure .failed

/-- What `show` prints: the totals, the clients, and behind them the rules. -/
inductive ShowOutcome where
  | failed
  /-- No rules are printed. -/
  | noClients (summary : HgGatewayStats)
  | clients (summary : HgGatewayStats) (stats : List HgClientStats) (rules : ListingOutcome)
  | outOfFuel

def showAction (qsort : Qsort) (fuel : Nat) : GatewayProg ncpu ShowOutcome := do
  match ← (hgReadAll qsort fuel .dnBytes .all 20).lift with
  | .failed => pure .failed
  | .outOfFuel => pure .outOfFuel
  | .done r =>
    if r.stats = [] then pure (.noClients r.summary)
    else
      let rules ← showProtocols fuel
      pure (.clients r.summary r.stats rules)

/-- The options of `show` and `stop`. -/
inductive IfaceOpt where
  | iface (arg : CString)
  | unknown

def IfaceOpt.set (_ : CString) : IfaceOpt → Option CString
  | .iface arg => some (strncpyInto 16 arg)
  | .unknown => none

def parseIface (opts : List IfaceOpt) : Option CString := do
  nonEmpty (← opts.foldlM IfaceOpt.set [])

/-- The status does not depend on what `show_action` returns. -/
def hgctlShow (qsort : Qsort) (fuel : Nat) (opts : List IfaceOpt) : GatewayProg ncpu Status :=
  match parseIface opts with
  | none => pure .failed
  | some _ => do
    let _ ← showAction qsort fuel
    pure .success

end HawkGate
