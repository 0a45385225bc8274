-- SUMMARY: The whole gateway: packets, hgctl commands and HTTP requests, interleaved one call at a time.
import HawkGate.Control.Details
import HawkGate.Control.Lists
import HawkGate.Control.WalledGarden
import HawkGate.Daemon.Portal
import HawkGate.Kernel.Hooks
import HawkGate.Lib.Transition

/-!
# The gateway

Everything that runs beside the hooks is a party: an `hgctl` command, or an HTTP
request that the daemon answers. A party makes its calls one by one, and between
any two of them other parties make theirs and packets go through the hooks.
`start` and `stop` replace the maps and are not among the commands here.
-/

namespace HawkGate

open CString Transition

variable {ncpu : Nat}

/-! ## Commands -/

inductive DetailsOpt where
  | iface (arg : CString)
  | client (arg : CString)
  | unknown

/-- The local variables of `parse_details`. -/
structure DetailsVars where
  iface : CString
  ip : CString

def DetailsVars.set (v : DetailsVars) : DetailsOpt → Option DetailsVars
  | .iface arg => some { v with iface := strncpyInto 16 arg }
  | .client arg => some { v with ip := strncpyInto 16 arg }
  | .unknown => none

def parseDetails (opts : List DetailsOpt) : Option DetailsVars := do
  let v ← opts.foldlM DetailsVars.set ⟨[], []⟩
  if v.iface = [] then none else some v

/-- Without a client `details_action` prints how to name one. -/
def hgctlDetails (clockText : Int64 → CString) (opts : List DetailsOpt) : Tool ncpu Status :=
  match parseDetails opts with
  | none => pure .failed
  | some v =>
    if v.ip ≠ [] then do
      match ← detailsOneAction clockText v.ip with
      | none => pure .failed
      | some _ => pure .success
    else pure .failed

inductive HgctlCommand where
  | add (opts : List AddOpt)
  | del (opts : List DelOpt)
  | mapDel (opts : List MapDelOpt)
  | proto (opts : List ProtoOpt)
  | bypassAdd (opts : List BypassOpt)
  | bypassDel (opts : List BypassOpt)
  | wgAdd (opts : List WgOpt)
  | wgDel (opts : List WgOpt)
  | showClients (qsort : Qsort) (fuel : Nat) (opts : List IfaceOpt)
  | details (clockText : Int64 → CString) (opts : List DetailsOpt)
  /-- No command, or one that is not in the table. -/
  | help

def HgctlCommand.prog : HgctlCommand → GatewayProg ncpu Status
  | .add opts => (hgctlAdd opts).lift
  | .del opts => (hgctlDel opts).lift
  | .mapDel opts => (hgctlMapDel opts).lift
  | .proto opts => (hgctlProto opts).lift
  | .bypassAdd opts => hgctlBypassAdd opts
  | .bypassDel opts => hgctlBypassDel opts
  | .wgAdd opts => (hgctlWgAdd opts).lift
  | .wgDel opts => (hgctlWgDel opts).lift
  | .showClients qsort fuel opts => hgctlShow qsort fuel opts
  | .details clockText opts => (hgctlDetails clockText opts).lift
  | .help => pure .failed

/-! ## Requests -/

/-- An operation of the daemon in calls. The status of a command counts only if it was waited for. -/
def DaemonOp.calls {β : Type} : DaemonOp β → GatewayProg ncpu β
  | .execCmd cmd => do
    if ← Prog.perform (.host .fork) then
      let st ← cmd.tool.lift
      let waited ← Prog.perform (.host .wait)
      pure (waited && st = .success)
    else pure false
  | .readOne ip => (hgReadOne ip).lift
  | .readFile path => Prog.perform (.host (.readFile path))

def Daemon.calls {α : Type} (p : Daemon α) : GatewayProg ncpu α := p.translate DaemonOp.calls

/-- The environment of a daemon whose every call is answered alike. -/
def GatewayEnv.daemon (env : GatewayEnv) : DaemonEnv where
  fork := fun _ => env.fork
  wait := fun _ => env.wait
  sys := fun _ => env.sys
  readerSys := env.sys
  file := env.file

/-- Left alone, the calls of the daemon do what its operations do. -/
theorem run_calls_daemon {α : Type} (p : Daemon α) (env : GatewayEnv) (s : HgMaps ncpu) :
    p.calls.run env s = p.run env.daemon s := by
  refine Prog.run_translate (DaemonOp.exec env.daemon) (GatewayOp.exec env) ?_ p s
  intro β s op
  cases op with
  | execCmd cmd =>
    have htool : Prog.run (GatewayOp.exec env) s cmd.tool.lift = cmd.tool.run env.sys s :=
      run_lift cmd.tool env s
    cases hfork : env.fork with
    | false => simp [DaemonOp.calls, DaemonOp.exec, GatewayOp.exec, HostSys.answer,
        GatewayEnv.daemon, hfork]
    | true => simp [DaemonOp.calls, DaemonOp.exec, GatewayOp.exec, HostSys.answer,
        GatewayEnv.daemon, hfork, htool]
  | readOne ip => exact run_lift _ env s
  | readFile path => rfl

/-! ## Parties -/

inductive Party where
  | hgctl (cmd : HgctlCommand)
  | request (cfg : HgConfig) (provider : AuthProvider) (req : HttpRequest) (clientIp : List Char)
      (clientPort : UInt16)

inductive Reply where
  | exit (st : Status)
  | response (text : List Char)

def Party.prog : Party → GatewayProg ncpu Reply
  | .hgctl cmd => do
    let st ← cmd.prog
    pure (.exit st)
  | .request cfg provider req clientIp clientPort => do
    let text ← (route cfg provider req clientIp clientPort).calls
    pure (.response text)

/-- A party with what is left of its program. -/
structure RunningParty (ncpu : Nat) where
  party : Party
  rest : GatewayProg ncpu Reply

structure Gateway (ncpu : Nat) where
  maps : HgMaps ncpu
  running : List (RunningParty ncpu)

/-- The gateway that `start` leaves. -/
def Gateway.start (ncpu : Nat) (portal : HgPortalCfg) (ifb : UInt32) : Gateway ncpu :=
  ⟨.start ncpu portal ifb, []⟩

inductive GatewayEvent (ncpu : Nat) where
  | start (p : Party)
  /-- The party at this position makes its next call. -/
  | call (i : Nat) (env : GatewayEnv)
  | ingress (env : BpfEnv ncpu) (skb : SkBuff)
  | egress (env : BpfEnv ncpu) (skb : SkBuff)

def Gateway.step (g : Gateway ncpu) : GatewayEvent ncpu → Gateway ncpu
  | .start p => { g with running := g.running ++ [⟨p, p.prog⟩] }
  | .call i env =>
    match g.running[i]? with
    | none => g
    | some p =>
      let r := p.rest.advance (GatewayOp.exec env) g.maps
      { maps := r.2, running := g.running.set i { p with rest := r.1 } }
  | .ingress env skb => { g with maps := (hgTcIngress env g.maps skb).maps }
  | .egress env skb => { g with maps := (hgTcEgress env g.maps skb).maps }

/-- A party left alone makes its calls to the end, as its uninterrupted program does. -/
theorem run_replicate_call (env : GatewayEnv) {i : Nat} {party : Party} (rest : GatewayProg ncpu Reply)
    {g : Gateway ncpu} (h : g.running[i]? = some ⟨party, rest⟩) :
    ∃ n, run Gateway.step g (List.replicate n (.call i env)) =
      ⟨(rest.run env g.maps).2, g.running.set i ⟨party, .ret (rest.run env g.maps).1⟩⟩ := by
  induction rest generalizing g with
  | ret a =>
    refine ⟨0, ?_⟩
    obtain ⟨hi, hparty⟩ := List.getElem?_eq_some_iff.mp h
    have hset : g.running.set i ⟨party, .ret a⟩ = g.running := by
      rw [← hparty, List.set_getElem_self]
    exact congrArg (Gateway.mk g.maps) hset.symm
  | call op k ih =>
    have hi : i < g.running.length := (List.getElem?_eq_some_iff.mp h).1
    obtain ⟨n, hn⟩ := ih (GatewayOp.exec env g.maps op).1
      (g := ⟨(GatewayOp.exec env g.maps op).2,
        g.running.set i ⟨party, k (GatewayOp.exec env g.maps op).1⟩⟩) (List.getElem?_set_self hi)
    have hstep : g.step (.call i env) = ⟨(GatewayOp.exec env g.maps op).2,
        g.running.set i ⟨party, k (GatewayOp.exec env g.maps op).1⟩⟩ := by
      rw [Gateway.step, h]
      rfl
    refine ⟨n + 1, ?_⟩
    rw [List.replicate_succ, run_cons, hstep, hn, List.set_set]
    rfl

end HawkGate
