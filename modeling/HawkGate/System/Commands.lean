-- SUMMARY: A host whose hgctl commands run one system call at a time, with packets and other commands in between.
import HawkGate.Control.Cli
import HawkGate.Kernel.Hooks
import HawkGate.Lib.Transition

/-!
# Running commands

A command is a process that makes its system calls one by one. Between any two
of them other commands make theirs and packets go through the hooks. A command
whose calls follow each other directly does what the uninterrupted command does.
-/

namespace HawkGate

open Transition

variable {ncpu : Nat}

inductive Command where
  | add (opts : List AddOpt)
  | del (opts : List DelOpt)

def Command.tool : Command → Tool ncpu Status
  | .add opts => hgctlAdd opts
  | .del opts => hgctlDel opts

/-- The command is an add with limits for both directions. -/
def Command.limited : Command → Bool
  | .add opts => (parseAdd opts).any fun a => a.dLimit ≠ 0 ∧ a.uLimit ≠ 0
  | .del _ => false

/-- A command with what is left of it. -/
structure Process (ncpu : Nat) where
  command : Command
  rest : Tool ncpu Status

structure CommandHost (ncpu : Nat) where
  maps : HgMaps ncpu
  running : List (Process ncpu)

inductive CommandEvent (ncpu : Nat) where
  | start (c : Command)
  /-- The command at this position makes its next call. -/
  | call (i : Nat) (env : SysEnv)
  | ingress (env : BpfEnv ncpu) (skb : SkBuff)
  | egress (env : BpfEnv ncpu) (skb : SkBuff)

def CommandHost.step (st : CommandHost ncpu) : CommandEvent ncpu → CommandHost ncpu
  | .start c => { st with running := st.running ++ [⟨c, c.tool⟩] }
  | .call i env =>
    match st.running[i]? with
    | none => st
    | some p =>
      let r := Prog.advance (Sys.exec env) st.maps p.rest
      { maps := r.2, running := st.running.set i { p with rest := r.1 } }
  | .ingress env skb => { st with maps := (hgTcIngress env st.maps skb).maps }
  | .egress env skb => { st with maps := (hgTcEgress env st.maps skb).maps }

/-- A process left alone makes its calls to the end, and the maps are those of the
    uninterrupted run. -/
theorem run_calls (env : SysEnv) (i : Nat) {st : CommandHost ncpu} {p : Process ncpu}
    (hp : st.running[i]? = some p) :
    ∃ n, (run CommandHost.step st (List.replicate n (.call i env))).maps =
      (p.rest.run env st.maps).2 := by
  obtain ⟨c, rest⟩ := p
  induction rest generalizing st with
  | ret a => exact ⟨0, rfl⟩
  | call op k ih =>
    have hlt : i < st.running.length := (List.getElem?_eq_some_iff.mp hp).1
    have hstep : st.step (.call i env) =
        ⟨(Sys.exec env st.maps op).2, st.running.set i ⟨c, k (Sys.exec env st.maps op).1⟩⟩ := by
      rw [CommandHost.step, hp]
      rfl
    have hnext : (st.step (.call i env)).running[i]? =
        some ⟨c, k (Sys.exec env st.maps op).1⟩ := by
      rw [hstep]
      exact List.getElem?_set_self hlt
    obtain ⟨n, hn⟩ := ih _ hnext
    refine ⟨n + 1, ?_⟩
    rw [List.replicate_succ, run_cons, hn, hstep]
    rfl

/-! ## What a call writes -/

/-- A write to the client, the counter or the rate map; a deletion writes `none`. -/
inductive MapWrite (ncpu : Nat) where
  | client (m : HgMacKey) (v : Option HgClient)
  | counter (ip : IpAddr) (v : Option (Fin ncpu → HgCounter))
  | rate (id : UInt32) (v : Option HgRateCfg)

/-- The accepted write of a call, if it is one to these maps. -/
def Sys.write (env : SysEnv) (s : HgMaps ncpu) {β : Type} : Sys ncpu β → Option (MapWrite ncpu)
  | .updateClient m v =>
    if env.Accepts .hgClients s.clients m then some (.client m (some v)) else none
  | .updateCounter ip v =>
    if env.Accepts .hgCounters s.counters ip then some (.counter ip (some v)) else none
  | .updateRate id v =>
    if env.Accepts .hgRates s.rates id then some (.rate id (some v)) else none
  | .deleteClient m => some (.client m none)
  | .deleteCounter ip => some (.counter ip none)
  | .deleteRate id => some (.rate id none)
  | _ => none

def MapWrite.clients (w : Option (MapWrite ncpu)) (before : HgMacKey → Option HgClient) :
    HgMacKey → Option HgClient :=
  match w with
  | some (.client m v) => Function.update before m v
  | _ => before

def MapWrite.counters (w : Option (MapWrite ncpu))
    (before : IpAddr → Option (Fin ncpu → HgCounter)) : IpAddr → Option (Fin ncpu → HgCounter) :=
  match w with
  | some (.counter ip v) => Function.update before ip v
  | _ => before

def MapWrite.rates (w : Option (MapWrite ncpu)) (before : UInt32 → Option HgRateCfg) :
    UInt32 → Option HgRateCfg :=
  match w with
  | some (.rate id v) => Function.update before id v
  | _ => before

/-- After a call the three maps hold what it wrote, and otherwise what they held before. -/
theorem lookup_exec (env : SysEnv) (s : HgMaps ncpu) {β : Type} (op : Sys ncpu β) :
    (Sys.exec env s op).2.clients.lookup = MapWrite.clients (op.write env s) s.clients.lookup ∧
      (Sys.exec env s op).2.counters.lookup =
        MapWrite.counters (op.write env s) s.counters.lookup ∧
      (Sys.exec env s op).2.rates.lookup = MapWrite.rates (op.write env s) s.rates.lookup := by
  cases op with
  | updateClient m v =>
    simp only [Sys.exec, commit_update, Sys.write]
    by_cases hok : env.Accepts .hgClients s.clients m
    · rw [if_pos hok, if_pos hok]
      exact ⟨BoundedMap.lookup_put_eq_update _ hok.2 v, rfl, rfl⟩
    · rw [if_neg hok, if_neg hok]
      exact ⟨rfl, rfl, rfl⟩
  | updateCounter ip v =>
    simp only [Sys.exec, commit_update, Sys.write]
    by_cases hok : env.Accepts .hgCounters s.counters ip
    · rw [if_pos hok, if_pos hok]
      exact ⟨rfl, BoundedMap.lookup_put_eq_update _ hok.2 v, rfl⟩
    · rw [if_neg hok, if_neg hok]
      exact ⟨rfl, rfl, rfl⟩
  | updateRate id v =>
    simp only [Sys.exec, commit_update, Sys.write]
    by_cases hok : env.Accepts .hgRates s.rates id
    · rw [if_pos hok, if_pos hok]
      exact ⟨rfl, rfl, BoundedMap.lookup_put_eq_update _ hok.2 v⟩
    · rw [if_neg hok, if_neg hok]
      exact ⟨rfl, rfl, rfl⟩
  | deleteClient m =>
    simp only [Sys.exec, commit_delete, Sys.write]
    exact ⟨BoundedMap.lookup_erase_eq_update _ m, rfl, rfl⟩
  | deleteCounter ip =>
    simp only [Sys.exec, commit_delete, Sys.write]
    exact ⟨rfl, BoundedMap.lookup_erase_eq_update _ ip, rfl⟩
  | deleteRate id =>
    simp only [Sys.exec, commit_delete, Sys.write]
    exact ⟨rfl, rfl, BoundedMap.lookup_erase_eq_update _ id⟩
  | _ => exact ⟨rfl, rfl, rfl⟩

/-- The write of the next call of a process. -/
def Process.write (p : Process ncpu) (env : SysEnv) (s : HgMaps ncpu) : Option (MapWrite ncpu) :=
  match p.rest with
  | .ret _ => none
  | .call op _ => op.write env s

theorem lookup_advance (p : Process ncpu) (env : SysEnv) (s : HgMaps ncpu) :
    let s' := (Prog.advance (Sys.exec env) s p.rest).2
    s'.clients.lookup = MapWrite.clients (p.write env s) s.clients.lookup ∧
      s'.counters.lookup = MapWrite.counters (p.write env s) s.counters.lookup ∧
      s'.rates.lookup = MapWrite.rates (p.write env s) s.rates.lookup := by
  obtain ⟨c, rest⟩ := p
  cases rest with
  | ret a => exact ⟨rfl, rfl, rfl⟩
  | call op k => exact lookup_exec env s op

end HawkGate
