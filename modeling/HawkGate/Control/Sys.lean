-- SUMMARY: The system calls of the user-space tools and what each does to the maps.
import HawkGate.Kernel.Common
import HawkGate.Lib.Prog

/-!
# System calls

User space reaches the maps through `bpf_obj_get`, `close` and the element
operations. A tool is a `Prog` over `Sys`, so that it can be run at once or with
packets between any two of its calls.
-/

namespace HawkGate

inductive MapName where
  | hgClients | hgRates | hgProto | hgL2Allow | hgCounters | hgIfbIdx | hgPortalCfg
  | hgConntrack | hgMacIp | hgIpMac | hgBypass | hgWalledGarden
  deriving DecidableEq

inductive ClockId where
  | realtime | monotonic | boottime
  deriving DecidableEq

/-- `struct timespec`. -/
structure Timespec where
  sec : Int64
  nsec : Int64

/-- Nanoseconds as the tools compute them. -/
def Timespec.toNs (ts : Timespec) : UInt64 :=
  ts.sec.toUInt64 * nsecPerSec + ts.nsec.toUInt64

/-- The calls, with the answer each returns. An update or a deletion answers
    whether it returned 0. -/
inductive Sys (ncpu : Nat) : Type → Type where
  | objGet (map : MapName) : Sys ncpu Bool
  | close (map : MapName) : Sys ncpu Unit
  | calloc : Sys ncpu Bool
  | clockGettime (clock : ClockId) : Sys ncpu Timespec
  | lookupClient (k : HgMacKey) : Sys ncpu (Option HgClient)
  | lookupCounter (ip : IpAddr) : Sys ncpu (Option (Fin ncpu → HgCounter))
  | lookupRate (id : UInt32) : Sys ncpu (Option HgRateCfg)
  | lookupMacIp (k : HgMacKey) : Sys ncpu (Option IpAddr)
  | lookupIpMac (ip : IpAddr) : Sys ncpu (Option HgMacKey)
  /-- `bpf_map_get_next_key` on `hg_counters`; `none` for a null key and at the end. -/
  | nextCounterKey (prev : Option IpAddr) : Sys ncpu (Option IpAddr)
  | updateClient (k : HgMacKey) (v : HgClient) : Sys ncpu Bool
  | updateCounter (ip : IpAddr) (v : Fin ncpu → HgCounter) : Sys ncpu Bool
  | updateRate (id : UInt32) (v : HgRateCfg) : Sys ncpu Bool
  | updateProto (k : HgAllowKey) (v : UInt8) : Sys ncpu Bool
  | updateL2Allow (ethProto : UInt16) (v : UInt8) : Sys ncpu Bool
  | updateWalledGarden (k : HgWgKey) (v : UInt8) : Sys ncpu Bool
  | deleteClient (k : HgMacKey) : Sys ncpu Bool
  | deleteCounter (ip : IpAddr) : Sys ncpu Bool
  | deleteRate (id : UInt32) : Sys ncpu Bool
  | deleteConntrack (k : HgCtKey) : Sys ncpu Bool
  | deleteProto (k : HgAllowKey) : Sys ncpu Bool
  | deleteL2Allow (ethProto : UInt16) : Sys ncpu Bool
  | deleteWalledGarden (k : HgWgKey) : Sys ncpu Bool

/-- What the kernel decides for a tool: which maps can be opened, whether memory
    is available, the clocks, and whether an update that finds room succeeds. -/
structure SysEnv where
  objGet : MapName → Bool
  calloc : Bool
  clock : ClockId → Timespec
  update : MapName → Bool

/-- An environment in which no call fails, with every clock at the given reading. -/
def SysEnv.good (ts : Timespec) : SysEnv where
  objGet := fun _ => true
  calloc := true
  clock := fun _ => ts
  update := fun _ => true

variable {ncpu : Nat}

/-- The answer to an element operation, and the map it leaves. -/
def commit {μ : Type} (m : μ) : Option μ → Bool × μ
  | some m' => (true, m')
  | none => (false, m)

/-- Execute one call. -/
def Sys.exec (env : SysEnv) {β : Type} (s : HgMaps ncpu) : Sys ncpu β → β × HgMaps ncpu
  | .objGet map => (env.objGet map, s)
  | .close _ => ((), s)
  | .calloc => (env.calloc, s)
  | .clockGettime clock => (env.clock clock, s)
  | .lookupClient k => (s.clients.lookup k, s)
  | .lookupCounter ip => (s.counters.lookup ip, s)
  | .lookupRate id => (s.rates.lookup id, s)
  | .lookupMacIp k => (s.macIp.lookup k, s)
  | .lookupIpMac ip => (s.ipMac.lookup ip, s)
  | .nextCounterKey prev => (s.counters.nextKey prev, s)
  | .updateClient k v =>
    let r := commit s.clients (if env.update .hgClients then s.clients.update k v else none)
    (r.1, { s with clients := r.2 })
  | .updateCounter ip v =>
    let r := commit s.counters (if env.update .hgCounters then s.counters.update ip v else none)
    (r.1, { s with counters := r.2 })
  | .updateRate id v =>
    let r := commit s.rates (if env.update .hgRates then s.rates.update id v else none)
    (r.1, { s with rates := r.2 })
  | .updateProto k v =>
    let r := commit s.proto (if env.update .hgProto then s.proto.update k v else none)
    (r.1, { s with proto := r.2 })
  | .updateL2Allow p v =>
    let r := commit s.l2Allow (if env.update .hgL2Allow then s.l2Allow.update p v else none)
    (r.1, { s with l2Allow := r.2 })
  | .updateWalledGarden k v =>
    let r := commit s.walledGarden
      (if env.update .hgWalledGarden then s.walledGarden.update k v else none)
    (r.1, { s with walledGarden := r.2 })
  | .deleteClient k =>
    let r := commit s.clients (s.clients.delete k)
    (r.1, { s with clients := r.2 })
  | .deleteCounter ip =>
    let r := commit s.counters (s.counters.delete ip)
    (r.1, { s with counters := r.2 })
  | .deleteRate id =>
    let r := commit s.rates (s.rates.delete id)
    (r.1, { s with rates := r.2 })
  | .deleteConntrack k =>
    let r := commit s.conntrack (s.conntrack.delete k)
    (r.1, { s with conntrack := r.2 })
  | .deleteProto k =>
    let r := commit s.proto (s.proto.delete k)
    (r.1, { s with proto := r.2 })
  | .deleteL2Allow p =>
    let r := commit s.l2Allow (s.l2Allow.delete p)
    (r.1, { s with l2Allow := r.2 })
  | .deleteWalledGarden k =>
    let r := commit s.walledGarden (s.walledGarden.delete k)
    (r.1, { s with walledGarden := r.2 })

/-- The calls that change no map. -/
def Sys.Reads {β : Type} : Sys ncpu β → Prop
  | .objGet _ | .close _ | .calloc | .clockGettime _ | .nextCounterKey _ => True
  | .lookupClient _ | .lookupCounter _ | .lookupRate _ | .lookupMacIp _ | .lookupIpMac _ => True
  | .updateClient _ _ | .updateCounter _ _ | .updateRate _ _ | .updateProto _ _ => False
  | .updateL2Allow _ _ | .updateWalledGarden _ _ | .deleteClient _ | .deleteCounter _ => False
  | .deleteRate _ | .deleteConntrack _ | .deleteProto _ | .deleteL2Allow _ => False
  | .deleteWalledGarden _ => False

theorem Sys.Reads.exec_state {β : Type} {op : Sys ncpu β} (h : op.Reads) (env : SysEnv)
    (s : HgMaps ncpu) : (Sys.exec env s op).2 = s := by
  cases op with
  | objGet | close | calloc | clockGettime | lookupClient | lookupCounter | lookupRate | lookupMacIp
  | lookupIpMac | nextCounterKey => rfl
  | _ => exact h.elim

/-- A tool of user space. -/
abbrev Tool (ncpu : Nat) (α : Type) := Prog (Sys ncpu) α

/-- Run a tool to its end without interruption. -/
def Tool.run {α : Type} (p : Tool ncpu α) (env : SysEnv) (s : HgMaps ncpu) : α × HgMaps ncpu :=
  Prog.run (Sys.exec env) s p

/-- A system call as a tool. -/
abbrev sys {β : Type} (op : Sys ncpu β) : Tool ncpu β := Prog.perform op

@[simp] theorem Tool.run_pure {α : Type} (a : α) (env : SysEnv) (s : HgMaps ncpu) :
    Tool.run (pure a) env s = (a, s) := rfl

@[simp] theorem Tool.run_sys {β : Type} (op : Sys ncpu β) (env : SysEnv) (s : HgMaps ncpu) :
    Tool.run (sys op) env s = Sys.exec env s op := rfl

@[simp] theorem Tool.run_bind {α β : Type} (p : Tool ncpu α) (f : α → Tool ncpu β) (env : SysEnv)
    (s : HgMaps ncpu) :
    Tool.run (p >>= f) env s = (f (p.run env s).1).run env (p.run env s).2 :=
  Prog.run_bind p f

/-- A deletion answers whether the key was there and leaves the map without it. -/
theorem commit_delete {K V : Type} [DecidableEq K] {cap : Nat} (m : BoundedMap K V cap) (k : K) :
    commit m (m.delete k) = ((m.lookup k).isSome, m.erase k) := by
  cases hk : m.lookup k with
  | none =>
    rw [(BoundedMap.delete_eq_none_iff m k).mpr hk, BoundedMap.erase_of_lookup_none hk]
    rfl
  | some v => simp [BoundedMap.delete, hk, commit]

/-- A call that neither reads nor writes the counters. -/
def Sys.SparesCounters {β : Type} : Sys ncpu β → Prop
  | .lookupCounter _ | .nextCounterKey _ | .updateCounter _ _ | .deleteCounter _ => False
  | _ => True

/-- Such a call does the same whatever the counters are. -/
theorem Sys.SparesCounters.exec_eq {β : Type} {op : Sys ncpu β} (h : op.SparesCounters)
    (env : SysEnv) (s : HgMaps ncpu) (c : BoundedMap IpAddr (Fin ncpu → HgCounter) 4096) :
    Sys.exec env { s with counters := c } op =
      ((Sys.exec env s op).1, { (Sys.exec env s op).2 with counters := c }) := by
  cases op with
  | lookupCounter | nextCounterKey | updateCounter | deleteCounter => exact h.elim
  | _ => rfl

/-- An update of a map is accepted by the kernel and finds room. -/
def SysEnv.Accepts {K V : Type} [DecidableEq K] {cap : Nat} (env : SysEnv) (map : MapName)
    (m : BoundedMap K V cap) (k : K) : Prop :=
  env.update map = true ∧ m.HasRoom k

instance {K V : Type} [DecidableEq K] {cap : Nat} (env : SysEnv) (map : MapName)
    (m : BoundedMap K V cap) (k : K) : Decidable (env.Accepts map m k) :=
  inferInstanceAs (Decidable (_ ∧ _))

/-- An update stores the value exactly if it is accepted. -/
theorem commit_update {K V : Type} [DecidableEq K] {cap : Nat} (env : SysEnv) (map : MapName)
    (m : BoundedMap K V cap) (k : K) (v : V) :
    commit m (if env.update map then m.update k v else none) =
      if env.Accepts map m k then (true, m.put k v) else (false, m) := by
  unfold SysEnv.Accepts
  by_cases hok : env.update map = true
  · by_cases hroom : m.HasRoom k
    · simp [hok, hroom, BoundedMap.update_eq_some_put v hroom, commit]
    · simp [hok, hroom, (BoundedMap.update_eq_none_iff m k v).mpr hroom, commit]
  · simp [hok, commit]

/-- The exit status of a tool. -/
inductive Status where
  | success | failed
  deriving DecidableEq

end HawkGate
