-- SUMMARY: What the tables of the gateway permit, and how one call or one packet changes it.
import HawkGate.Kernel.Stages
import HawkGate.System.Gateway

/-!
# Permissions

Five tables let traffic through: the sessions, the bypass list, the two
allow-lists and the walled garden. A permission is a key in one of them. The
abstract view of the gateway is the set of its permissions; a call grants one,
revokes one or leaves the set alone, and a packet can only end a session.
-/

namespace HawkGate

open Bytes HawkGate.Frame Transition

variable {ncpu : Nat}

inductive Permission where
  | session (m : HgMacKey)
  | bypass (ip : IpAddr)
  | rule (k : HgAllowKey)
  | etherType (p : UInt16)
  | garden (k : HgWgKey)
  deriving DecidableEq

def HgMaps.permits (s : HgMaps ncpu) : Permission → Bool
  | .session m => (s.clients.lookup m).isSome
  | .bypass ip => (s.bypass.lookup ip).isSome
  | .rule k => (s.proto.lookup k).isSome
  | .etherType p => (s.l2Allow.lookup p).isSome
  | .garden k => (s.walledGarden.lookup k).isSome

/-- The table of a permission. -/
def Permission.map : Permission → MapName
  | .session _ => .hgClients
  | .bypass _ => .hgBypass
  | .rule _ => .hgProto
  | .etherType _ => .hgL2Allow
  | .garden _ => .hgWalledGarden

/-- The table can be opened, and an update of it fails for lack of room only. -/
def SysEnv.Opens (env : SysEnv) (p : Permission) : Prop :=
  env.objGet p.map = true ∧ env.update p.map = true

/-- The table holds the permission or takes one more. -/
def HgMaps.RoomFor (s : HgMaps ncpu) : Permission → Prop
  | .session m => s.clients.HasRoom m
  | .bypass ip => s.bypass.HasRoom ip
  | .rule k => s.proto.HasRoom k
  | .etherType p => s.l2Allow.HasRoom p
  | .garden k => s.walledGarden.HasRoom k

/-- The permission that a call sets, and whether it grants or revokes it; `none` for a call that
    leaves the permissions alone or is refused. -/
def Sys.setsPermission (env : SysEnv) (s : HgMaps ncpu) {β : Type} :
    Sys ncpu β → Option (Permission × Bool)
  | .updateClient m _ =>
    if env.Accepts .hgClients s.clients m then some (.session m, true) else none
  | .updateProto k _ => if env.Accepts .hgProto s.proto k then some (.rule k, true) else none
  | .updateL2Allow p _ =>
    if env.Accepts .hgL2Allow s.l2Allow p then some (.etherType p, true) else none
  | .updateWalledGarden k _ =>
    if env.Accepts .hgWalledGarden s.walledGarden k then some (.garden k, true) else none
  | .deleteClient m => some (.session m, false)
  | .deleteProto k => some (.rule k, false)
  | .deleteL2Allow p => some (.etherType p, false)
  | .deleteWalledGarden k => some (.garden k, false)
  | _ => none

def ListSys.setsPermission (env : SysEnv) (s : HgMaps ncpu) {β : Type} :
    ListSys β → Option (Permission × Bool)
  | .updateBypass ip _ =>
    if env.Accepts .hgBypass s.bypass ip then some (.bypass ip, true) else none
  | .deleteBypass ip => some (.bypass ip, false)
  | _ => none

def GatewayOp.setsPermission (env : GatewayEnv) (s : HgMaps ncpu) {β : Type} :
    GatewayOp ncpu β → Option (Permission × Bool)
  | .map op => op.setsPermission env.sys s
  | .list op => op.setsPermission env.sys s
  | .host _ => none

/-- The value of one permission after another was set. -/
def setPermission (held : Bool) (p : Permission) : Option (Permission × Bool) → Bool
  | some (q, b) => if p = q then b else held
  | none => held

@[simp] theorem setPermission_none (held : Bool) (p : Permission) :
    setPermission held p none = held := rfl

@[simp] theorem setPermission_some (held : Bool) (p q : Permission) (b : Bool) :
    setPermission held p (some (q, b)) = if p = q then b else held := rfl

/-! ## One call -/

theorem permits_exec_sys (env : SysEnv) (s : HgMaps ncpu) {β : Type} (op : Sys ncpu β)
    (p : Permission) :
    (Sys.exec env s op).2.permits p = setPermission (s.permits p) p (op.setsPermission env s) := by
  cases op with
  | updateClient m v =>
    simp only [Sys.exec, commit_update, Sys.setsPermission]
    by_cases hok : env.Accepts .hgClients s.clients m
    · cases p <;> simp [hok, HgMaps.permits, BoundedMap.isSome_put _ _ hok.2]
    · simp [hok]
  | updateProto k v =>
    simp only [Sys.exec, commit_update, Sys.setsPermission]
    by_cases hok : env.Accepts .hgProto s.proto k
    · cases p <;> simp [hok, HgMaps.permits, BoundedMap.isSome_put _ _ hok.2]
    · simp [hok]
  | updateL2Allow k v =>
    simp only [Sys.exec, commit_update, Sys.setsPermission]
    by_cases hok : env.Accepts .hgL2Allow s.l2Allow k
    · cases p <;> simp [hok, HgMaps.permits, BoundedMap.isSome_put _ _ hok.2]
    · simp [hok]
  | updateWalledGarden k v =>
    simp only [Sys.exec, commit_update, Sys.setsPermission]
    by_cases hok : env.Accepts .hgWalledGarden s.walledGarden k
    · cases p <;> simp [hok, HgMaps.permits, BoundedMap.isSome_put _ _ hok.2]
    · simp [hok]
  | deleteClient m => cases p <;> simp [Sys.exec, commit_delete, Sys.setsPermission, HgMaps.permits,
      BoundedMap.isSome_erase]
  | deleteProto k => cases p <;> simp [Sys.exec, commit_delete, Sys.setsPermission, HgMaps.permits,
      BoundedMap.isSome_erase]
  | deleteL2Allow k => cases p <;> simp [Sys.exec, commit_delete, Sys.setsPermission, HgMaps.permits,
      BoundedMap.isSome_erase]
  | deleteWalledGarden k => cases p <;> simp [Sys.exec, commit_delete, Sys.setsPermission,
      HgMaps.permits, BoundedMap.isSome_erase]
  | _ => cases p <;> rfl

theorem permits_exec_list (env : SysEnv) (s : HgMaps ncpu) {β : Type} (op : ListSys β)
    (p : Permission) :
    (op.exec env s).2.permits p = setPermission (s.permits p) p (op.setsPermission env s) := by
  cases op with
  | updateBypass ip v =>
    simp only [ListSys.exec, commit_update, ListSys.setsPermission]
    by_cases hok : env.Accepts .hgBypass s.bypass ip
    · cases p <;> simp [hok, HgMaps.permits, BoundedMap.isSome_put _ _ hok.2]
    · simp [hok]
  | deleteBypass ip => cases p <;> simp [ListSys.exec, commit_delete, ListSys.setsPermission,
      HgMaps.permits, BoundedMap.isSome_erase]
  | _ => rfl

/-- A call sets the permission that it is for and no other. -/
theorem permits_exec (env : GatewayEnv) (s : HgMaps ncpu) {β : Type} (op : GatewayOp ncpu β)
    (p : Permission) :
    (op.exec env s).2.permits p = setPermission (s.permits p) p (op.setsPermission env s) := by
  cases op with
  | map op => exact permits_exec_sys env.sys s op p
  | list op => exact permits_exec_list env.sys s op p
  | host op => rfl

/-! ## One packet -/

/-- A packet at ingress ends at most the session of its sender. -/
theorem permits_hgTcIngress (env : BpfEnv ncpu) (s : HgMaps ncpu) (skb : SkBuff) (p : Permission) :
    (hgTcIngress env s skb).maps.permits p =
      setPermission (s.permits p) p
        ((s.endedSession env skb.data).map fun m => (.session m, false)) := by
  cases p with
  | session m =>
    rw [HgMaps.permits, isSome_clients_hgTcIngress]
    cases s.endedSession env skb.data with
    | none => simp [HgMaps.permits]
    | some k =>
      by_cases hk : k = m
      · simp [hk]
      · simp [hk, Ne.symm hk, HgMaps.permits]
  | bypass | rule | etherType | garden =>
    rw [hgTcIngress_frame, HgMaps.bindFrame_frame]
    cases s.endedSession env skb.data <;> simp [HgMaps.permits]

/-- A packet at egress leaves the permissions alone. -/
theorem permits_hgTcEgress (env : BpfEnv ncpu) (s : HgMaps ncpu) (skb : SkBuff) (p : Permission) :
    (hgTcEgress env s skb).maps.permits p = s.permits p := by
  cases p with
  | session m =>
    have h := congrArg Option.isSome (session_hgTcEgress env s skb m)
    simpa [HgMaps.session, HgMaps.permits] using h
  | bypass | rule | etherType | garden => rw [hgTcEgress_frame]; rfl

end HawkGate
