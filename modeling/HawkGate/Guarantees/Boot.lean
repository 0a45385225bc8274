-- SUMMARY: A daemon that starts the gateway opens what its configuration says and nothing else, whatever it finds on the machine.
import HawkGate.Daemon.Lifecycle
import HawkGate.Guarantees.AllowList
import HawkGate.Guarantees.Permissions
import HawkGate.Guarantees.StartSuccess

/-!
# Boot

The daemon removes what an earlier run has left, starts the gateway and runs one
command for each entry of its lists. After a complete stop nothing is pinned, so
the start makes every map anew; a list command adds its own permission or none.
-/

namespace HawkGate

open Bytes CString Prog StdString

variable {ncpu : Nat}

/-! ## Granting permissions -/

/-- The maps after a list command; an entry that does not fit is left out. -/
def HgMaps.grant (s : HgMaps ncpu) : Permission → HgMaps ncpu
  | .rule k => { s with proto := s.proto.put k 1 }
  | .etherType p => { s with l2Allow := s.l2Allow.put p 1 }
  | .garden k => { s with walledGarden := s.walledGarden.put k 1 }
  | .session _ | .bypass _ => s

def HgMaps.grantAll (s : HgMaps ncpu) (ps : List Permission) : HgMaps ncpu := ps.foldl HgMaps.grant s

/-- The maps with these permissions, or with some of them unless `full` holds. -/
def GrantsFrom (full : Prop) (ps : List Permission) (s s' : HgMaps ncpu) : Prop :=
  ∃ qs, qs.Sublist ps ∧ (full → qs = ps) ∧ s' = s.grantAll qs

section
variable {full : Prop} {ps qs : List Permission} {s s' s'' : HgMaps ncpu} {p : Permission}

theorem grantsFrom_nil : GrantsFrom full [] s s := ⟨[], .slnil, fun _ => rfl, rfl⟩

theorem grantsFrom_skip (h : ¬ full) : GrantsFrom full ps s s :=
  ⟨[], List.nil_sublist _, fun hfull => absurd hfull h, rfl⟩

theorem grantsFrom_grant : GrantsFrom full [p] s (s.grant p) :=
  ⟨[p], .refl _, fun _ => rfl, rfl⟩

theorem GrantsFrom.trans (h : GrantsFrom full ps s s') (h' : GrantsFrom full qs s' s'') :
    GrantsFrom full (ps ++ qs) s s'' := by
  obtain ⟨ps', hsub, hfull, rfl⟩ := h
  obtain ⟨qs', hsub', hfull', rfl⟩ := h'
  refine ⟨ps' ++ qs', hsub.append hsub', fun hf => by rw [hfull hf, hfull' hf], ?_⟩
  rw [HgMaps.grantAll, HgMaps.grantAll, HgMaps.grantAll, List.foldl_append]

end

/-! ## One list command -/

/-- The permission that a protocol rule is. -/
def ProtoRule.permission (r : ProtoRule) : Option Permission :=
  match r.level with
  | some .l2 => some (.etherType r.proto)
  | some .l3 | some .l4 => some (.rule r.key)
  | none => none

section
variable (env : SysEnv) (s : HgMaps ncpu)

theorem grantsFrom_withMap {p : Permission} {change : Sys ncpu Bool} {K V : Type} [DecidableEq K]
    {cap : Nat} (m : BoundedMap K V cap) (k : K) (v : V) (frame : BoundedMap K V cap → HgMaps ncpu)
    (hframe : frame m = s) (hput : frame (m.put k v) = s.grant p)
    (hexec : Sys.exec env s change =
      ((commit m (if env.update p.map then m.update k v else none)).1,
        frame (commit m (if env.update p.map then m.update k v else none)).2)) :
    GrantsFrom (env.Opens p) [p] s ((withMap p.map change).run env s).2 := by
  rw [run_withMap_update m k v frame hframe hexec]
  by_cases hok : env.objGet p.map = true ∧ env.Accepts p.map m k
  · rw [if_pos hok, hput]
    exact grantsFrom_grant
  · rw [if_neg hok]
    by_cases hopens : env.Opens p
    · -- the table is full, so that the permission is left out either way
      have hroom : ¬ m.HasRoom k := fun hroom => hok ⟨hopens.1, hopens.2, hroom⟩
      have hsame : s.grant p = s := by
        rw [← hput, BoundedMap.put, (BoundedMap.update_eq_none_iff m k v).mpr hroom]
        exact hframe
      refine ⟨[p], .refl _, fun _ => rfl, ?_⟩
      exact hsame.symm
    · exact grantsFrom_skip hopens

theorem grantsFrom_protocolAllowAdd {r : ProtoRule} {p : Permission} (hp : r.permission = some p) :
    GrantsFrom (env.Opens p) [p] s ((protocolAllowAddAction r).run env s).2 := by
  rw [ProtoRule.permission] at hp
  rw [protocolAllowAddAction]
  cases hlevel : r.level with
  | none =>
    rw [hlevel] at hp
    cases hp
  | some level =>
    rw [hlevel] at hp
    cases level with
    | l2 =>
      cases hp
      exact grantsFrom_withMap (p := .etherType r.proto) env s s.l2Allow r.proto 1
        (fun m => { s with l2Allow := m }) rfl rfl rfl
    | l3 =>
      cases hp
      exact grantsFrom_withMap (p := .rule r.key) env s s.proto r.key 1
        (fun m => { s with proto := m }) rfl rfl rfl
    | l4 =>
      cases hp
      exact grantsFrom_withMap (p := .rule r.key) env s s.proto r.key 1
        (fun m => { s with proto := m }) rfl rfl rfl

theorem grantsFrom_wgAddAction {cidr : CString} {key : HgWgKey} (hkey : wgParseCidr cidr = some key) :
    GrantsFrom (env.Opens (.garden key)) [.garden key] s ((wgAddAction cidr).run env s).2 := by
  rw [wgAddAction, hkey]
  exact grantsFrom_withMap (p := .garden key) env s s.walledGarden key 1
    (fun m => { s with walledGarden := m }) rfl rfl rfl

end

/-! ## The lists -/

/-- What the entries of the four lists open. -/
def l2Permissions (name : List Char) : List Permission :=
  if translateL2 name = [] then [] else [.etherType (parseL2 (translateL2 name)).proto]

def gardenPermissions (ip : List Char) : List Permission :=
  ((parseWg [.ip (cStr ip)]).bind wgParseCidr).toList.map .garden

def HgConfig.permissions (cfg : HgConfig) : List Permission :=
  cfg.preauthL2.flatMap l2Permissions ++
    (cfg.preauthL3.flatMap (fun name => (l3Keys name).map .rule) ++
      (cfg.preauthL4.flatMap (fun name => (l4Keys name).map .rule) ++
        cfg.walledGardenIps.flatMap gardenPermissions))

section
variable {env : DaemonEnv} {cfg : HgConfig} {full : Prop}

/-- A command for a protocol rule. -/
theorem grantsFrom_addProto {opt : ProtoOpt} {r : ProtoRule} {p : Permission}
    (hset : ∀ iface action, (ProtoVars.mk .init iface action).set opt = some ⟨r, iface, action⟩)
    (hp : r.permission = some p)
    (hfull : full → cStr cfg.ifaceName ≠ [] ∧
      ∀ opts, env.fork (.proto opts) = true ∧ (env.sys (.proto opts)).Opens p) (s : HgMaps ncpu) :
    GrantsFrom full [p] s ((addProto cfg opt).run env s).2 := by
  have hlevel : r.level ≠ none := by
    intro hnone
    rw [ProtoRule.permission, hnone] at hp
    cases hp
  simp only [addProto, execCmd, Daemon.run_bind, Daemon.run_perform, Daemon.run_pure,
    DaemonOp.exec]
  split
  · by_cases hiface : cStr cfg.ifaceName = []
    · have hparse : parseProto [.action "add".toList, .iface (cStr cfg.ifaceName), opt] = none := by
        have hvars : [ProtoOpt.action "add".toList, .iface [], opt].foldlM ProtoVars.set .init =
            some ⟨r, [], "add".toList⟩ := by
          simpa [List.foldlM_cons, ProtoVars.set, ProtoVars.init, strncpyInto] using hset [] _
        rw [hiface, parseProto, hvars]
        rfl
      simp only [Hgctl.tool, hgctlProto, hparse]
      exact grantsFrom_skip fun h => (hfull h).1 hiface
    · simp only [Hgctl.tool, hgctlProto, parseProto_add hiface (hset _ _) hlevel, if_true]
      obtain ⟨qs, hsub, hqs, hs⟩ := grantsFrom_protocolAllowAdd
        (env.sys (.proto [.action "add".toList, .iface (cStr cfg.ifaceName), opt])) s hp
      exact ⟨qs, hsub, fun h => hqs ((hfull h).2 _).2, hs⟩
  · next hfork => exact grantsFrom_skip fun h => hfork ((hfull h).2 _).1

end

/-- The list commands are started and find their tables open to them. -/
structure NodeEnv.Installs (env : NodeEnv) (cfg : HgConfig) (net : NetState) : Prop where
  iface : cStr cfg.ifaceName ≠ []
  fork : ∀ cmd : HgctlCommand, env.fork cmd.argv = true
  opens : ∀ (cmd : HgctlCommand) (p : Permission),
    ((env.proc cmd.argv).gateway.sys.onNode net).Opens p

/-- A change of the maps that grants these permissions, or some of them unless all commands run. -/
def NodeGrants (env : NodeEnv) (cfg : HgConfig) (ps : List Permission) (n n' : Node ncpu) : Prop :=
  n'.net = n.net ∧ GrantsFrom (env.Installs cfg n.net) ps n.maps n'.maps

section
variable {env : NodeEnv} {cfg : HgConfig} {ps qs : List Permission} {n n' n'' : Node ncpu}

theorem nodeGrants_nil (n : Node ncpu) : NodeGrants env cfg [] n n := ⟨rfl, grantsFrom_nil⟩

theorem NodeGrants.trans (h : NodeGrants env cfg ps n n') (h' : NodeGrants env cfg qs n' n'') :
    NodeGrants env cfg (ps ++ qs) n n'' := by
  obtain ⟨hnet, hmaps⟩ := h
  obtain ⟨hnet', hmaps'⟩ := h'
  rw [hnet] at hmaps'
  exact ⟨hnet'.trans hnet, hmaps.trans hmaps'⟩

/-- A list of the daemon on the machine, from what it does to the maps. -/
theorem nodeGrants_onNode {p : Daemon Unit}
    (h : GrantsFrom (env.Installs cfg n.net) ps n.maps (p.run (env.daemon n.net) n.maps).2) :
    NodeGrants env cfg ps n (DaemonProg.run p.onNode env n).2 := by
  rw [DaemonProg.run, run_onNode]
  exact ⟨rfl, h⟩

theorem NodeEnv.Installs.proto (h : env.Installs cfg n.net) (p : Permission) :
    cStr cfg.ifaceName ≠ [] ∧ ∀ opts, (env.daemon n.net).fork (.proto opts) = true ∧
      ((env.daemon n.net).sys (.proto opts)).Opens p :=
  ⟨h.iface, fun opts => ⟨h.fork (.proto opts), h.opens (.proto opts) p⟩⟩

theorem nodeGrants_applyPreauthL2 :
    NodeGrants env cfg (cfg.preauthL2.flatMap l2Permissions) n
      (DaemonProg.run (applyPreauthL2 cfg).onNode env n).2 := by
  refine nodeGrants_onNode (run_forM (h := DaemonOp.exec (env.daemon n.net))
    (fun s => grantsFrom_nil) GrantsFrom.trans cfg.preauthL2 ?_ n.maps)
  intro name _ s
  dsimp only [l2Permissions]
  split
  · exact grantsFrom_nil
  · exact grantsFrom_addProto (fun _ _ => rfl) rfl (fun h => h.proto _) s

theorem nodeGrants_applyPreauthL3 :
    NodeGrants env cfg (cfg.preauthL3.flatMap fun name => (l3Keys name).map .rule) n
      (DaemonProg.run (applyPreauthL3 cfg).onNode env n).2 := by
  refine nodeGrants_onNode (run_forM (h := DaemonOp.exec (env.daemon n.net))
    (fun s => grantsFrom_nil) GrantsFrom.trans cfg.preauthL3 ?_ n.maps)
  intro name _ s
  dsimp only [l3Keys]
  split
  · exact grantsFrom_nil
  · exact grantsFrom_addProto (carries_l3 _).2 rfl (fun h => h.proto _) s

theorem nodeGrants_applyPreauthL4 :
    NodeGrants env cfg (cfg.preauthL4.flatMap fun name => (l4Keys name).map .rule) n
      (DaemonProg.run (applyPreauthL4 cfg).onNode env n).2 := by
  refine nodeGrants_onNode (run_forM (h := DaemonOp.exec (env.daemon n.net))
    (fun s => grantsFrom_nil) GrantsFrom.trans cfg.preauthL4 ?_ n.maps)
  intro name _ s
  have hrules : (l4Keys name).map Permission.rule =
      (translateL4 name).flatMap fun rule => [.rule (parseL4 rule .init).key] := by
    rw [l4Keys, List.map_map, List.map_eq_flatMap]
    rfl
  rw [hrules]
  refine run_forM (h := DaemonOp.exec (env.daemon n.net)) (fun s => grantsFrom_nil)
    GrantsFrom.trans (translateL4 name) ?_ s
  intro rule hrule s
  have hlevel := level_of_mem_translateL4 hrule
  refine grantsFrom_addProto (carries_l4 hlevel).2 ?_ (fun h => h.proto _) s
  rw [ProtoRule.permission, hlevel]

/-- One command for an entry of the walled garden. -/
theorem nodeGrants_wgAdd (ip : List Char) (n : Node ncpu) :
    NodeGrants env cfg (gardenPermissions ip) n
      (DaemonProg.run (do let _ ← execHgctl (.gateway (.wgAdd [.ip (cStr ip)])); pure ()) env n).2 := by
  generalize hcmd : HgctlCommand.wgAdd [.ip (cStr ip)] = cmd
  have hmain : hgctlMain (env.proc cmd.argv).lib cmd.argv = .gateway cmd := by
    rw [← MainCommand.argv, hgctlMain_argv, ← hcmd]
    rfl
  have hprog : ∀ genv s, (cmd.prog : GatewayProg ncpu Status).run genv s =
      (hgctlWgAdd [.ip (cStr ip)]).run genv.sys s := by
    intro genv s
    rw [← hcmd]
    exact run_lift _ genv s
  simp only [DaemonProg.run, execHgctl, Prog.run_bind, Prog.run_perform, Prog.run_pure,
    MainCommand.argv, NodeOp.exec]
  split
  · simp only [Node.hgctl, hmain, hprog, hgctlWgAdd, gardenPermissions]
    refine ⟨rfl, ?_⟩
    cases parseWg [.ip (cStr ip)] with
    | none => exact grantsFrom_nil
    | some cidr =>
      cases hkey : wgParseCidr cidr with
      | none =>
        simp only [wgAddAction, hkey, Option.bind_some]
        exact grantsFrom_nil
      | some key =>
        simp only [Option.bind_some, hkey]
        obtain ⟨qs, hsub, hqs, hs⟩ := grantsFrom_wgAddAction
          ((env.proc cmd.argv).gateway.sys.onNode n.net) n.maps hkey
        exact ⟨qs, hsub, fun h => hqs (h.opens cmd _), hs⟩
  · next hfork => exact ⟨rfl, grantsFrom_skip fun h => hfork (h.fork cmd)⟩

theorem nodeGrants_applyLists :
    NodeGrants env cfg cfg.permissions n (DaemonProg.run (applyLists cfg) env n).2 := by
  have hgarden : ∀ n : Node ncpu, NodeGrants env cfg (cfg.walledGardenIps.flatMap gardenPermissions)
      n (DaemonProg.run (applyWalledGarden cfg) env n).2 :=
    run_forM (h := NodeOp.exec env) nodeGrants_nil NodeGrants.trans cfg.walledGardenIps
      fun ip _ n => nodeGrants_wgAdd ip n
  have hrun : DaemonProg.run (applyLists cfg) env n =
      DaemonProg.run (applyWalledGarden cfg) env (DaemonProg.run (applyPreauthL4 cfg).onNode env
        (DaemonProg.run (applyPreauthL3 cfg).onNode env
          (DaemonProg.run (applyPreauthL2 cfg).onNode env n).2).2).2 := by
    simp only [DaemonProg.run, applyLists, Prog.run_bind]
  rw [hrun]
  exact nodeGrants_applyPreauthL2.trans (nodeGrants_applyPreauthL3.trans
    (nodeGrants_applyPreauthL4.trans (hgarden _)))

end

/-! ## What is open afterwards -/

/-- A permission was held before, or was granted. -/
theorem permits_of_grantAll {ps : List Permission} {s : HgMaps ncpu} {q : Permission}
    (h : (s.grantAll ps).permits q = true) : s.permits q = true ∨ q ∈ ps := by
  induction ps generalizing s with
  | nil => exact Or.inl h
  | cons p ps ih =>
    rcases ih h with hgrant | hmem
    · by_cases hq : q = p
      · exact Or.inr (hq ▸ List.mem_cons_self)
      · refine Or.inl ?_
        cases p <;> cases q <;>
          simp_all [HgMaps.grant, HgMaps.permits, BoundedMap.lookup_put]
    · exact Or.inr (List.mem_cons_of_mem p hmem)

def Permission.ruleKey : Permission → Option HgAllowKey
  | .rule k => some k
  | _ => none

def Permission.etherKey : Permission → Option UInt16
  | .etherType p => some p
  | _ => none

def Permission.gardenKey : Permission → Option HgWgKey
  | .garden k => some k
  | _ => none

theorem tables_grantAll (s : HgMaps ncpu) (ps : List Permission) :
    (s.grantAll ps).proto = (ps.filterMap Permission.ruleKey).foldl (fun m k => m.put k 1) s.proto ∧
      (s.grantAll ps).l2Allow =
        (ps.filterMap Permission.etherKey).foldl (fun m k => m.put k 1) s.l2Allow ∧
      (s.grantAll ps).walledGarden =
        (ps.filterMap Permission.gardenKey).foldl (fun m k => m.put k 1) s.walledGarden := by
  induction ps generalizing s with
  | nil => exact ⟨rfl, rfl, rfl⟩
  | cons p ps ih =>
    obtain ⟨hproto, hl2, hgarden⟩ := ih (s.grant p)
    cases p <;> exact ⟨hproto, hl2, hgarden⟩

/-- The permissions fit into their tables. -/
structure Fits (ps : List Permission) : Prop where
  rules : ∃ l : List HgAllowKey, l.length ≤ 64 ∧ ps.filterMap Permission.ruleKey ⊆ l
  etherTypes : ∃ l : List UInt16, l.length ≤ 16 ∧ ps.filterMap Permission.etherKey ⊆ l
  garden : ∃ l : List HgWgKey, l.length ≤ 64 ∧ ps.filterMap Permission.gardenKey ⊆ l

/-- What fits into empty tables is open. -/
theorem permits_grantAll_start {ps : List Permission} (hfits : Fits ps) (portal : HgPortalCfg)
    (ifb : UInt32) {q : Permission} (hq : q ∈ ps) (hsession : ∀ m, q ≠ .session m)
    (hbypass : ∀ ip, q ≠ .bypass ip) :
    ((HgMaps.start ncpu portal ifb).grantAll ps).permits q = true := by
  obtain ⟨hproto, hl2, hgarden⟩ := tables_grantAll (HgMaps.start ncpu portal ifb) ps
  cases q with
  | session m => exact absurd rfl (hsession m)
  | bypass ip => exact absurd rfl (hbypass ip)
  | rule k =>
    obtain ⟨l, hl, hsub⟩ := hfits.rules
    rw [HgMaps.permits, hproto, BoundedMap.lookup_foldl_put hl _ (fun k hk => by cases hk) hsub]
    exact Or.inr (List.mem_filterMap.mpr ⟨_, hq, rfl⟩)
  | etherType p =>
    obtain ⟨l, hl, hsub⟩ := hfits.etherTypes
    rw [HgMaps.permits, hl2, BoundedMap.lookup_foldl_put hl _ (fun k hk => by cases hk) hsub]
    exact Or.inr (List.mem_filterMap.mpr ⟨_, hq, rfl⟩)
  | garden k =>
    obtain ⟨l, hl, hsub⟩ := hfits.garden
    rw [HgMaps.permits, hgarden, BoundedMap.lookup_foldl_put hl _ (fun k hk => by cases hk) hsub]
    exact Or.inr (List.mem_filterMap.mpr ⟨_, hq, rfl⟩)

theorem mem_permissions_iff {cfg : HgConfig} {p : Permission} :
    p ∈ cfg.permissions ↔ (∃ name ∈ cfg.preauthL2, p ∈ l2Permissions name) ∨
      (∃ k ∈ cfg.preauthKeys, p = .rule k) ∨
      ∃ ip ∈ cfg.walledGardenIps, p ∈ gardenPermissions ip := by
  have hrules : cfg.preauthL3.flatMap (fun name => (l3Keys name).map Permission.rule) ++
      cfg.preauthL4.flatMap (fun name => (l4Keys name).map Permission.rule) =
        cfg.preauthKeys.map .rule := by
    rw [HgConfig.preauthKeys, List.map_append, List.map_flatMap, List.map_flatMap]
  rw [HgConfig.permissions, ← List.append_assoc (cfg.preauthL3.flatMap _), hrules]
  simp only [List.mem_append, List.mem_flatMap, List.mem_map, eq_comm]

/-- The EtherTypes that a name can stand for. -/
def l2Values : List (List Char) :=
  ["0x0806".toList, "0x0800".toList, "0x86DD".toList, "0x8100".toList, "0x8864".toList]

theorem translateL2_mem (name : List Char) : translateL2 name = [] ∨ translateL2 name ∈ l2Values := by
  unfold translateL2
  split_ifs <;> decide

/-- A permission of the first list is an EtherType, one of the last list a block. -/
theorem eq_of_mem_l2Permissions {name : List Char} {p : Permission} (h : p ∈ l2Permissions name) :
    ∃ val ∈ l2Values, p = .etherType (parseL2 val).proto := by
  unfold l2Permissions at h
  split at h
  · cases h
  · next hne => exact ⟨_, (translateL2_mem name).resolve_left hne, List.mem_singleton.mp h⟩

theorem eq_of_mem_gardenPermissions {ip : List Char} {p : Permission}
    (h : p ∈ gardenPermissions ip) : ∃ k, p = .garden k := by
  obtain ⟨k, -, rfl⟩ := List.mem_map.mp h
  exact ⟨k, rfl⟩

theorem not_session_of_mem {cfg : HgConfig} {p : Permission} (hp : p ∈ cfg.permissions)
    (m : HgMacKey) : p ≠ .session m := by
  rintro rfl
  rcases mem_permissions_iff.mp hp with ⟨name, -, hmem⟩ | ⟨k', -, heq⟩ | ⟨ip, -, hmem⟩
  · obtain ⟨val, -, heq⟩ := eq_of_mem_l2Permissions hmem
    cases heq
  · cases heq
  · obtain ⟨k', heq⟩ := eq_of_mem_gardenPermissions hmem
    cases heq

theorem not_bypass_of_mem {cfg : HgConfig} {p : Permission} (hp : p ∈ cfg.permissions)
    (ip : IpAddr) : p ≠ .bypass ip := by
  rintro rfl
  rcases mem_permissions_iff.mp hp with ⟨name, -, hmem⟩ | ⟨k', -, heq⟩ | ⟨ip', -, hmem⟩
  · obtain ⟨val, -, heq⟩ := eq_of_mem_l2Permissions hmem
    cases heq
  · cases heq
  · obtain ⟨k', heq⟩ := eq_of_mem_gardenPermissions hmem
    cases heq

/-- The lists of names always fit, so that only the walled garden can overflow. -/
theorem fits_permissions {cfg : HgConfig}
    (hgarden : (cfg.walledGardenIps.flatMap gardenPermissions).dedup.length ≤ 64) :
    Fits cfg.permissions where
  rules := by
    refine ⟨HawkGate.preauthKeys, HgConfig.length_preauthKeys, fun k hk => ?_⟩
    obtain ⟨p, hp, hkey⟩ := List.mem_filterMap.mp hk
    rcases mem_permissions_iff.mp hp with ⟨name, -, hmem⟩ | ⟨k', hk', rfl⟩ | ⟨ip, -, hmem⟩
    · obtain ⟨val, -, rfl⟩ := eq_of_mem_l2Permissions hmem
      cases hkey
    · cases hkey
      exact cfg.preauthKeys_subset hk'
    · obtain ⟨k', rfl⟩ := eq_of_mem_gardenPermissions hmem
      cases hkey
  etherTypes := by
    refine ⟨l2Values.map fun val => (parseL2 val).proto, by decide, fun e he => ?_⟩
    obtain ⟨p, hp, hkey⟩ := List.mem_filterMap.mp he
    rcases mem_permissions_iff.mp hp with ⟨name, -, hmem⟩ | ⟨k', -, rfl⟩ | ⟨ip, -, hmem⟩
    · obtain ⟨val, hval, rfl⟩ := eq_of_mem_l2Permissions hmem
      cases hkey
      exact List.mem_map_of_mem hval
    · cases hkey
    · obtain ⟨k', rfl⟩ := eq_of_mem_gardenPermissions hmem
      cases hkey
  garden := by
    refine ⟨(cfg.walledGardenIps.flatMap gardenPermissions).dedup.filterMap Permission.gardenKey,
      (List.length_filterMap_le _ _).trans hgarden, fun k hk => ?_⟩
    obtain ⟨p, hp, hkey⟩ := List.mem_filterMap.mp hk
    rcases mem_permissions_iff.mp hp with ⟨name, -, hmem⟩ | ⟨k', -, rfl⟩ | ⟨ip, hip, hmem⟩
    · obtain ⟨val, -, rfl⟩ := eq_of_mem_l2Permissions hmem
      cases hkey
    · cases hkey
    · exact List.mem_filterMap.mpr
        ⟨p, List.mem_dedup.mpr (List.mem_flatMap.mpr ⟨ip, hip, hmem⟩), hkey⟩

/-! ## The boot -/

/-- The interface as `hgctl` reads it. -/
def HgConfig.ifaceArg (cfg : HgConfig) : CString := strncpyInto 16 (cStr cfg.ifaceName)

/-- The stop at the beginning is started, and none of its calls fails. -/
structure NodeEnv.StopsCompletely (env : NodeEnv) (cfg : HgConfig) : Prop where
  fork : env.fork cfg.stopCommand.argv = true
  calls : ∀ call, (env.proc cfg.stopCommand.argv).host.fails call = false

section
variable {env : NodeEnv} {cfg : HgConfig} {n : Node ncpu} {s : NetState}

theorem run_execHgctl (cmd : MainCommand) :
    DaemonProg.run (execHgctl cmd) env n =
      if env.fork cmd.argv then
        (env.wait cmd.argv && (n.hgctl (env.proc cmd.argv) cmd.argv).1,
          (n.hgctl (env.proc cmd.argv) cmd.argv).2)
      else (false, n) := rfl

theorem run_stopCommand (hiface : cfg.ifaceArg ≠ [])
    (hword : shellWord cfg.ifaceArg = some cfg.ifaceArg) (hstop : env.StopsCompletely cfg) :
    (DaemonProg.run (execHgctl cfg.stopCommand) env n).2.net = n.net.stopped cfg.ifaceArg := by
  have hmain : hgctlMain (env.proc cfg.stopCommand.argv).lib cfg.stopCommand.argv =
      .stop [.iface (cStr cfg.ifaceName)] := hgctlMain_argv _ cfg.stopCommand
  have hparse : parseIface [.iface (cStr cfg.ifaceName)] = some cfg.ifaceArg := if_neg hiface
  rw [run_execHgctl, if_pos hstop.fork, Node.hgctl, hmain]
  dsimp only
  rw [hgctlStop, hparse, (run_startExec_net _ _ n).2]
  exact congrArg Prod.snd (stop_eq cfg.ifaceArg hword hstop.calls)

/-- The start is given what the configuration says. -/
theorem parseStart_startCommand (cfg : HgConfig) :
    parseStart [.iface (cStr cfg.ifaceName), .portalIp (cStr cfg.portalIp),
        .portalPort (decimal cfg.httpPort.toNat)] =
      if cfg.ifaceArg = [] ∨ strncpyInto 16 (cStr cfg.portalIp) = [] ∨ cfg.httpPort = 0 then none
      else some ⟨cfg.ifaceArg, strncpyInto 16 (cStr cfg.portalIp), cfg.httpPort⟩ := by
  have hport : atoiU16 (decimal cfg.httpPort.toNat) = cfg.httpPort := by
    rw [atoiU16_decimal cfg.httpPort.toNat_lt, UInt16.ofNat_toNat]
  simp only [parseStart, List.foldlM_cons, List.foldlM_nil, StartVars.set, hport,
    Option.bind_eq_bind, Option.bind_some, Option.pure_def]
  rfl

theorem hgctl_startCommand :
    n.hgctl (env.proc cfg.startCommand.argv) cfg.startCommand.argv =
      Prog.run (Node.startExec (env.proc cfg.startCommand.argv).host) n
        (if cfg.ifaceArg = [] ∨ strncpyInto 16 (cStr cfg.portalIp) = [] ∨ cfg.httpPort = 0 then
          pure false
        else startAction cfg.ifaceArg (strncpyInto 16 (cStr cfg.portalIp)) cfg.httpPort) := by
  have hmain : hgctlMain (env.proc cfg.startCommand.argv).lib cfg.startCommand.argv =
      .start [.iface (cStr cfg.ifaceName), .portalIp (cStr cfg.portalIp),
        .portalPort (decimal cfg.httpPort.toNat)] := hgctlMain_argv _ cfg.startCommand
  rw [Node.hgctl, hmain]
  dsimp only
  rw [hgctlStart, parseStart_startCommand]
  by_cases hargs : cfg.ifaceArg = [] ∨ strncpyInto 16 (cStr cfg.portalIp) = [] ∨ cfg.httpPort = 0
  · rw [if_pos hargs, if_pos hargs]
  · rw [if_neg hargs, if_neg hargs]

/-- A start that succeeds was started, and given what it needs. -/
theorem of_startCommand_true (hok : (DaemonProg.run (execHgctl cfg.startCommand) env n).1 = true) :
    cfg.ifaceArg ≠ [] ∧ (DaemonProg.run (execHgctl cfg.startCommand) env n).2 =
        (Prog.run (Node.startExec (env.proc cfg.startCommand.argv).host) n
          (startAction cfg.ifaceArg (strncpyInto 16 (cStr cfg.portalIp)) cfg.httpPort)).2 ∧
      (Prog.run (Node.startExec (env.proc cfg.startCommand.argv).host) n
        (startAction cfg.ifaceArg (strncpyInto 16 (cStr cfg.portalIp)) cfg.httpPort)).1 = true := by
  rw [run_execHgctl, hgctl_startCommand] at hok ⊢
  by_cases hfork : env.fork cfg.startCommand.argv = true
  · rw [if_pos hfork] at hok ⊢
    by_cases hargs : cfg.ifaceArg = [] ∨ strncpyInto 16 (cStr cfg.portalIp) = [] ∨ cfg.httpPort = 0
    · rw [if_pos hargs, Prog.run_pure] at hok
      simp at hok
    · rw [if_neg hargs] at hok ⊢
      exact ⟨fun h => hargs (.inl h), rfl, (Bool.and_eq_true_iff.mp hok).2⟩
  · rw [if_neg hfork] at hok
    cases hok

/-- The start on a machine that was stopped makes every map anew. -/
theorem run_startCommand_true (hword : shellWord cfg.ifaceArg = some cfg.ifaceArg)
    (hnet : n.net = s.stopped cfg.ifaceArg)
    (hfound : (env.proc cfg.startCommand.argv).host.hookIndex (s.stopped cfg.ifaceArg)
      cfg.ifaceArg = (s.stopped cfg.ifaceArg).ifindex cfg.ifaceArg)
    (hok : (DaemonProg.run (execHgctl cfg.startCommand) env n).1 = true) :
    ∃ addr ifb, inetPton (strncpyInto 16 (cStr cfg.portalIp)) = some addr ∧
      Started (env.proc cfg.startCommand.argv).host (s.stopped cfg.ifaceArg)
        (DaemonProg.run (execHgctl cfg.startCommand) env n).2.net cfg.ifaceArg ifb
        ⟨addr, swap16 cfg.httpPort⟩ ∧
      (DaemonProg.run (execHgctl cfg.startCommand) env n).2.maps =
        HgMaps.start ncpu ⟨addr, swap16 cfg.httpPort⟩ ifb := by
  obtain ⟨-, hnode, hok⟩ := of_startCommand_true hok
  obtain ⟨addr, ifb, haddr, hstarted, hmaps⟩ := startAction_true hword (hnet ▸ hfound)
    (hnet ▸ (s.stopped_clean cfg.ifaceArg).ifb) (Prod.ext hok rfl)
  have hunpinned : n.net.pinned = fun _ => false := by
    rw [hnet]
    funext map
    unfold NetState.pinned
    cases hpins : (s.stopped cfg.ifaceArg).pinDir with
    | none => rfl
    | some p => simp [((s.stopped_clean cfg.ifaceArg).pins p hpins).2 map]
  rw [hunpinned] at hmaps
  rw [hnode, ← hnet]
  exact ⟨addr, ifb, haddr, hstarted, hmaps⟩

theorem run_startHgctl :
    DaemonProg.run (startHgctl cfg) env n =
      let n₁ := (DaemonProg.run (execHgctl cfg.stopCommand) env n).2
      let r := DaemonProg.run (execHgctl cfg.startCommand) env n₁
      if r.1 then (true, (DaemonProg.run (applyLists cfg) env r.2).2) else (false, r.2) := by
  rw [DaemonProg.run, startHgctl, Prog.run_bind, Prog.run_bind]
  dsimp only [DaemonProg.run]
  generalize Prog.run (NodeOp.exec env) (Prog.run (NodeOp.exec env) n
    (execHgctl cfg.stopCommand)).2 (execHgctl cfg.startCommand) = r
  obtain ⟨ok, n₂⟩ := r
  cases ok with
  | true => exact Prog.run_bind _ _
  | false => rfl

end

/-- A daemon that starts the gateway, on any machine: if its stop is complete and its start finds
    the interface, whose name is one plain word, and succeeds, then the interface carries one
    program at each hook, the maps are new, and what is open is in the lists of the configuration;
    all of it is open if the list commands run and the blocks of the walled garden fit. -/
theorem boot_opens_configured (cfg : HgConfig) (env : NodeEnv) (n : Node ncpu)
    (hword : shellWord cfg.ifaceArg = some cfg.ifaceArg) (hstop : env.StopsCompletely cfg)
    (hfound : (env.proc cfg.startCommand.argv).host.hookIndex (n.net.stopped cfg.ifaceArg)
      cfg.ifaceArg = (n.net.stopped cfg.ifaceArg).ifindex cfg.ifaceArg)
    (hboot : (DaemonProg.run (startHgctl cfg) env n).1 = true) :
    let n' := (DaemonProg.run (startHgctl cfg) env n).2
    ∃ addr ifb, inetPton (strncpyInto 16 (cStr cfg.portalIp)) = some addr ∧
      Started (env.proc cfg.startCommand.argv).host (n.net.stopped cfg.ifaceArg) n'.net
        cfg.ifaceArg ifb ⟨addr, swap16 cfg.httpPort⟩ ∧
      (n'.net.device cfg.ifaceArg).bind NetDevice.clsact =
        some ⟨[(env.proc cfg.startCommand.argv).host.ingressProg],
          [(env.proc cfg.startCommand.argv).host.egressProg]⟩ ∧
      (∃ ps, ps.Sublist cfg.permissions ∧
        n'.maps = (HgMaps.start ncpu ⟨addr, swap16 cfg.httpPort⟩ ifb).grantAll ps) ∧
      (∀ p, n'.maps.permits p = true → p ∈ cfg.permissions) ∧
      (env.Installs cfg n'.net →
        (cfg.walledGardenIps.flatMap gardenPermissions).dedup.length ≤ 64 →
        ∀ p ∈ cfg.permissions, n'.maps.permits p = true) := by
  intro n'
  have hn' : n' = (DaemonProg.run (startHgctl cfg) env n).2 := rfl
  rw [run_startHgctl] at hboot hn'
  dsimp only at hboot hn'
  generalize hn₁ : (DaemonProg.run (execHgctl cfg.stopCommand) env n).2 = n₁ at hboot hn'
  cases hstart : (DaemonProg.run (execHgctl cfg.startCommand) env n₁).1 with
  | false =>
    rw [hstart] at hboot
    cases hboot
  | true =>
    rw [hstart, if_pos rfl] at hn'
    have hnet₁ : n₁.net = n.net.stopped cfg.ifaceArg := by
      rw [← hn₁]
      exact run_stopCommand (of_startCommand_true hstart).1 hword hstop
    obtain ⟨addr, ifb, haddr, hstarted, hmaps⟩ := run_startCommand_true hword hnet₁ hfound hstart
    have happlied : NodeGrants env cfg cfg.permissions
        (DaemonProg.run (execHgctl cfg.startCommand) env n₁).2
        (DaemonProg.run (applyLists cfg) env
          (DaemonProg.run (execHgctl cfg.startCommand) env n₁).2).2 := nodeGrants_applyLists
    obtain ⟨hnet, ps, hsub, hfull, hgrants⟩ := happlied
    rw [← hn'] at hnet hgrants
    rw [hmaps] at hgrants
    rw [← hnet] at hstarted hfull
    refine ⟨addr, ifb, haddr, hstarted, ?_, ⟨ps, hsub, hgrants⟩, fun p hp => ?_, ?_⟩
    · obtain ⟨d, hd, hserving⟩ := hstarted.device
      have hbare := (n.net.stopped_clean cfg.ifaceArg).device d hd
      have hclsact : d.clsact = none := congrArg NetDevice.clsact hbare.symm
      rw [hserving]
      simp [StartEnv.serving, hclsact]
    · rw [hgrants] at hp
      rcases permits_of_grantAll hp with hstart | hmem
      · cases p <;> cases hstart
      · exact hsub.subset hmem
    · intro hinstalls hfits p hp
      rw [hgrants, hfull hinstalls]
      exact permits_grantAll_start (fits_permissions hfits) _ _ hp (not_session_of_mem hp)
        (not_bypass_of_mem hp)

def bootConfig : HgConfig :=
  { HgConfig.init with
    ifaceName := "br0".toList
    httpPort := 2050
    portalIp := "10.0.0.1".toList
    preauthL2 := ["arp".toList]
    preauthL4 := ["dns".toList]
    walledGardenIps := ["203.0.113.0/24".toList] }

/-- A machine on which every process runs and no call fails. -/
def NodeEnv.good : NodeEnv where
  fork := fun _ => true
  wait := fun _ => true
  proc := fun _ => ⟨soundHost, ⟨.good ⟨0, 0⟩, true, true, fun _ => none⟩,
    ⟨⟨fun _ l => l, fun _ l => .refl l⟩, 0, fun _ => []⟩⟩
  readerSys := .good ⟨0, 0⟩
  file := fun _ => none

/-- Once a start has succeeded, every table can be opened on a machine where no call fails. -/
theorem installs_good {cfg : HgConfig} {net : NetState} {p : PinDir} (hiface : cStr cfg.ifaceName ≠ [])
    (hpins : net.pinDir = some p) (hall : ∀ map, p.maps map ≠ none) :
    NodeEnv.good.Installs cfg net where
  iface := hiface
  fork := fun _ => rfl
  opens := fun cmd q => by
    refine ⟨?_, rfl⟩
    have hpinned : net.pinned q.map = true := by
      rw [NetState.pinned, hpins, Option.bind_some, Option.isSome_iff_ne_none]
      exact hall q.map
    exact hpinned

/-- A daemon that comes back after a crash, while its old programs still run and the old maps are
    pinned. -/
theorem boot_opens_configured_after_crash :
    let n' := (DaemonProg.run (startHgctl bootConfig) .good
      ⟨runningGateway, .start 2 .standard 5⟩).2
    (n'.net.device "br0".toList).bind NetDevice.clsact = some ⟨[1], [2]⟩ ∧
      (∃ ifb ps, ps.Sublist bootConfig.permissions ∧ n'.maps =
        (HgMaps.start 2 ⟨addrOfOctets 10 0 0 1, swap16 2050⟩ ifb).grantAll ps) ∧
      ∀ p, n'.maps.permits p = true ↔ p ∈ bootConfig.permissions := by
  intro n'
  obtain ⟨addr, ifb, haddr, hstarted, hclsact, ⟨ps, hsub, hmaps⟩, honly, hall⟩ :=
    boot_opens_configured bootConfig .good ⟨runningGateway, .start 2 .standard 5⟩ (by decide)
      ⟨rfl, fun _ => rfl⟩ (by decide +kernel) (by decide +kernel)
  obtain rfl : addrOfOctets 10 0 0 1 = addr := Option.some.inj ((by decide +kernel : _ = _).trans haddr)
  refine ⟨hclsact, ⟨ifb, ps, hsub, hmaps⟩, fun p => ⟨honly p, hall ?_ (by decide +kernel) p⟩⟩
  exact installs_good (by decide) hstarted.pins (pinned_ne_none _ _ _ _)

end HawkGate
