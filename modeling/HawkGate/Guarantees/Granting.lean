-- SUMMARY: The permissions over every run: what grants them, what takes them back, and what the commands do about them when left alone.
import HawkGate.Guarantees.ConfiguredLimits
import HawkGate.Guarantees.Provenance

/-!
# Granting and revoking

A permission is held from an accepted call of an authorised party until it is
deleted or its session expires. The other way round, a party that finds what it
needs and makes its calls without interruption grants what it was started for,
and the commands that delete leave nothing of what they name.
-/

namespace HawkGate

open CString Transition

variable {ncpu : Nat}

/-! ## What a party needs -/

/-- The addresses that are bound now. -/
def HgMaps.bound (s : HgMaps ncpu) : Bindings := fun ip m => s.ipMac.lookup ip = some m

/-- The command names the permission and finds what it needs to grant it. An add also needs the
    other half of its client's binding and a counter. -/
def HgctlCommand.CanGrant (env : SysEnv) (s : HgMaps ncpu) : HgctlCommand → Permission → Prop
  | .add opts, .session m => ∃ a ip, parseAdd opts = some a ∧ a.Installs env s m ip
  | cmd, p => cmd.Authorises s.bound p ∧ env.Opens p ∧ s.RoomFor p

/-- The command names the permission and can open its table. -/
def HgctlCommand.CanRevoke (env : SysEnv) (s : HgMaps ncpu) : HgctlCommand → Permission → Prop
  | .del opts, .session m => delTarget env s opts = some m ∧ env.opensBoth = true
  | .mapDel opts, .session m => mapDelVictim env opts = some m
  | .proto opts, .rule k =>
    ∃ v, parseProto opts = some v ∧ v.action = "del".toList ∧
      (v.rule.level = some .l3 ∨ v.rule.level = some .l4) ∧ v.rule.key = k ∧
      env.objGet .hgProto = true
  | .proto opts, .etherType p =>
    ∃ v, parseProto opts = some v ∧ v.action = "del".toList ∧ v.rule.level = some .l2 ∧
      v.rule.proto = p ∧ env.objGet .hgL2Allow = true
  | .bypassDel opts, .bypass ip =>
    ∃ text, parseBypass opts = some text ∧ inetPton text = some ip ∧ env.objGet .hgBypass = true
  | .wgDel opts, .garden k =>
    ∃ cidr, parseWg opts = some cidr ∧ wgParseCidr cidr = some k ∧
      env.objGet .hgWalledGarden = true
  | _, _ => False

/-- A request grants by the add of an accepted login. -/
def Party.CanGrant (env : GatewayEnv) (s : HgMaps ncpu) : Party → Permission → Prop
  | .hgctl cmd, p => cmd.CanGrant env.sys s p
  | .request cfg provider req clientIp port, p =>
    req.path = "/login".toList ∧ (provider (loginCredentials req clientIp)).success = true ∧
      env.fork = true ∧ ∃ client, clientIp = inetNtop client ∧
        (HgctlCommand.add (loginOpts cfg (provider (loginCredentials req clientIp)) client
          port)).CanGrant env.sys s p

/-! ## What it does alone -/

section
variable {env : SysEnv} {s : HgMaps ncpu} {p : Permission}

/-- A change through an opened table sets the permission that its call sets. -/
theorem permits_run_withMap {map : MapName} {change : Sys ncpu Bool} {b : Bool}
    (hopen : env.objGet map = true) (hset : change.setsPermission env s = some (p, b)) :
    ((withMap map change).run env s).2.permits p = b := by
  rw [run_withMap, if_pos hopen]
  dsimp only
  rw [permits_exec_sys, hset, setPermission_some, if_pos rfl]

/-- So does a change of the bypass list. -/
theorem permits_run_withBypass {genv : GatewayEnv} {change : ListSys Bool} {b : Bool}
    (hopen : genv.sys.objGet .hgBypass = true)
    (hset : change.setsPermission genv.sys s = some (p, b)) :
    ((withBypass change).run genv s).2.permits p = b := by
  have hrun : ((withBypass change).run genv s).2 = (change.exec genv.sys s).2 := by
    simp only [GatewayProg.run, withBypass, mapCall, listCall, Prog.run_bind, Prog.run_perform,
      GatewayOp.exec, Sys.exec, hopen, if_true]
    rfl
  rw [hrun, permits_exec_list, hset, setPermission_some, if_pos rfl]

/-- An add that can be installed leaves the session. -/
theorem permits_afterAdd {opts : List AddOpt} {a : AddArgs} {m : HgMacKey} {ip : IpAddr}
    (ha : parseAdd opts = some a) (h : a.Installs env s m ip) :
    (s.afterAdd (addEffect env s opts)).permits (.session m) = true := by
  rw [addEffect_of_installs ha h]
  exact Option.isSome_iff_exists.mpr
    ⟨_, BoundedMap.lookup_put_self s.clients (a.client env) h.client.2⟩

end

/-- A command that can grant a permission does. -/
theorem HgctlCommand.CanGrant.permits {env : GatewayEnv} {s : HgMaps ncpu} {cmd : HgctlCommand}
    {p : Permission} (h : cmd.CanGrant env.sys s p) :
    ((cmd.prog : GatewayProg ncpu Status).run env s).2.permits p = true := by
  cases cmd with
  | add opts =>
    cases p with
    | session m =>
      obtain ⟨a, ip, ha, hinstalls⟩ := h
      rw [HgctlCommand.prog, run_lift, run_hgctlAdd]
      exact permits_afterAdd ha hinstalls
    | bypass | rule | etherType | garden => exact h.1.elim
  | proto opts =>
    rw [HgctlCommand.prog, run_lift]
    cases p with
    | rule k =>
      obtain ⟨⟨v, hv, hadd, hlevel, rfl⟩, ⟨hopen, hupdate⟩, hroom⟩ := h
      have hset : (Sys.updateProto v.rule.key 1 : Sys ncpu Bool).setsPermission env.sys s =
          some (.rule v.rule.key, true) := if_pos ⟨hupdate, hroom⟩
      have hwrite : ((withMap .hgProto (.updateProto v.rule.key 1)).run env.sys s).2.permits
          (.rule v.rule.key) = true := permits_run_withMap hopen hset
      rw [hgctlProto, hv]
      dsimp only
      rw [if_pos hadd, protocolAllowAddAction]
      rcases hlevel with hlevel | hlevel
      · rw [hlevel]
        exact hwrite
      · rw [hlevel]
        exact hwrite
    | etherType k =>
      obtain ⟨⟨v, hv, hadd, hlevel, rfl⟩, ⟨hopen, hupdate⟩, hroom⟩ := h
      have hset : (Sys.updateL2Allow v.rule.proto 1 : Sys ncpu Bool).setsPermission env.sys s =
          some (.etherType v.rule.proto, true) := if_pos ⟨hupdate, hroom⟩
      rw [hgctlProto, hv]
      dsimp only
      rw [if_pos hadd, protocolAllowAddAction, hlevel]
      exact permits_run_withMap hopen hset
    | session | bypass | garden => exact h.1.elim
  | bypassAdd opts =>
    cases p with
    | bypass ip =>
      obtain ⟨⟨text, htext, hip⟩, ⟨hopen, hupdate⟩, hroom⟩ := h
      have hset : (ListSys.updateBypass ip 1).setsPermission env.sys s = some (.bypass ip, true) :=
        if_pos ⟨hupdate, hroom⟩
      rw [HgctlCommand.prog, hgctlBypassAdd, htext]
      dsimp only
      rw [bypassAddAction, hip]
      exact permits_run_withBypass hopen hset
    | session | rule | etherType | garden => exact h.1.elim
  | wgAdd opts =>
    cases p with
    | garden k =>
      obtain ⟨⟨cidr, hcidr, hkey⟩, ⟨hopen, hupdate⟩, hroom⟩ := h
      have hset : (Sys.updateWalledGarden k 1 : Sys ncpu Bool).setsPermission env.sys s =
          some (.garden k, true) := if_pos ⟨hupdate, hroom⟩
      rw [HgctlCommand.prog, run_lift, hgctlWgAdd, hcidr]
      dsimp only
      rw [wgAddAction, hkey]
      exact permits_run_withMap hopen hset
    | session | bypass | rule | etherType => exact h.1.elim
  | del | mapDel | bypassDel | wgDel | showClients | details | help => exact h.1.elim

/-- A command that can take a permission back does. -/
theorem HgctlCommand.CanRevoke.permits {env : GatewayEnv} {s : HgMaps ncpu} {cmd : HgctlCommand}
    {p : Permission} (h : cmd.CanRevoke env.sys s p) :
    ((cmd.prog : GatewayProg ncpu Status).run env s).2.permits p = false := by
  have herase : ∀ m, ((s.clients.erase m).lookup m).isSome = false := fun m => by
    rw [BoundedMap.isSome_erase, if_pos rfl]
  cases cmd with
  | del opts =>
    cases p with
    | session m =>
      obtain ⟨htarget, hopens⟩ := h
      rw [HgctlCommand.prog, run_lift, run_hgctlDel, htarget]
      dsimp only
      rw [if_pos hopens]
      exact herase m
    | bypass | rule | etherType | garden => exact h.elim
  | mapDel opts =>
    cases p with
    | session m =>
      have hvictim : mapDelVictim env.sys opts = some m := h
      rw [HgctlCommand.prog, run_lift, run_hgctlMapDel_frame, hvictim]
      exact herase m
    | bypass | rule | etherType | garden => exact h.elim
  | proto opts =>
    have hnot : ¬ "del".toList = "add".toList := by decide
    rw [HgctlCommand.prog, run_lift]
    cases p with
    | rule k =>
      obtain ⟨v, hv, hdel, hlevel, rfl, hopen⟩ := h
      have hwrite : ((withMap .hgProto (.deleteProto v.rule.key)).run env.sys s).2.permits
          (.rule v.rule.key) = false := permits_run_withMap hopen rfl
      rw [hgctlProto, hv]
      dsimp only
      rw [hdel, if_neg hnot, if_pos rfl, protocolAllowDelAction]
      rcases hlevel with hlevel | hlevel
      · rw [hlevel]
        exact hwrite
      · rw [hlevel]
        exact hwrite
    | etherType k =>
      obtain ⟨v, hv, hdel, hlevel, rfl, hopen⟩ := h
      rw [hgctlProto, hv]
      dsimp only
      rw [hdel, if_neg hnot, if_pos rfl, protocolAllowDelAction, hlevel]
      exact permits_run_withMap hopen rfl
    | session | bypass | garden => exact h.elim
  | bypassDel opts =>
    cases p with
    | bypass ip =>
      obtain ⟨text, htext, hip, hopen⟩ := h
      rw [HgctlCommand.prog, hgctlBypassDel, htext]
      dsimp only
      rw [bypassDelAction, hip]
      exact permits_run_withBypass hopen rfl
    | session | rule | etherType | garden => exact h.elim
  | wgDel opts =>
    cases p with
    | garden k =>
      obtain ⟨cidr, hcidr, hkey, hopen⟩ := h
      rw [HgctlCommand.prog, run_lift, hgctlWgDel, hcidr]
      dsimp only
      rw [wgDelAction, hkey]
      exact permits_run_withMap hopen rfl
    | session | bypass | rule | etherType => exact h.elim
  | add | bypassAdd | wgAdd | showClients | details | help => exact h.elim

/-- A party that can grant a permission does. -/
theorem Party.CanGrant.permits {env : GatewayEnv} {s : HgMaps ncpu} {party : Party}
    {p : Permission} (h : party.CanGrant env s p) :
    ((party.prog : GatewayProg ncpu Reply).run env s).2.permits p = true := by
  cases party with
  | hgctl cmd =>
    have hcmd : ((cmd.prog : GatewayProg ncpu Status).run env s).2.permits p = true :=
      HgctlCommand.CanGrant.permits h
    simpa only [Party.prog, GatewayProg.run, Prog.run_bind, Prog.run_pure] using hcmd
  | request cfg provider req clientIp port =>
    obtain ⟨hpath, hok, hfork, client, rfl, hgrants⟩ := h
    obtain ⟨hclients, -⟩ := run_handleAuth cfg provider req client port env.daemon s rfl hok hfork
    have hroute : route cfg provider req (inetNtop client) port =
        handleAuth cfg provider req (inetNtop client) port := by
      rw [route, if_pos hpath]
    have hcalls := run_calls_daemon (handleAuth cfg provider req (inetNtop client) port) env s
    have hrun : ((Party.request cfg provider req (inetNtop client) port).prog.run env s).2 =
        ((handleAuth cfg provider req (inetNtop client) port).run env.daemon s).2 := by
      rw [← hcalls, Party.prog, GatewayProg.run, Prog.run_bind, hroute]
      rfl
    rw [hrun]
    cases p with
    | session m =>
      obtain ⟨a, ip, ha, hinstalls⟩ := hgrants
      rw [HgMaps.permits, hclients]
      exact permits_afterAdd ha hinstalls
    | bypass | rule | etherType | garden => exact hgrants.1.elim

/-! ## The gateway -/

/-- Calls of one party, with no packet and no call of another party between them. -/
def callsOf (env : GatewayEnv) (i n : Nat) : List (GatewayEvent ncpu) :=
  List.replicate n (.call i env)

/-- Started now and left alone the party ends, and the gateway is then as `P` says. -/
def Gateway.Alone (g : Gateway ncpu) (party : Party) (env : GatewayEnv)
    (P : Gateway ncpu → Prop) : Prop :=
  ∃ n reply,
    let h := run Gateway.step g (.start party :: callsOf env g.running.length n)
    h.running[g.running.length]? = some ⟨party, .ret reply⟩ ∧ P h

theorem alone_of_run {g : Gateway ncpu} {party : Party} {env : GatewayEnv}
    {P : HgMaps ncpu → Prop} (h : P ((party.prog : GatewayProg ncpu Reply).run env g.maps).2) :
    g.Alone party env fun g' => P g'.maps := by
  have hstarted : (g.step (.start party)).running[g.running.length]? =
      some ⟨party, party.prog⟩ := List.getElem?_concat_length
  obtain ⟨n, hn⟩ := run_replicate_call env party.prog hstarted
  have hlt : g.running.length < (g.step (.start party)).running.length :=
    (List.getElem?_eq_some_iff.mp hstarted).1
  refine ⟨n, ((party.prog : GatewayProg ncpu Reply).run env g.maps).1, ?_⟩
  rw [run_cons, callsOf, hn]
  exact ⟨List.getElem?_set_self hlt, h⟩

end HawkGate
