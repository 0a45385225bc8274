-- SUMMARY: Where every permission comes from: a call of a command or a login that was authorised to make it.
import HawkGate.Guarantees.ExplicitLogin
import HawkGate.Guarantees.Permissions

/-!
# Provenance of permissions

Whatever the parties and the packets do, and however their calls interleave, a
permission that the gateway holds was granted by a party that names it: an
`hgctl` command of its kind, or for a session a login from an address that the
binding table gave to the client's MAC at some time before.
-/

namespace HawkGate

open CString StdString Transition

variable {ncpu : Nat}

/-! ## Authorisation -/

/-- Which address was bound to which MAC. -/
abbrev Bindings := IpAddr → HgMacKey → Prop

/-- The add is for the client: its MAC is given, or else an address that was bound to it. -/
def AddArgs.Names (a : AddArgs) (B : Bindings) (m : HgMacKey) : Prop :=
  match a.mac with
  | some mac => scanMacKey mac = some m
  | none => ∃ text ip, a.ip = some text ∧ inetPton text = some ip ∧ B ip m

/-- The command is one to grant the permission, and names it. -/
def HgctlCommand.Authorises (B : Bindings) : HgctlCommand → Permission → Prop
  | .add opts, .session m => ∃ a, parseAdd opts = some a ∧ a.Names B m
  | .proto opts, .rule k =>
    ∃ v, parseProto opts = some v ∧ v.action = "add".toList ∧
      (v.rule.level = some .l3 ∨ v.rule.level = some .l4) ∧ v.rule.key = k
  | .proto opts, .etherType p =>
    ∃ v, parseProto opts = some v ∧ v.action = "add".toList ∧ v.rule.level = some .l2 ∧
      v.rule.proto = p
  | .bypassAdd opts, .bypass ip => ∃ text, parseBypass opts = some text ∧ inetPton text = some ip
  | .wgAdd opts, .garden k => ∃ cidr, parseWg opts = some cidr ∧ wgParseCidr cidr = some k
  | _, _ => False

/-- The request is a login that the provider accepts, from an address that was bound to the
    client. -/
structure LoginFrom (B : Bindings) (provider : AuthProvider) (req : HttpRequest)
    (clientIp : List Char) (m : HgMacKey) : Prop where
  path : req.path = "/login".toList
  accepted : (provider (loginCredentials req clientIp)).success = true
  bound : ∃ ip, inetPton (cStr clientIp) = some ip ∧ B ip m

def Party.Authorises (B : Bindings) : Party → Permission → Prop
  | .hgctl cmd, p => cmd.Authorises B p
  | .request _ provider req clientIp _, .session m => LoginFrom B provider req clientIp m
  | .request _ _ _ _ _, _ => False

/-! ## What a call may grant -/

/-- The answer of a call agrees with the bindings. -/
def Sys.AnswersFrom (B : Bindings) {β : Type} : Sys ncpu β → β → Prop
  | .lookupIpMac ip => fun m => ∀ k, m = some k → B ip k
  | _ => fun _ => True

/-- The call grants nothing but permissions in `G`, and a counter that it opens is empty. -/
def Sys.GrantsIn (G : Permission → Prop) {β : Type} : Sys ncpu β → Prop
  | .updateClient m _ => G (.session m)
  | .updateCounter _ v => v = fun _ => HgCounter.zero
  | .updateProto k _ => G (.rule k)
  | .updateL2Allow p _ => G (.etherType p)
  | .updateWalledGarden k _ => G (.garden k)
  | _ => True

def GatewayOp.AnswersFrom (B : Bindings) {β : Type} : GatewayOp ncpu β → β → Prop
  | .map op => op.AnswersFrom B
  | .list _ | .host _ => fun _ => True

def ListSys.GrantsIn (G : Permission → Prop) {β : Type} : ListSys β → Prop
  | .updateBypass ip _ => G (.bypass ip)
  | _ => True

def GatewayOp.GrantsIn (G : Permission → Prop) {β : Type} : GatewayOp ncpu β → Prop
  | .map op => op.GrantsIn G
  | .list op => op.GrantsIn G
  | .host _ => True

variable {B : Bindings} {G : Permission → Prop}

theorem Sys.Reads.grantsIn {β : Type} {op : Sys ncpu β} (h : op.Reads) : op.GrantsIn G := by
  cases op with
  | updateClient | updateCounter | updateProto | updateL2Allow | updateWalledGarden => exact h.elim
  | _ => trivial

/-- A call that turns a permission on may grant it. -/
theorem GatewayOp.GrantsIn.of_sets {β : Type} {op : GatewayOp ncpu β} (h : op.GrantsIn G)
    {env : GatewayEnv} {s : HgMaps ncpu} {p : Permission}
    (hsets : op.setsPermission env s = some (p, true)) : G p := by
  cases op with
  | host op => cases hsets
  | list op =>
    cases op with
    | updateBypass ip v =>
      simp only [GatewayOp.setsPermission, ListSys.setsPermission] at hsets
      split at hsets
      · cases hsets
        exact h
      · cases hsets
    | _ => cases hsets
  | map op =>
    cases op with
    | updateClient | updateProto | updateL2Allow | updateWalledGarden =>
      simp only [GatewayOp.setsPermission, Sys.setsPermission] at hsets
      split at hsets
      · cases hsets
        exact h
      · cases hsets
    | _ => cases hsets

/-! ## The programs -/

/-- Under answers that agree with the bindings, the tool grants only permissions in `G`. -/
abbrev Tool.GrantsOnly (B : Bindings) (G : Permission → Prop) {α : Type} (Q : α → Prop)
    (p : Tool ncpu α) : Prop :=
  p.Safe (fun op => op.AnswersFrom B) (fun op => op.GrantsIn G) Q

abbrev GatewayProg.GrantsOnly (B : Bindings) (G : Permission → Prop) {α : Type}
    (p : GatewayProg ncpu α) : Prop :=
  p.Safe (fun op => op.AnswersFrom B) (fun op => op.GrantsIn G) fun _ => True

theorem grantsOnly_lift {α : Type} {Q : α → Prop} {p : Tool ncpu α} (h : p.GrantsOnly B G Q) :
    p.lift.GrantsOnly B G := by
  have hlift : p.lift.Safe (fun op => op.AnswersFrom B) (fun op => op.GrantsIn G) Q := by
    unfold Tool.lift
    refine Prog.Safe.translate ?_ h
    exact fun op hop => Prog.safe_perform hop fun _ hb => hb
  exact hlift.mono fun _ _ => trivial

theorem grantsOnly_of_only {α : Type} {p : Tool ncpu α} (h : p.Only fun op => op.GrantsIn G) :
    p.GrantsOnly B G fun _ => True := h.safe

/-- The address and MAC of an add are those it names. -/
theorem grantsOnly_addTarget (a : AddArgs) :
    (addTarget a.mac a.ip : Tool ncpu _).GrantsOnly B G fun r =>
      ∀ m ip, r = some (m, ip) → a.Names B m := by
  unfold addTarget
  cases hmac : a.mac with
  | some mac =>
    cases hip : a.ip with
    | some ip =>
      refine Prog.safe_pure fun m addr h => ?_
      obtain ⟨k, hk, hrest⟩ := Option.bind_eq_some_iff.mp h
      obtain ⟨b, -, heq⟩ := Option.map_eq_some_iff.mp hrest
      obtain ⟨rfl, -⟩ := Prod.mk.inj heq
      simpa [AddArgs.Names, hmac] using hk
    | none =>
      cases hscan : scanMacKey mac with
      | none =>
        simp only [hscan]
        exact Prog.safe_pure (by simp)
      | some k =>
        have hnames : a.Names B k := by simpa [AddArgs.Names, hmac] using hscan
        simp only [hscan]
        refine (Prog.safe_perform trivial fun _ _ => trivial).bind fun opened _ => ?_
        split
        · refine (Prog.safe_perform trivial fun _ _ => trivial).bind fun r _ => ?_
          refine (Prog.safe_perform trivial fun _ _ => trivial).bind fun _ _ => ?_
          refine Prog.safe_pure fun m addr h => ?_
          obtain ⟨b, -, heq⟩ := Option.map_eq_some_iff.mp h
          obtain ⟨rfl, -⟩ := Prod.mk.inj heq
          exact hnames
        · exact Prog.safe_pure (by simp)
  | none =>
    cases hip : a.ip with
    | none => exact Prog.safe_pure (by simp)
    | some text =>
      cases hpton : inetPton text with
      | none =>
        simp only [hpton]
        exact Prog.safe_pure (by simp)
      | some ip =>
        simp only [hpton]
        refine (Prog.safe_perform trivial fun _ _ => trivial).bind fun opened _ => ?_
        split
        · refine (Prog.safe_perform trivial fun _ hr => hr).bind fun r hr => ?_
          refine (Prog.safe_perform trivial fun _ _ => trivial).bind fun _ _ => ?_
          refine Prog.safe_pure fun m addr h => ?_
          obtain ⟨k, hk, heq⟩ := Option.map_eq_some_iff.mp h
          obtain ⟨rfl, -⟩ := Prod.mk.inj heq
          rw [AddArgs.Names, hmac]
          exact ⟨text, ip, hip, hpton, hr k hk⟩
        · exact Prog.safe_pure (by simp)

theorem grantsOnly_hgctlAdd {opts : List AddOpt}
    (h : ∀ a m, parseAdd opts = some a → a.Names B m → G (.session m)) :
    (hgctlAdd opts : Tool ncpu Status).GrantsOnly B G fun _ => True := by
  unfold hgctlAdd
  cases hparse : parseAdd opts with
  | none => exact Prog.safe_pure trivial
  | some a =>
    refine (grantsOnly_addTarget a).bind fun r hr => ?_
    cases r with
    | none => exact Prog.safe_pure trivial
    | some target =>
      obtain ⟨m, ip⟩ := target
      have hgrant : G (.session m) := h a m hparse (hr m ip rfl)
      refine (Prog.safe_perform trivial fun _ _ => trivial).bind fun ts _ => ?_
      refine grantsOnly_of_only ?_
      have hcloseIf : ∀ opened map, (closeIf opened map : Tool ncpu Unit).Only (Sys.GrantsIn G) :=
        fun opened map => only_closeIf opened trivial
      have hundo : (do let _ ← sys (.deleteClient m); pure .failed : Tool ncpu Status).Only
          (Sys.GrantsIn G) := (Prog.only_perform trivial).bind fun _ => Prog.only_pure _
      have hwrite : (addWrite m ip (addClientVal ts.toNs a.expire a.idle a.rateId)
          (addRateVal a.dLimit a.uLimit) : Tool ncpu Status).Only (Sys.GrantsIn G) := by
        refine (Prog.only_perform hgrant).bind fun stored => ?_
        split
        · refine (Prog.only_perform trivial).bind fun mem => ?_
          split
          · refine (Prog.only_perform rfl).bind fun counted => ?_
            split
            · exact (Prog.only_perform trivial).bind fun _ => Prog.only_pure _
            · exact hundo
          · exact hundo
        · exact Prog.only_pure _
      refine (Prog.only_perform trivial).bind fun _ => (Prog.only_perform trivial).bind fun _ =>
        (Prog.only_perform trivial).bind fun _ => ?_
      split
      · exact hwrite.bind fun _ => (Prog.only_perform trivial).bind fun _ =>
          (Prog.only_perform trivial).bind fun _ => (Prog.only_perform trivial).bind fun _ =>
            Prog.only_pure _
      · exact (hcloseIf _ _).bind fun _ => (hcloseIf _ _).bind fun _ => (hcloseIf _ _).bind fun _ =>
          Prog.only_pure _

theorem grantsOnly_hgctlDel (opts : List DelOpt) :
    (hgctlDel opts : Tool ncpu Status).GrantsOnly B G fun _ => True := by
  refine grantsOnly_of_only ?_
  have hcloseIf : ∀ opened map, (closeIf opened map : Tool ncpu Unit).Only (Sys.GrantsIn G) :=
    fun opened map => only_closeIf opened trivial
  have hrate : ∀ m, (delRate m : Tool ncpu Unit).Only (Sys.GrantsIn G) := by
    intro m
    refine (Prog.only_perform trivial).bind fun val => ?_
    cases val with
    | none => exact Prog.only_pure _
    | some val =>
      refine (Prog.only_perform trivial).bind fun opened => ?_
      split
      · exact (Prog.only_perform trivial).bind fun _ => Prog.only_perform trivial
      · exact Prog.only_pure _
  have hcounter : ∀ m, (delCounter m : Tool ncpu Unit).Only (Sys.GrantsIn G) := by
    intro m
    refine (Prog.only_perform trivial).bind fun opened => ?_
    split
    · refine (Prog.only_perform trivial).bind fun ip => ?_
      cases ip with
      | none => exact Prog.only_perform trivial
      | some ip => exact (Prog.only_perform trivial).bind fun _ => Prog.only_perform trivial
    · exact Prog.only_pure _
  have haction : ∀ mac, (delAction mac : Tool ncpu Status).Only (Sys.GrantsIn G) := by
    intro mac
    unfold delAction
    cases scanMacKey mac with
    | none => exact Prog.only_pure _
    | some m =>
      refine (Prog.only_perform trivial).bind fun _ => (Prog.only_perform trivial).bind fun _ => ?_
      split
      · have hentries : (delEntries m : Tool ncpu Unit).Only (Sys.GrantsIn G) :=
          (hrate m).bind fun _ => (Prog.only_perform trivial).bind fun _ => hcounter m
        exact hentries.bind fun _ => (Prog.only_perform trivial).bind fun _ =>
          (Prog.only_perform trivial).bind fun _ => Prog.only_pure _
      · exact (hcloseIf _ _).bind fun _ => (hcloseIf _ _).bind fun _ => Prog.only_pure _
  unfold hgctlDel
  cases parseDel opts with
  | none => exact Prog.only_pure _
  | some v =>
    dsimp only
    split
    · exact haction v.mac
    · have hresolve : (resolveIpToMac v.ip : Tool ncpu _).Only (Sys.GrantsIn G) := by
        unfold resolveIpToMac
        cases inetPton v.ip with
        | none => exact Prog.only_pure _
        | some a =>
          refine (Prog.only_perform trivial).bind fun opened => ?_
          split
          · exact (Prog.only_perform trivial).bind fun _ => (Prog.only_perform trivial).bind fun _ =>
              Prog.only_pure _
          · exact Prog.only_pure _
      refine hresolve.bind fun mac => ?_
      cases mac with
      | none => exact Prog.only_pure _
      | some mac => exact haction _

theorem grantsOnly_hgctlMapDel (opts : List MapDelOpt) :
    (hgctlMapDel opts : Tool ncpu Status).GrantsOnly B G fun _ => True := by
  refine grantsOnly_of_only ?_
  have hdelete : ∀ op : Sys ncpu Bool, op.GrantsIn G →
      (do let ok ← sys op; pure (removed ok) : Tool ncpu Status).Only (Sys.GrantsIn G) :=
    fun op hop => (Prog.only_perform hop).bind fun _ => Prog.only_pure _
  have hkey : ∀ map keySpec, (mapDelKey map keySpec : Tool ncpu Status).Only (Sys.GrantsIn G) := by
    intro map keySpec
    cases map with
    | hgConntrack =>
      rw [mapDelKey, mapDelConntrack]
      split
      · exact Prog.only_pure _
      · split
        · exact Prog.only_pure _
        · split
          · exact Prog.only_pure _
          · exact hdelete _ trivial
    | hgClients =>
      rw [mapDelKey, mapDelClient]
      split
      · exact Prog.only_pure _
      · exact hdelete _ trivial
    | hgProto =>
      rw [mapDelKey, mapDelProto]
      split
      · exact hdelete _ trivial
      · exact Prog.only_pure _
    | _ => exact Prog.only_pure _
  unfold hgctlMapDel
  cases parseMapDel opts with
  | none => exact Prog.only_pure _
  | some v =>
    dsimp only
    unfold mapDelAction
    cases MapName.ofText v.mapName with
    | none => exact Prog.only_pure _
    | some map =>
      refine (Prog.only_perform trivial).bind fun opened => ?_
      split
      · exact (hkey _ _).bind fun _ => (Prog.only_perform trivial).bind fun _ => Prog.only_pure _
      · exact Prog.only_pure _

theorem grantsOnly_withMap (map : MapName) {change : Sys ncpu Bool} (h : change.GrantsIn G) :
    (withMap map change).GrantsOnly B G fun _ => True := by
  refine grantsOnly_of_only ?_
  refine (Prog.only_perform trivial).bind fun opened => ?_
  split
  · exact (Prog.only_perform h).bind fun _ => (Prog.only_perform trivial).bind fun _ =>
      Prog.only_pure _
  · exact Prog.only_pure _

/-- Adding a rule grants what its level and its numbers say. -/
theorem grantsOnly_hgctlProto {opts : List ProtoOpt}
    (h : ∀ p, (HgctlCommand.proto opts).Authorises B p → G p) :
    (hgctlProto opts : Tool ncpu Status).GrantsOnly B G fun _ => True := by
  unfold hgctlProto
  cases hparse : parseProto opts with
  | none => exact Prog.safe_pure trivial
  | some v =>
    have hrule : v.action = "add".toList → (v.rule.level = some .l3 ∨ v.rule.level = some .l4) →
        G (.rule v.rule.key) := fun hadd hlevel => h _ ⟨v, hparse, hadd, hlevel, rfl⟩
    dsimp only
    split
    · next hadd =>
      unfold protocolAllowAddAction
      split
      · next hlevel => exact grantsOnly_withMap _ (h (.etherType _) ⟨v, hparse, hadd, hlevel, rfl⟩)
      · next hlevel => exact grantsOnly_withMap _ (hrule hadd (Or.inl hlevel))
      · next hlevel => exact grantsOnly_withMap _ (hrule hadd (Or.inr hlevel))
      · exact Prog.safe_pure trivial
    · split
      · unfold protocolAllowDelAction
        split
        · exact grantsOnly_withMap _ trivial
        · exact grantsOnly_withMap _ trivial
        · exact grantsOnly_withMap _ trivial
        · exact Prog.safe_pure trivial
      · exact Prog.safe_pure trivial

theorem grantsOnly_withBypass {change : ListSys Bool} (h : change.GrantsIn G) :
    (withBypass change : GatewayProg ncpu Status).GrantsOnly B G := by
  have hchange : (GatewayOp.list change : GatewayOp ncpu Bool).GrantsIn G := h
  refine Prog.Only.safe ?_
  refine (Prog.only_perform trivial).bind fun opened => ?_
  split
  · exact (Prog.only_perform hchange).bind fun _ => (Prog.only_perform trivial).bind fun _ =>
      Prog.only_pure _
  · exact Prog.only_pure _

/-- A listing grants nothing. -/
theorem grantsOnly_hgctlShow (qsort : Qsort) (fuel : Nat) (opts : List IfaceOpt) :
    (hgctlShow qsort fuel opts : GatewayProg ncpu Status).GrantsOnly B G := by
  have hlist : ∀ {K : Type} (next : Option K → ListSys (Option K)) (lookup : K → ListSys (Option UInt8)),
      (∀ k, (next k).GrantsIn G) → (∀ k, (lookup k).GrantsIn G) → ∀ fuel prev acc,
        (listKeys next lookup fuel prev acc : GatewayProg ncpu _).GrantsOnly B G := by
    intro K next lookup hnext hlookup fuel
    induction fuel with
    | zero => exact fun _ _ => Prog.safe_pure trivial
    | succ fuel ih =>
      intro prev acc
      have hop : (GatewayOp.list (next prev) : GatewayOp ncpu _).GrantsIn G := hnext prev
      refine (Prog.safe_perform hop fun _ _ => trivial).bind fun key _ => ?_
      cases key with
      | none => exact Prog.safe_pure trivial
      | some key =>
        have hop : (GatewayOp.list (lookup key) : GatewayOp ncpu _).GrantsIn G := hlookup key
        exact (Prog.safe_perform hop fun _ _ => trivial).bind fun val _ => ih _ _
  have hcloseIf : ∀ opened map,
      ((closeIf opened map : Tool ncpu Unit).lift : GatewayProg ncpu Unit).GrantsOnly B G :=
    fun opened map => grantsOnly_lift (grantsOnly_of_only (only_closeIf opened trivial))
  have hrules : (showProtocols fuel : GatewayProg ncpu _).GrantsOnly B G := by
    refine (Prog.safe_perform trivial fun _ _ => trivial).bind fun l2Fd _ => ?_
    refine (Prog.safe_perform trivial fun _ _ => trivial).bind fun l3l4Fd _ => ?_
    split
    · refine (hlist .nextL2Key .lookupL2 (fun _ => trivial) (fun _ => trivial) _ _ _).bind
        fun l2 _ => ?_
      cases l2 with
      | none => exact Prog.safe_pure trivial
      | some l2 =>
        refine (hlist .nextProtoKey .lookupProto (fun _ => trivial) (fun _ => trivial) _ _ _).bind
          fun l3l4 _ => ?_
        cases l3l4 with
        | none => exact Prog.safe_pure trivial
        | some l3l4 =>
          exact (Prog.safe_perform trivial fun _ _ => trivial).bind fun _ _ =>
            (Prog.safe_perform trivial fun _ _ => trivial).bind fun _ _ => Prog.safe_pure trivial
    · exact (hcloseIf _ _).bind fun _ _ => (hcloseIf _ _).bind fun _ _ => Prog.safe_pure trivial
  have hread : ((hgReadAll qsort fuel .dnBytes .all 20 : Tool ncpu _).lift).GrantsOnly B G :=
    grantsOnly_lift (grantsOnly_of_only ((only_hgReadAll_reads qsort fuel _ _ _).mono
      fun _ hop => hop.grantsIn))
  unfold hgctlShow
  cases parseIface opts with
  | none => exact Prog.safe_pure trivial
  | some iface =>
    have haction : (showAction qsort fuel : GatewayProg ncpu _).GrantsOnly B G := by
      refine hread.bind fun outcome _ => ?_
      cases outcome with
      | failed => exact Prog.safe_pure trivial
      | outOfFuel => exact Prog.safe_pure trivial
      | done r =>
        dsimp only
        split
        · exact Prog.safe_pure trivial
        · exact hrules.bind fun _ _ => Prog.safe_pure trivial
    exact haction.bind fun _ _ => Prog.safe_pure trivial

theorem grantsOnly_hgctlDetails (clockText : Int64 → CString) (opts : List DetailsOpt) :
    (hgctlDetails clockText opts : Tool ncpu Status).GrantsOnly B G fun _ => True := by
  refine grantsOnly_of_only (Prog.Only.mono (P := Sys.Reads) ?_ fun _ hop => hop.grantsIn)
  unfold hgctlDetails
  cases parseDetails opts with
  | none => exact Prog.only_pure _
  | some v =>
    dsimp only
    split
    · have hone : (detailsOneAction clockText v.ip : Tool ncpu _).Only Sys.Reads := by
        refine (only_hgReadOne v.ip).bind fun stats => ?_
        cases stats <;> exact Prog.only_pure _
      refine hone.bind fun times => ?_
      cases times <;> exact Prog.only_pure _
    · exact Prog.only_pure _

/-- A command grants only what it is authorised for. -/
theorem HgctlCommand.grantsOnly {cmd : HgctlCommand} (h : ∀ p, cmd.Authorises B p → G p) :
    (cmd.prog : GatewayProg ncpu Status).GrantsOnly B G := by
  cases cmd with
  | add opts =>
    exact grantsOnly_lift (grantsOnly_hgctlAdd fun a m ha hm => h (.session m) ⟨a, ha, hm⟩)
  | del opts => exact grantsOnly_lift (grantsOnly_hgctlDel opts)
  | mapDel opts => exact grantsOnly_lift (grantsOnly_hgctlMapDel opts)
  | proto opts => exact grantsOnly_lift (grantsOnly_hgctlProto h)
  | bypassAdd opts =>
    rw [HgctlCommand.prog, hgctlBypassAdd]
    cases hparse : parseBypass opts with
    | none => exact Prog.safe_pure trivial
    | some text =>
      dsimp only
      unfold bypassAddAction
      cases hpton : inetPton text with
      | none => exact Prog.safe_pure trivial
      | some ip => exact grantsOnly_withBypass (h (.bypass ip) ⟨text, hparse, hpton⟩)
  | bypassDel opts =>
    rw [HgctlCommand.prog, hgctlBypassDel]
    cases parseBypass opts with
    | none => exact Prog.safe_pure trivial
    | some text =>
      dsimp only
      unfold bypassDelAction
      cases inetPton text with
      | none => exact Prog.safe_pure trivial
      | some ip => exact grantsOnly_withBypass trivial
  | wgAdd opts =>
    refine grantsOnly_lift (Q := fun _ => True) ?_
    unfold hgctlWgAdd
    cases hparse : parseWg opts with
    | none => exact Prog.safe_pure trivial
    | some cidr =>
      dsimp only
      unfold wgAddAction
      cases hkey : wgParseCidr cidr with
      | none => exact Prog.safe_pure trivial
      | some key => exact grantsOnly_withMap _ (h (.garden key) ⟨cidr, hparse, hkey⟩)
  | wgDel opts =>
    refine grantsOnly_lift (Q := fun _ => True) ?_
    unfold hgctlWgDel
    cases parseWg opts with
    | none => exact Prog.safe_pure trivial
    | some cidr =>
      dsimp only
      unfold wgDelAction
      cases wgParseCidr cidr with
      | none => exact Prog.safe_pure trivial
      | some key => exact grantsOnly_withMap _ trivial
  | showClients qsort fuel opts => exact grantsOnly_hgctlShow qsort fuel opts
  | details clockText opts => exact grantsOnly_lift (grantsOnly_hgctlDetails clockText opts)
  | help => exact Prog.safe_pure trivial

/-! ## Requests -/

/-- The operation of the daemon grants only permissions in `G`. -/
def DaemonOp.GrantsOnly (ncpu : Nat) (B : Bindings) (G : Permission → Prop) {β : Type} :
    DaemonOp β → Prop
  | .execCmd cmd => (cmd.tool : Tool ncpu Status).GrantsOnly B G fun _ => True
  | .readOne _ | .readFile _ => True

theorem grantsOnly_calls {α : Type} {p : Daemon α} (h : p.Only (DaemonOp.GrantsOnly ncpu B G)) :
    (p.calls : GatewayProg ncpu α).GrantsOnly B G := by
  have hsafe : p.Safe (fun _ _ => True) (DaemonOp.GrantsOnly ncpu B G) fun _ => True := h.safe
  unfold Daemon.calls
  refine Prog.Safe.translate ?_ hsafe
  intro β op hop
  cases op with
  | execCmd cmd =>
    refine (Prog.safe_perform trivial fun _ _ => trivial).bind fun forked _ => ?_
    split
    · exact (grantsOnly_lift hop).bind fun _ _ =>
        (Prog.safe_perform trivial fun _ _ => trivial).bind fun _ _ => Prog.safe_pure trivial
    · exact Prog.safe_pure trivial
  | readOne ip =>
    exact grantsOnly_lift (grantsOnly_of_only ((only_hgReadOne ip).mono fun _ hop => hop.grantsIn))
  | readFile path => exact Prog.safe_perform trivial fun _ _ => trivial

/-- The command of a login names the address of the client. -/
theorem names_addOpts {auth : ClientAuth} {cfg : HgConfig} {a : AddArgs} {m : HgMacKey} {ip : IpAddr}
    (hmac : auth.mac = []) (hip : inetPton (cStr auth.ip) = some ip)
    (hparse : parseAdd (auth.addOpts cfg) = some a) (h : a.Names B m) : B ip m := by
  have hlen : (cStr auth.ip).length ≤ 15 := by
    by_contra hlong
    rw [inetPton_eq_none_of_length (Nat.lt_of_not_le hlong)] at hip
    cases hip
  have hcopy : strncpyInto 16 (cStr auth.ip) = cStr auth.ip := List.take_of_length_le hlen
  have hvars : ∃ v, (auth.addOpts cfg).foldlM AddVars.set .init = some v ∧ v.mac = [] ∧
      v.ip = cStr auth.ip := by
    unfold ClientAuth.addOpts
    rw [if_neg (not_not.mpr hmac)]
    exact ⟨_, rfl, rfl, hcopy⟩
  obtain ⟨v, hv, hvmac, hvip⟩ := hvars
  unfold parseAdd at hparse
  rw [hv, Option.bind_eq_bind, Option.bind_some] at hparse
  split at hparse
  · cases hparse
  · obtain rfl := Option.some.inj hparse
    obtain ⟨text, addr, htext, haddr, hbound⟩ : ∃ text addr, nonEmpty v.ip = some text ∧
        inetPton text = some addr ∧ B addr m := by
      simpa [AddArgs.Names, hvmac, nonEmpty] using h
    rw [nonEmpty, hvip] at htext
    split at htext
    · cases htext
    · obtain rfl := Option.some.inj htext
      rw [hip] at haddr
      obtain rfl := Option.some.inj haddr
      exact hbound

/-- A request grants a session only to the client that it logs in. -/
theorem grantsOnly_route {cfg : HgConfig} {provider : AuthProvider} {req : HttpRequest}
    {clientIp : List Char} (clientPort : UInt16)
    (h : ∀ m, LoginFrom B provider req clientIp m → G (.session m)) :
    ((route cfg provider req clientIp clientPort).calls : GatewayProg ncpu _).GrantsOnly B G := by
  refine grantsOnly_calls ?_
  by_cases hpath : req.path = "/login".toList
  · rw [route, if_pos hpath, handleAuth]
    split
    · next hok =>
      have hauth : (authenticate cfg ((provider (loginCredentials req clientIp)).clientAuth cfg
          clientIp clientPort)).Only (DaemonOp.GrantsOnly ncpu B G) := by
        unfold authenticate
        split
        · exact Prog.only_pure _
        · next haddr =>
          obtain ⟨ip, hip⟩ := Option.ne_none_iff_exists'.mp (mt Option.isNone_iff_eq_none.mpr haddr)
          refine Prog.only_perform ?_
          exact grantsOnly_hgctlAdd fun a m ha hm =>
            h m ⟨hpath, hok, ip, hip, names_addOpts rfl hip ha hm⟩
      refine hauth.bind fun ok => ?_
      split
      · exact (Prog.only_perform (grantsOnly_hgctlMapDel _)).bind fun _ => Prog.only_pure _
      · exact Prog.only_pure _
    · exact Prog.only_pure _
  · refine (only_route hpath clientIp clientPort).mono ?_
    intro β op hop
    cases op with
    | execCmd cmd => exact hop.elim
    | readOne ip => trivial
    | readFile path => trivial

/-- A party grants only what it is authorised for. -/
theorem Party.grantsOnly {party : Party} (h : ∀ p, party.Authorises B p → G p) :
    (party.prog : GatewayProg ncpu Reply).GrantsOnly B G := by
  cases party with
  | hgctl cmd => exact (HgctlCommand.grantsOnly h).bind fun _ _ => Prog.safe_pure trivial
  | request cfg provider req clientIp clientPort =>
    exact (grantsOnly_route clientPort fun m hm => h (.session m) hm).bind
      fun _ _ => Prog.safe_pure trivial

/-! ## Steps -/

/-- The permission that an event sets. -/
def Gateway.setsPermission (g : Gateway ncpu) : GatewayEvent ncpu → Option (Permission × Bool)
  | .start _ | .egress _ _ => none
  | .call i env =>
    match g.running[i]? with
    | some ⟨_, .call op _⟩ => op.setsPermission env g.maps
    | _ => none
  | .ingress env skb => (g.maps.endedSession env skb.data).map fun m => (.session m, false)

/-- The permissions after an event are those before it but for the one that it sets. -/
theorem Gateway.permits_step (g : Gateway ncpu) (e : GatewayEvent ncpu) (p : Permission) :
    (g.step e).maps.permits p = setPermission (g.maps.permits p) p (g.setsPermission e) := by
  cases e with
  | start party => rfl
  | call i env =>
    rw [Gateway.step, Gateway.setsPermission]
    cases g.running[i]? with
    | none => rfl
    | some rp =>
      obtain ⟨party, rest⟩ := rp
      cases rest with
      | ret a => rfl
      | call op k => exact permits_exec env g.maps op p
  | ingress env skb => exact permits_hgTcIngress env g.maps skb p
  | egress env skb => exact permits_hgTcEgress env g.maps skb p

/-- The event grants the permission: a call of a party that the kernel accepts. -/
def Gateway.Grants (g : Gateway ncpu) (e : GatewayEvent ncpu) (p : Permission) : Prop :=
  g.setsPermission e = some (p, true)

/-- The event takes the permission back: a call of a party that deletes it, or a packet that meets
    the expired session. -/
def Gateway.Revokes (g : Gateway ncpu) (e : GatewayEvent ncpu) (p : Permission) : Prop :=
  g.setsPermission e = some (p, false)

theorem Gateway.permits_step_iff (g : Gateway ncpu) (e : GatewayEvent ncpu) (p : Permission) :
    (g.step e).maps.permits p = true ↔
      g.Grants e p ∨ (g.maps.permits p = true ∧ ¬ g.Revokes e p) := by
  rw [Gateway.permits_step, Gateway.Grants, Gateway.Revokes]
  cases g.setsPermission e with
  | none => simp
  | some w =>
    obtain ⟨q, b⟩ := w
    by_cases hq : p = q
    · subst hq
      cases b with
      | true => simp
      | false => simp
    · simp [hq, Ne.symm hq]

/-- Every party that runs was started and goes on to grant only what it is authorised for. -/
def Gateway.Authorised (B : Bindings) (S : Party → Prop) (g : Gateway ncpu) : Prop :=
  ∀ rp ∈ g.running, S rp.party ∧ rp.rest.GrantsOnly B (rp.party.Authorises B)

/-- The bindings and the parties account for the state and the event. -/
structure Gateway.Accounted (B : Bindings) (S : Party → Prop) (g : Gateway ncpu)
    (e : GatewayEvent ncpu) : Prop where
  bound : ∀ ip m, g.maps.ipMac.lookup ip = some m → B ip m
  started : ∀ party, e = .start party → S party

variable {S : Party → Prop}

/-- The kernel answers from the bindings. -/
theorem answersFrom_exec {s : HgMaps ncpu} (h : ∀ ip m, s.ipMac.lookup ip = some m → B ip m)
    (env : GatewayEnv) {β : Type} (op : GatewayOp ncpu β) :
    op.AnswersFrom B (op.exec env s).1 := by
  cases op with
  | list op => trivial
  | host op => trivial
  | map op =>
    cases op with
    | lookupIpMac ip => exact fun m hm => h ip m hm
    | _ => trivial

theorem Gateway.Authorised.step {g : Gateway ncpu} (hg : g.Authorised B S) {e : GatewayEvent ncpu}
    (he : g.Accounted B S e) : (g.step e).Authorised B S := by
  cases e with
  | start party =>
    intro rp hrp
    rcases List.mem_append.mp hrp with hrp | hrp
    · exact hg rp hrp
    · rw [List.mem_singleton.mp hrp]
      exact ⟨he.started party rfl, Party.grantsOnly fun p hp => hp⟩
  | call i env =>
    rw [Gateway.step]
    cases hi : g.running[i]? with
    | none => exact hg
    | some p =>
      obtain ⟨hstarted, hgrants⟩ := hg p (List.mem_of_getElem? hi)
      intro rp hrp
      rcases List.mem_or_eq_of_mem_set hrp with hrp | rfl
      · exact hg rp hrp
      · exact ⟨hstarted, hgrants.advance fun op => answersFrom_exec he.bound env op⟩
  | ingress env skb => exact hg
  | egress env skb => exact hg

/-- An event that turns a permission on is a call of a party that is authorised to grant it. -/
theorem Gateway.Authorised.of_sets {g : Gateway ncpu} (hg : g.Authorised B S)
    {e : GatewayEvent ncpu} {p : Permission} (h : g.setsPermission e = some (p, true)) :
    ∃ i env rp, e = .call i env ∧ g.running[i]? = some rp ∧ S rp.party ∧
      rp.party.Authorises B p := by
  cases e with
  | start party => cases h
  | egress env skb => cases h
  | ingress env skb =>
    obtain ⟨m, -, hm⟩ := Option.map_eq_some_iff.mp h
    cases hm
  | call i env =>
    cases hi : g.running[i]? with
    | none => simp [Gateway.setsPermission, hi] at h
    | some rp =>
      obtain ⟨party, rest⟩ := rp
      cases rest with
      | ret a => simp [Gateway.setsPermission, hi] at h
      | call op k =>
        obtain ⟨hstarted, hgrants⟩ := hg _ (List.mem_of_getElem? hi)
        simp only [Gateway.setsPermission, hi] at h
        exact ⟨i, env, _, rfl, hi, hstarted, hgrants.next.of_sets h⟩

/-! ## Runs -/

/-- The address was bound to the MAC at some time of the run. -/
def BoundDuring (g : Gateway ncpu) (es : List (GatewayEvent ncpu)) : Bindings := fun ip m =>
  ∃ before, before <+: es ∧ (run Gateway.step g before).maps.ipMac.lookup ip = some m

/-- A party that was started in the run granted the permission with one of its calls, for which it
    was authorised, and no later event took it back. -/
def Granted (g : Gateway ncpu) (es : List (GatewayEvent ncpu)) (p : Permission) : Prop :=
  ∃ pre i env post rp, es = pre ++ .call i env :: post ∧
    GatewayEvent.start rp.party ∈ pre ∧ (run Gateway.step g pre).running[i]? = some rp ∧
    rp.party.Authorises (BoundDuring g pre) p ∧ (run Gateway.step g pre).Grants (.call i env) p ∧
    Always Gateway.step (fun g e => ¬ g.Revokes e p)
      (run Gateway.step g (pre ++ [.call i env])) post

theorem since_of_granted {g : Gateway ncpu} {es : List (GatewayEvent ncpu)} {p : Permission}
    (h : Granted g es p) :
    Since Gateway.step (fun g e => g.Grants e p) (fun g e => g.Revokes e p) g es := by
  obtain ⟨pre, i, env, post, rp, heq, -, -, -, hgrants, hkept⟩ := h
  exact ⟨pre, .call i env, post, heq, hgrants, hkept⟩

/-- Only authorised parties grant. -/
theorem granted_of_since (portal : HgPortalCfg) (ifb : UInt32) {es : List (GatewayEvent ncpu)}
    {p : Permission}
    (h : Since Gateway.step (fun g e => g.Grants e p) (fun g e => g.Revokes e p)
      (.start ncpu portal ifb) es) : Granted (.start ncpu portal ifb) es p := by
  obtain ⟨pre, e, post, rfl, hgrants, hkept⟩ := h
  -- every state before the event has its bindings and its parties accounted for
  have haccounted : Always Gateway.step (Gateway.Accounted (BoundDuring (.start ncpu portal ifb) pre)
      fun party => GatewayEvent.start party ∈ pre) (.start ncpu portal ifb) pre := by
    rw [always_iff_forall]
    intro before e' after heq
    refine ⟨fun ip m hm => ⟨before, ⟨e' :: after, heq.symm⟩, hm⟩, ?_⟩
    rintro party rfl
    rw [heq]
    exact List.mem_append_right _ List.mem_cons_self
  have hauthorised : (run Gateway.step (.start ncpu portal ifb) pre).Authorised
      (BoundDuring (.start ncpu portal ifb) pre) fun party => GatewayEvent.start party ∈ pre :=
    run_of_guarded (fun g e hg he => hg.step he) (fun rp hrp => absurd hrp List.not_mem_nil)
      haccounted
  obtain ⟨i, env, rp, rfl, hi, hstarted, hauth⟩ := hauthorised.of_sets hgrants
  exact ⟨pre, i, env, post, rp, rfl, hstarted, hi, hauth, hgrants, hkept⟩

/-- A gateway permits exactly what was granted and not taken back. -/
theorem permits_iff_granted (portal : HgPortalCfg) (ifb : UInt32) (es : List (GatewayEvent ncpu))
    (p : Permission) :
    (run Gateway.step (.start ncpu portal ifb) es).maps.permits p = true ↔
      Granted (.start ncpu portal ifb) es p := by
  have hstart : ¬ (Gateway.start ncpu portal ifb).maps.permits p = true := by
    cases p <;> exact Bool.false_ne_true
  rw [run_iff_since (P := fun g : Gateway ncpu => g.maps.permits p = true)
    (fun g e => g.permits_step_iff e p) hstart]
  exact ⟨granted_of_since portal ifb, since_of_granted⟩

/-- The calls of a login behind the first frame of its client. -/
def loginRun : List (GatewayEvent 1) :=
  .ingress (.good 0 0)
      ⟨tcpFrame (localMac 7) (Bytes.addrOfOctets 192 168 99 7) (Bytes.addrOfOctets 9 9 9 9) 40000 443,
        54⟩ ::
    .start (.request exampleConfig localAuth
      ⟨"POST".toList, "/login".toList, [], [], 0, "HTTP/1.1".toList⟩
      (inetNtop (Bytes.addrOfOctets 192 168 99 7)) 40000) ::
    List.replicate 12 (.call 0 ⟨.good ⟨0, 0⟩, true, true, fun _ => none⟩)

example : (run Gateway.step (.start 1 .standard 5) loginRun).maps.permits (.session (localMac 7)) =
    true := by decide +kernel

end HawkGate
