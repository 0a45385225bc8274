-- SUMMARY: Which entries of the maps the commands and requests about one client touch.
import HawkGate.Lib.ProgLogic
import HawkGate.System.Gateway

/-!
# Footprints

The maps keep a client under three names: its MAC, its address and the id of its
rate profile. A command about a client, or a request from it, reads and writes
the entries under these names only, as long as the entries that lead from one
name to another are about the same client.
-/

namespace HawkGate

open CString StdString

variable {ncpu : Nat}

structure Subscriber where
  mac : HgMacKey
  ip : IpAddr
  rateId : UInt32
  deriving DecidableEq

/-! ## Calls -/

/-- The call touches entries of the subscriber only. -/
def Sys.Concerns (c : Subscriber) {β : Type} : Sys ncpu β → Prop
  | .objGet _ | .close _ | .calloc | .clockGettime _ => True
  | .lookupClient k | .deleteClient k | .lookupMacIp k => k = c.mac
  | .updateClient k v => k = c.mac ∧ v.rateLimitId = c.rateId
  | .lookupCounter ip | .updateCounter ip _ | .deleteCounter ip | .lookupIpMac ip => ip = c.ip
  | .lookupRate id | .updateRate id _ | .deleteRate id => id = c.rateId
  | .deleteConntrack key => key.clientIp = c.ip
  | .nextCounterKey _ | .updateProto _ _ | .updateL2Allow _ _ | .updateWalledGarden _ _ => False
  | .deleteProto _ | .deleteL2Allow _ | .deleteWalledGarden _ => False

/-- An answer about the subscriber leads to its other names. -/
def Sys.AnswersAbout (c : Subscriber) {β : Type} : Sys ncpu β → β → Prop
  | .lookupClient k, r => k = c.mac → ∀ cs, r = some cs → cs.rateLimitId = c.rateId
  | .lookupMacIp k, r => k = c.mac → ∀ ip, r = some ip → ip = c.ip
  | .lookupIpMac ip, r => ip = c.ip → ∀ m, r = some m → m = c.mac
  | _, _ => True

def GatewayOp.Concerns (c : Subscriber) {β : Type} : GatewayOp ncpu β → Prop
  | .map op => op.Concerns c
  | .list _ => False
  | .host _ => True

def GatewayOp.AnswersAbout (c : Subscriber) {β : Type} : GatewayOp ncpu β → β → Prop
  | .map op => op.AnswersAbout c
  | .list _ | .host _ => fun _ => True

/-- Given such answers, the tool touches entries of the subscriber only and returns a value that
    satisfies `Q`. -/
def Tool.About (c : Subscriber) {α : Type} (Q : α → Prop) (p : Tool ncpu α) : Prop :=
  p.Safe (fun op => op.AnswersAbout c) (fun op => op.Concerns c) Q

def GatewayProg.About (c : Subscriber) {α : Type} (p : GatewayProg ncpu α) : Prop :=
  p.Safe (fun op => op.AnswersAbout c) (fun op => op.Concerns c) fun _ => True

section
variable {c : Subscriber} {α β : Type}

@[simp] theorem about_pure_iff {Q : α → Prop} {a : α} : (pure a : Tool ncpu α).About c Q ↔ Q a :=
  Prog.safe_pure_iff

@[simp] theorem about_sys_iff {Q : α → Prop} {op : Sys ncpu α} :
    (sys op).About c Q ↔ op.Concerns c ∧ ∀ b, op.AnswersAbout c b → Q b :=
  Prog.safe_perform_iff

@[simp] theorem about_bind_iff {Q : β → Prop} {p : Tool ncpu α} {f : α → Tool ncpu β} :
    (p >>= f).About c Q ↔ p.About c fun a => (f a).About c Q :=
  Prog.safe_bind_iff

@[simp] theorem about_ite_iff {Q : α → Prop} {d : Prop} [Decidable d] {p q : Tool ncpu α} :
    Tool.About c Q (if d then p else q) ↔ (d → p.About c Q) ∧ (¬ d → q.About c Q) :=
  Prog.safe_ite_iff

theorem Tool.About.mono {Q R : α → Prop} {p : Tool ncpu α} (h : p.About c Q)
    (hQR : ∀ a, Q a → R a) : p.About c R :=
  Prog.Safe.mono h hQR

/-- The next call of a program about the subscriber concerns it. -/
theorem GatewayProg.About.next {op : GatewayOp ncpu β} {k : β → GatewayProg ncpu α}
    (h : GatewayProg.About c (.call op k)) : op.Concerns c :=
  Prog.Safe.next h

theorem about_lift {Q : α → Prop} {p : Tool ncpu α} (h : p.About c Q) : p.lift.About c := by
  have hlift : p.lift.Safe (fun op => op.AnswersAbout c) (fun op => op.Concerns c) Q := by
    unfold Tool.lift
    refine Prog.Safe.translate ?_ h
    exact fun op hop => Prog.safe_perform hop fun _ hb => hb
  exact hlift.mono fun _ _ => trivial

theorem about_closeIf (opened : Bool) (map : MapName) {Q : Unit → Prop} (h : Q ()) :
    (closeIf opened map : Tool ncpu Unit).About c Q := by
  cases opened with
  | false => exact h
  | true => exact ⟨trivial, fun _ _ => h⟩

/-! ## Sessions -/

/-- The arguments of an add name the subscriber, and ask for its rate id. -/
structure AddArgs.Serves (a : AddArgs) (c : Subscriber) : Prop where
  mac : ∀ text m, a.mac = some text → scanMacKey text = some m → m = c.mac
  ip : ∀ text ip, a.ip = some text → inetPton text = some ip → ip = c.ip
  rateId : a.rateId = c.rateId

theorem about_addTarget {a : AddArgs} (h : a.Serves c) :
    (addTarget a.mac a.ip : Tool ncpu _).About c fun r =>
      ∀ m ip, r = some (m, ip) → m = c.mac ∧ ip = c.ip := by
  unfold addTarget
  cases hmac : a.mac with
  | some mac =>
    cases hip : a.ip with
    | some ip =>
      refine about_pure_iff.mpr fun m addr heq => ?_
      obtain ⟨k, hk, hrest⟩ := Option.bind_eq_some_iff.mp heq
      obtain ⟨b, hb, heq⟩ := Option.map_eq_some_iff.mp hrest
      obtain ⟨rfl, rfl⟩ := Prod.mk.inj heq
      exact ⟨h.mac mac k hmac hk, h.ip ip b hip hb⟩
    | none =>
      cases hscan : scanMacKey mac with
      | none => simp [hscan]
      | some k =>
        obtain rfl := h.mac mac k hmac hscan
        simp +contextual [hscan, Sys.Concerns, Sys.AnswersAbout]
  | none =>
    cases hip : a.ip with
    | none => simp
    | some text =>
      cases hpton : inetPton text with
      | none => simp [hpton]
      | some ip =>
        obtain rfl := h.ip text ip hip hpton
        simp +contextual [hpton, Sys.Concerns, Sys.AnswersAbout]

theorem about_addInstall {clientVal : HgClient} (h : clientVal.rateLimitId = c.rateId)
    (rateVal : HgRateCfg) :
    (addInstall c.mac c.ip clientVal rateVal : Tool ncpu Status).About c fun _ => True := by
  have hwrite : (addWrite c.mac c.ip clientVal rateVal : Tool ncpu Status).About c
      fun _ => True := by
    simp [addWrite, Sys.Concerns, h]
  simp only [addInstall, about_bind_iff, about_sys_iff, about_ite_iff]
  refine ⟨trivial, fun _ _ => ⟨trivial, fun _ _ => ⟨trivial, fun _ _ => ⟨fun _ => ?_, fun _ => ?_⟩⟩⟩⟩
  · refine hwrite.mono fun _ _ => ?_
    simp [Sys.Concerns]
  · exact about_closeIf _ _ (about_closeIf _ _ (about_closeIf _ _ trivial))

theorem about_hgctlAdd {opts : List AddOpt} (h : ∀ a, parseAdd opts = some a → a.Serves c) :
    (hgctlAdd opts : Tool ncpu Status).About c fun _ => True := by
  unfold hgctlAdd
  cases hparse : parseAdd opts with
  | none => simp
  | some a =>
    have ha := h a hparse
    simp only [addAction, about_bind_iff]
    refine (about_addTarget ha).mono fun r hr => ?_
    cases r with
    | none => simp
    | some target =>
      obtain ⟨m, ip⟩ := target
      obtain ⟨rfl, rfl⟩ := hr m ip rfl
      exact ⟨trivial, fun ts _ => about_addInstall ha.rateId _⟩

theorem about_delEntries : (delEntries c.mac : Tool ncpu Unit).About c fun _ => True := by
  have hrate : (delRate c.mac : Tool ncpu Unit).About c fun _ => True := by
    simp only [delRate, about_bind_iff, about_sys_iff]
    refine ⟨rfl, fun r hr => ?_⟩
    cases r with
    | none => simp
    | some cs => simp [Sys.Concerns, hr rfl cs rfl]
  have hcounter : (delCounter c.mac : Tool ncpu Unit).About c fun _ => True := by
    simp only [delCounter, about_bind_iff, about_sys_iff, about_ite_iff]
    refine ⟨trivial, fun _ _ => ⟨fun _ => ⟨rfl, fun r hr => ?_⟩, by simp⟩⟩
    cases r with
    | none => simp [Sys.Concerns]
    | some ip => simp [Sys.Concerns, hr rfl ip rfl]
  simp only [delEntries, about_bind_iff, about_sys_iff]
  exact hrate.mono fun _ _ => ⟨rfl, fun _ _ => hcounter⟩

theorem about_delAction {mac : CString} (h : ∀ m, scanMacKey mac = some m → m = c.mac) :
    (delAction mac : Tool ncpu Status).About c fun _ => True := by
  unfold delAction
  cases hscan : scanMacKey mac with
  | none => simp
  | some m =>
    obtain rfl := h m hscan
    simp only [about_bind_iff, about_sys_iff, about_ite_iff]
    refine ⟨trivial, fun _ _ => ⟨trivial, fun _ _ => ⟨fun _ => ?_, fun _ => ?_⟩⟩⟩
    · refine about_delEntries.mono fun _ _ => ?_
      simp [Sys.Concerns]
    · exact about_closeIf _ _ (about_closeIf _ _ trivial)

/-- The client of a del is the subscriber, by its MAC or else by its address. -/
def DelVars.Serves (v : DelVars) (c : Subscriber) : Prop :=
  if v.mac ≠ [] then ∀ m, scanMacKey v.mac = some m → m = c.mac
  else ∀ ip, inetPton v.ip = some ip → ip = c.ip

theorem about_hgctlDel {opts : List DelOpt} (h : ∀ v, parseDel opts = some v → v.Serves c) :
    (hgctlDel opts : Tool ncpu Status).About c fun _ => True := by
  unfold hgctlDel
  cases hparse : parseDel opts with
  | none => simp
  | some v =>
    have hv := h v hparse
    rw [DelVars.Serves] at hv
    dsimp only
    split
    · next hmac =>
      rw [if_pos hmac] at hv
      exact about_delAction hv
    · next hmac =>
      rw [if_neg hmac] at hv
      have hresolve : (resolveIpToMac v.ip : Tool ncpu _).About c fun r =>
          ∀ text, r = some text → text = macToStr c.mac := by
        unfold resolveIpToMac
        cases hpton : inetPton v.ip with
        | none => simp
        | some ip =>
          obtain rfl := hv ip hpton
          simp only [about_bind_iff, about_sys_iff, about_ite_iff]
          refine ⟨trivial, fun _ _ => ⟨fun _ => ⟨rfl, fun r hr => ⟨trivial, fun _ _ => ?_⟩⟩, by simp⟩⟩
          intro text htext
          obtain ⟨m, hm, rfl⟩ := Option.map_eq_some_iff.mp htext
          rw [hr rfl m hm]
      rw [about_bind_iff]
      refine hresolve.mono fun r hr => ?_
      cases r with
      | none => simp
      | some text =>
        obtain rfl := hr text rfl
        have hcopy : strncpyInto 18 (macToStr c.mac) = macToStr c.mac :=
          List.take_of_length_le (Nat.le_of_eq (length_macText _))
        refine about_delAction fun m hm => ?_
        rw [hcopy, scanMacKey_macToStr] at hm
        exact (Option.some.inj hm).symm

/-- The entry that `map-del` names is one of the subscriber. -/
def MapDelVars.Serves (v : MapDelVars) (c : Subscriber) : Prop :=
  match MapName.ofText v.mapName with
  | some .hgClients => ∀ m, scanMacKey v.keySpec = some m → m = c.mac
  | some .hgConntrack =>
    ∀ ipText portText ip, splitFirst ':' v.keySpec = some (ipText, portText) →
      inetPton ipText = some ip → ip = c.ip
  | some .hgProto => False
  | _ => True

theorem about_hgctlMapDel {opts : List MapDelOpt}
    (h : ∀ v, parseMapDel opts = some v → v.Serves c) :
    (hgctlMapDel opts : Tool ncpu Status).About c fun _ => True := by
  unfold hgctlMapDel
  cases hparse : parseMapDel opts with
  | none => simp
  | some v =>
    have hv := h v hparse
    rw [MapDelVars.Serves] at hv
    dsimp only
    unfold mapDelAction
    cases hmap : MapName.ofText v.mapName with
    | none => simp
    | some map =>
      rw [hmap] at hv
      have hkey : (mapDelKey map v.keySpec : Tool ncpu Status).About c fun _ => True := by
        cases map with
        | hgConntrack =>
          rw [mapDelKey, mapDelConntrack]
          split
          · simp
          · next ipText portText hsplit =>
            split
            · simp
            · split
              · simp
              · next ip hip => simp [Sys.Concerns, hv ipText portText ip hsplit hip]
        | hgClients =>
          rw [mapDelKey, mapDelClient]
          split
          · simp
          · next m hm => simp [Sys.Concerns, hv m hm]
        | hgProto => exact hv.elim
        | _ => simp [mapDelKey]
      simp only [about_bind_iff, about_sys_iff, about_ite_iff]
      refine ⟨trivial, fun _ _ => ⟨fun _ => hkey.mono fun _ _ => ?_, by simp⟩⟩
      simp [Sys.Concerns]

/-! ## Reading -/

theorem about_hgReadOne {ip : CString} (h : ∀ ipKey, inetPton ip = some ipKey → ipKey = c.ip) :
    (hgReadOne ip : Tool ncpu _).About c fun _ => True := by
  unfold hgReadOne
  cases hpton : inetPton ip with
  | none => simp
  | some ipKey =>
    obtain rfl := h ipKey hpton
    have hopen : (openReadMaps : Tool ncpu Bool).About c fun _ => True := by
      simp only [openReadMaps, about_bind_iff, about_sys_iff, about_ite_iff]
      refine ⟨trivial, fun _ _ => ⟨trivial, fun _ _ => ⟨trivial, fun _ _ => ⟨by simp, fun _ => ?_⟩⟩⟩⟩
      exact about_closeIf _ _ (about_closeIf _ _ (about_closeIf _ _ trivial))
    have hsession : ∀ macFd, (readSession macFd c.ip : Tool ncpu _).About c fun r =>
        r.2.rateLimitId ≠ 0 → r.2.rateLimitId = c.rateId := by
      intro macFd
      cases macFd with
      | false => simp [readSession, HgClient.zero]
      | true =>
        simp only [readSession, if_true, about_bind_iff, about_sys_iff]
        refine ⟨rfl, fun r hr => ?_⟩
        cases r with
        | none => simp [HgClient.zero]
        | some m =>
          obtain rfl := hr rfl m rfl
          simp only [about_bind_iff, about_sys_iff]
          refine ⟨rfl, fun cs hcs => ?_⟩
          cases cs with
          | none => simp [HgClient.zero]
          | some cs => exact fun _ => hcs rfl cs rfl
    have hentry : ∀ macFd, (readEntry macFd c.ip : Tool ncpu _).About c fun _ => True := by
      intro macFd
      simp only [readEntry, about_bind_iff, about_sys_iff]
      refine ⟨rfl, fun percpu _ => ?_⟩
      cases percpu with
      | none => simp
      | some percpu =>
        simp only [about_bind_iff]
        refine (hsession macFd).mono fun r hr => ?_
        have hrate : (readRate r.2 : Tool ncpu _).About c fun _ => True := by
          simp only [readRate, about_ite_iff, about_bind_iff, about_sys_iff]
          exact ⟨fun hne => ⟨hr hne, fun _ _ => trivial⟩, by simp⟩
        refine hrate.mono fun rate _ => ?_
        simp [fillStats, isExpired, resolveTimes, Sys.Concerns]
    simp only [about_bind_iff, about_ite_iff, about_sys_iff]
    refine hopen.mono fun _ _ => ⟨fun _ => ⟨trivial, fun macFd _ => ⟨trivial, fun _ _ => ?_⟩⟩, by simp⟩
    constructor
    · intro _
      refine (hentry macFd).mono fun _ _ => about_closeIf _ _ ?_
      simp [Sys.Concerns]
    · intro _
      refine about_pure_iff.mpr (about_closeIf _ _ ?_)
      simp [Sys.Concerns]

theorem about_hgctlDetails {clockText : Int64 → CString} {opts : List DetailsOpt}
    (h : ∀ v, parseDetails opts = some v → ∀ ip, inetPton v.ip = some ip → ip = c.ip) :
    (hgctlDetails clockText opts : Tool ncpu Status).About c fun _ => True := by
  unfold hgctlDetails
  cases hparse : parseDetails opts with
  | none => simp
  | some v =>
    dsimp only
    split
    · simp only [detailsOneAction, about_bind_iff]
      refine (about_hgReadOne (h v hparse)).mono fun stats _ => ?_
      cases stats with
      | none => simp
      | some stats => simp
    · simp

/-! ## Parties -/

/-- The command is about the subscriber. The lists of the gateway are about everyone. -/
def HgctlCommand.Serves (c : Subscriber) : HgctlCommand → Prop
  | .add opts => ∀ a, parseAdd opts = some a → a.Serves c
  | .del opts => ∀ v, parseDel opts = some v → v.Serves c
  | .mapDel opts => ∀ v, parseMapDel opts = some v → v.Serves c
  | .details _ opts => ∀ v, parseDetails opts = some v → ∀ ip, inetPton v.ip = some ip → ip = c.ip
  | .help => True
  | .proto _ | .bypassAdd _ | .bypassDel _ | .wgAdd _ | .wgDel _ | .showClients .. => False

/-- The command is about the subscriber, or the request comes from its address and a login in it
    asks for its rate id. -/
def Party.Serves (c : Subscriber) : Party → Prop
  | .hgctl cmd => cmd.Serves c
  | .request cfg provider req clientIp clientPort =>
    clientIp = inetNtop c.ip ∧
      ∀ a, parseAdd (((provider (loginCredentials req clientIp)).clientAuth cfg clientIp
        clientPort).addOpts cfg) = some a → a.rateId = c.rateId

theorem HgctlCommand.Serves.about {cmd : HgctlCommand} (h : cmd.Serves c) :
    (cmd.prog : GatewayProg ncpu Status).About c := by
  cases cmd with
  | add opts => exact about_lift (about_hgctlAdd h)
  | del opts => exact about_lift (about_hgctlDel h)
  | mapDel opts => exact about_lift (about_hgctlMapDel h)
  | details clockText opts => exact about_lift (about_hgctlDetails h)
  | help => exact Prog.safe_pure trivial
  | proto | bypassAdd | bypassDel | wgAdd | wgDel | showClients => exact h.elim

/-- The operation of the daemon touches entries of the subscriber only. -/
def DaemonOp.About (ncpu : Nat) (c : Subscriber) {β : Type} : DaemonOp β → Prop
  | .execCmd cmd => (cmd.tool : Tool ncpu Status).About c fun _ => True
  | .readOne ip => ∀ ipKey, inetPton ip = some ipKey → ipKey = c.ip
  | .readFile _ => True

theorem about_calls {p : Daemon α} (h : p.Only (DaemonOp.About ncpu c)) :
    (p.calls : GatewayProg ncpu α).About c := by
  have hsafe : p.Safe (fun _ _ => True) (DaemonOp.About ncpu c) fun _ => True := h.safe
  unfold Daemon.calls
  refine Prog.Safe.translate ?_ hsafe
  intro β op hop
  cases op with
  | execCmd cmd =>
    refine (Prog.safe_perform trivial fun _ _ => trivial).bind fun forked _ => ?_
    split
    · exact (about_lift hop).bind fun _ _ =>
        (Prog.safe_perform trivial fun _ _ => trivial).bind fun _ _ => Prog.safe_pure trivial
    · exact Prog.safe_pure trivial
  | readOne ip => exact about_lift (about_hgReadOne hop)
  | readFile path => exact Prog.safe_perform trivial fun _ _ => trivial

/-- The command of a login names the address that the request comes from. -/
theorem addOpts_ip {auth : ClientAuth} {cfg : HgConfig} {a : AddArgs}
    (hmac : auth.mac = []) (hip : auth.ip = inetNtop c.ip)
    (hparse : parseAdd (auth.addOpts cfg) = some a) :
    a.mac = none ∧ ∀ text, a.ip = some text → text = inetNtop c.ip := by
  have hvars : ∃ v, (auth.addOpts cfg).foldlM AddVars.set .init = some v ∧ v.mac = [] ∧
      v.ip = inetNtop c.ip := by
    unfold ClientAuth.addOpts
    rw [if_neg (not_not.mpr hmac)]
    refine ⟨_, rfl, rfl, ?_⟩
    have hlen := length_inetNtop_lt c.ip
    rw [hip, cStr_inetNtop]
    exact List.take_of_length_le (by omega)
  obtain ⟨v, hv, hvmac, hvip⟩ := hvars
  unfold parseAdd at hparse
  rw [hv, Option.bind_eq_bind, Option.bind_some] at hparse
  split at hparse
  · cases hparse
  · obtain rfl := Option.some.inj hparse
    refine ⟨by simp [nonEmpty, hvmac], fun text htext => ?_⟩
    dsimp only at htext
    rw [nonEmpty, hvip] at htext
    split at htext
    · cases htext
    · exact (Option.some.inj htext).symm

/-- The flow that a login deletes is one of the address that the request comes from. -/
theorem serves_flowKey (port : UInt16) :
    ∀ v, parseMapDel [.map (cStr "hg_conntrack".toList),
      .key (cStr (inetNtop c.ip ++ ":".toList ++ decimal port.toNat))] = some v → v.Serves c := by
  intro v hv
  have hnul : Char.ofNat 0 ∉ inetNtop c.ip := not_mem_inetNtop (by decide) (by decide) c.ip
  have hlen := length_inetNtop_lt c.ip
  obtain ⟨rest, hkey⟩ : ∃ rest,
      strncpyInto 64 (cStr (inetNtop c.ip ++ ":".toList ++ decimal port.toNat)) =
        inetNtop c.ip ++ ':' :: rest := by
    rw [List.append_assoc, cStr_append hnul, strncpyInto, List.take_append,
      List.take_of_length_le (by omega)]
    obtain ⟨n, hn⟩ : ∃ n, 64 - 1 - (inetNtop c.ip).length = n + 1 :=
      ⟨62 - (inetNtop c.ip).length, by omega⟩
    rw [hn]
    exact ⟨_, rfl⟩
  have hparse : v = ⟨"hg_conntrack".toList, inetNtop c.ip ++ ':' :: rest⟩ := by
    rw [← hkey]
    unfold parseMapDel at hv
    simp only [List.foldlM_cons, MapDelVars.set, Option.bind_eq_bind, Option.bind_some,
      List.foldlM_nil, Option.pure_def] at hv
    split at hv
    · cases hv
    · exact (Option.some.inj hv).symm
  subst hparse
  have hmap : MapName.ofText "hg_conntrack".toList = some .hgConntrack := by decide
  rw [MapDelVars.Serves, hmap]
  intro ipText portText ip hsplit hip
  rw [splitFirst_append (not_mem_inetNtop (by decide) (by decide) c.ip)] at hsplit
  obtain ⟨rfl, -⟩ := Prod.mk.inj (Option.some.inj hsplit)
  rw [inetPton_inetNtop] at hip
  exact (Option.some.inj hip).symm

theorem about_route {cfg : HgConfig} {provider : AuthProvider} {req : HttpRequest}
    (clientPort : UInt16)
    (h : ∀ a, parseAdd (((provider (loginCredentials req (inetNtop c.ip))).clientAuth cfg
      (inetNtop c.ip) clientPort).addOpts cfg) = some a → a.rateId = c.rateId) :
    ((route cfg provider req (inetNtop c.ip) clientPort).calls : GatewayProg ncpu _).About c := by
  refine about_calls ?_
  have hpoll : (pollOne (inetNtop c.ip)).Only (DaemonOp.About ncpu c) := by
    refine Prog.only_perform fun ipKey hkey => ?_
    rw [cStr_inetNtop, inetPton_inetNtop] at hkey
    exact (Option.some.inj hkey).symm
  have hfile : ∀ path, (readHtmlFile path).Only (DaemonOp.About ncpu c) :=
    fun path => (Prog.only_perform trivial).bind fun _ => Prog.only_pure _
  have hportal : (handlePortal cfg req (inetNtop c.ip)).Only (DaemonOp.About ncpu c) := by
    refine hpoll.bind fun stats => ?_
    split
    · split
      · exact Prog.only_pure _
      · exact Prog.only_pure _
    · split
      · exact (hfile loginPage).bind fun _ => Prog.only_pure _
      · exact Prog.only_pure _
  have hauth : (handleAuth cfg provider req (inetNtop c.ip) clientPort).Only
      (DaemonOp.About ncpu c) := by
    unfold handleAuth
    dsimp only
    split
    · rw [authenticate_inetNtop c.ip rfl]
      have hadd : (execCmd (.add (((provider (loginCredentials req (inetNtop c.ip))).clientAuth cfg
          (inetNtop c.ip) clientPort).addOpts cfg))).Only (DaemonOp.About ncpu c) := by
        refine Prog.only_perform (about_hgctlAdd fun a ha => ?_)
        obtain ⟨hmac, hip⟩ := addOpts_ip rfl rfl ha
        refine ⟨fun text m htext => ?_, fun text ip htext hpton => ?_, h a ha⟩
        · rw [hmac] at htext
          cases htext
        · rw [hip text htext, inetPton_inetNtop] at hpton
          exact (Option.some.inj hpton).symm
      refine hadd.bind fun ok => ?_
      split
      · have hflow : (mapEleDel "hg_conntrack".toList
            (inetNtop c.ip ++ ":".toList ++ decimal clientPort.toNat)).Only
            (DaemonOp.About ncpu c) :=
          Prog.only_perform (about_hgctlMapDel (serves_flowKey clientPort))
        exact hflow.bind fun _ => Prog.only_pure _
      · exact Prog.only_pure _
    · exact Prog.only_pure _
  unfold route
  split
  · exact hauth
  · split
    · exact hportal
    · split
      · exact (hfile successPage).bind fun _ => Prog.only_pure _
      · split
        · exact hpoll.bind fun _ => Prog.only_pure _
        · split
          · exact Prog.only_pure _
          · exact hportal

theorem Party.Serves.about {party : Party} (h : party.Serves c) :
    (party.prog : GatewayProg ncpu Reply).About c := by
  cases party with
  | hgctl cmd => exact (HgctlCommand.Serves.about h).bind fun _ _ => Prog.safe_pure trivial
  | request cfg provider req clientIp clientPort =>
    obtain ⟨rfl, hrate⟩ := h
    exact (about_route clientPort hrate).bind fun _ _ => Prog.safe_pure trivial

end

end HawkGate
