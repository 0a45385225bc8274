-- SUMMARY: The pre-auth allow-list: which rules its five probes find, and that the daemon's rules work in both directions.
import HawkGate.Daemon.BpfCtrl
import HawkGate.Kernel.Stages

/-!
# The allow-list

`proto_allowed` looks for a rule with five probes. A rule may leave each of its
fields open, but the probes open the protocol alone or some of the ports. The
rules that the daemon installs come in pairs for both directions, which carries
over to the decisions of the two hooks.
-/

namespace HawkGate

open Bytes CString StdString HawkGate.Frame

variable {ncpu : Nat}

/-! ## Matching -/

/-- A field of a rule covers a field of a packet; 0 covers everything. -/
def Covers {α : Type} [OfNat α 0] (r x : α) : Prop := r = x ∨ r = 0

instance {α : Type} [OfNat α 0] [DecidableEq α] (r x : α) : Decidable (Covers r x) :=
  inferInstanceAs (Decidable (_ ∨ _))

/-- A rule covers a packet in every field. -/
structure HgAllowKey.Matches (r k : HgAllowKey) : Prop where
  proto : Covers r.proto k.proto
  sPort : Covers r.sPort k.sPort
  dPort : Covers r.dPort k.dPort

/-- The probes find a covering rule that has the packet's protocol, or both of its ports. -/
theorem protoAllowed_iff_rule (proto : BoundedMap HgAllowKey UInt8 64) (k : HgAllowKey) :
    protoAllowed proto k = true ↔
      ∃ r, (proto.lookup r).isSome = true ∧ r.Matches k ∧
        (r.proto = k.proto ∨ r.sPort = k.sPort ∧ r.dPort = k.dPort) := by
  simp only [protoAllowed, Bool.or_eq_true]
  constructor
  · rintro ((((h | h) | h) | h) | h)
    · exact ⟨_, h, ⟨.inl rfl, .inl rfl, .inl rfl⟩, .inl rfl⟩
    · exact ⟨_, h, ⟨.inr rfl, .inl rfl, .inl rfl⟩, .inr ⟨rfl, rfl⟩⟩
    · exact ⟨_, h, ⟨.inl rfl, .inr rfl, .inl rfl⟩, .inl rfl⟩
    · exact ⟨_, h, ⟨.inl rfl, .inl rfl, .inr rfl⟩, .inl rfl⟩
    · exact ⟨_, h, ⟨.inl rfl, .inr rfl, .inr rfl⟩, .inl rfl⟩
  · rintro ⟨⟨rp, rs, rd⟩, h, ⟨hp, hs, hd⟩, hshape⟩
    dsimp only at hp hs hd hshape
    rcases hshape with rfl | ⟨rfl, rfl⟩
    · rcases hs with rfl | rfl
      · rcases hd with rfl | rfl
        · exact .inl (.inl (.inl (.inl h)))
        · exact .inl (.inr h)
      · rcases hd with rfl | rfl
        · exact .inl (.inl (.inr h))
        · exact .inr h
    · rcases hp with rfl | rfl
      · exact .inl (.inl (.inl (.inl h)))
      · exact .inl (.inl (.inl (.inr h)))

/-- A rule for destination port 53 of any protocol and source port is not found for a DNS query. -/
theorem protoAllowed_misses_rule :
    let proto : BoundedMap HgAllowKey UInt8 64 := BoundedMap.empty.put ⟨0, 0, 53⟩ 1
    let k : HgAllowKey := ⟨ipprotoUdp, 40000, 53⟩
    (∃ r, (proto.lookup r).isSome = true ∧ r.Matches k) ∧ protoAllowed proto k = false := by
  refine ⟨⟨⟨0, 0, 53⟩, by decide, ⟨.inr rfl, .inr rfl, .inl rfl⟩⟩, by decide⟩

/-! ## Both directions -/

/-- The key of the reverse packet. -/
def HgAllowKey.swap (k : HgAllowKey) : HgAllowKey := ⟨k.proto, k.dPort, k.sPort⟩

/-- The reverse of every installed rule is installed. -/
def SwapClosed (proto : BoundedMap HgAllowKey UInt8 64) : Prop :=
  ∀ r, (proto.lookup r).isSome = true → (proto.lookup r.swap).isSome = true

theorem SwapClosed.protoAllowed_of_swap {proto : BoundedMap HgAllowKey UInt8 64}
    (h : SwapClosed proto) {k : HgAllowKey} (hk : protoAllowed proto k.swap = true) :
    protoAllowed proto k = true := by
  simp only [protoAllowed, Bool.or_eq_true] at hk ⊢
  -- the probes for an open source and an open destination port change places
  rcases hk with (((hk | hk) | hk) | hk) | hk
  · exact .inl (.inl (.inl (.inl (h _ hk))))
  · exact .inl (.inl (.inl (.inr (h _ hk))))
  · exact .inl (.inr (h _ hk))
  · exact .inl (.inl (.inr (h _ hk)))
  · exact .inr (h _ hk)

/-- With such rules a packet and its reverse are allowed together. -/
theorem SwapClosed.protoAllowed_swap {proto : BoundedMap HgAllowKey UInt8 64}
    (h : SwapClosed proto) (k : HgAllowKey) : protoAllowed proto k.swap = protoAllowed proto k :=
  Bool.eq_iff_iff.mpr ⟨h.protoAllowed_of_swap, fun hk => h.protoAllowed_of_swap (k := k.swap) hk⟩

/-! ## The rules of the daemon -/

/-- The keys that a name of `preauth_l3` stands for. -/
def l3Keys (name : List Char) : List HgAllowKey :=
  if translateL3 name = [] then [] else [(parseL3 (translateL3 name)).key]

/-- The keys that a name of `preauth_l4` stands for. -/
def l4Keys (name : List Char) : List HgAllowKey :=
  (translateL4 name).map fun rule => (parseL4 rule .init).key

/-- Every key that a name can stand for. -/
def preauthKeys : List HgAllowKey :=
  l3Names.map (fun e => (parseL3 e.2).key) ++
    l4Names.flatMap fun e => e.2.map fun rule => (parseL4 rule .init).key

theorem mem_of_lookup {K V : Type} [BEq K] [LawfulBEq K] {l : List (K × V)} {k : K} {v : V}
    (h : l.lookup k = some v) : (k, v) ∈ l := by
  obtain ⟨l₁, l₂, rfl, -⟩ := List.lookup_eq_some_iff.mp h
  simp

/-- What holds for the keys of the known names holds for those of every name. -/
theorem l3Keys_cases (name : List Char) :
    l3Keys name = [] ∨ ∃ e ∈ l3Names, l3Keys name = [(parseL3 e.2).key] := by
  unfold l3Keys translateL3
  cases h : l3Names.lookup name with
  | none => exact .inl rfl
  | some val =>
    by_cases hval : val = []
    · exact .inl (if_pos hval)
    · exact .inr ⟨(name, val), mem_of_lookup h, if_neg hval⟩

theorem l4Keys_cases (name : List Char) :
    l4Keys name = [] ∨
      ∃ e ∈ l4Names, l4Keys name = e.2.map fun rule => (parseL4 rule .init).key := by
  unfold l4Keys translateL4
  cases h : l4Names.lookup name with
  | none => exact .inl rfl
  | some rules => exact .inr ⟨(name, rules), mem_of_lookup h, rfl⟩

theorem l3Keys_swap (name : List Char) {k : HgAllowKey} (hk : k ∈ l3Keys name) :
    k.swap ∈ l3Keys name := by
  rcases l3Keys_cases name with h | ⟨e, -, h⟩
  · rw [h] at hk
    cases hk
  · rw [h] at hk ⊢
    -- an L3 rule leaves both ports open
    rw [List.mem_singleton] at hk ⊢
    rw [hk]
    rfl

theorem l4Keys_swap (name : List Char) {k : HgAllowKey} (hk : k ∈ l4Keys name) :
    k.swap ∈ l4Keys name := by
  have htable : ∀ e ∈ l4Names, ∀ k ∈ e.2.map fun rule => (parseL4 rule .init).key,
      k.swap ∈ e.2.map fun rule => (parseL4 rule .init).key := by decide +kernel
  rcases l4Keys_cases name with h | ⟨e, he, h⟩
  · rw [h] at hk
    cases hk
  · rw [h] at hk ⊢
    exact htable e he k hk

theorem l3Keys_subset (name : List Char) : l3Keys name ⊆ preauthKeys := by
  rcases l3Keys_cases name with h | ⟨e, he, h⟩
  · rw [h]
    exact List.nil_subset _
  · rw [h, List.cons_subset]
    exact ⟨List.mem_append_left _ (List.mem_map_of_mem he), List.nil_subset _⟩

theorem l4Keys_subset (name : List Char) : l4Keys name ⊆ preauthKeys := by
  rcases l4Keys_cases name with h | ⟨e, he, h⟩
  · rw [h]
    exact List.nil_subset _
  · rw [h]
    exact fun k hk => List.mem_append_right _ (List.mem_flatMap.mpr ⟨e, he, hk⟩)

/-- What the configured names stand for. -/
def HgConfig.preauthKeys (cfg : HgConfig) : List HgAllowKey :=
  cfg.preauthL3.flatMap l3Keys ++ cfg.preauthL4.flatMap l4Keys

theorem HgConfig.preauthKeys_subset (cfg : HgConfig) :
    cfg.preauthKeys ⊆ HawkGate.preauthKeys := by
  apply List.append_subset.mpr
  constructor
  · intro k hk
    obtain ⟨name, -, hname⟩ := List.mem_flatMap.mp hk
    exact l3Keys_subset name hname
  · intro k hk
    obtain ⟨name, -, hname⟩ := List.mem_flatMap.mp hk
    exact l4Keys_subset name hname

theorem HgConfig.swap_mem_preauthKeys {cfg : HgConfig} {k : HgAllowKey}
    (hk : k ∈ cfg.preauthKeys) : k.swap ∈ cfg.preauthKeys := by
  rcases List.mem_append.mp hk with h | h
  · obtain ⟨name, hmem, hname⟩ := List.mem_flatMap.mp h
    exact List.mem_append_left _ (List.mem_flatMap.mpr ⟨name, hmem, l3Keys_swap name hname⟩)
  · obtain ⟨name, hmem, hname⟩ := List.mem_flatMap.mp h
    exact List.mem_append_right _ (List.mem_flatMap.mpr ⟨name, hmem, l4Keys_swap name hname⟩)

theorem HgConfig.length_preauthKeys : HawkGate.preauthKeys.length ≤ 64 := by decide

/-! ## Installing them -/

/-- Every `hgctl proto` of the daemon runs, and finds the allow-list open to it. -/
structure DaemonEnv.Installs (env : DaemonEnv) : Prop where
  fork : ∀ opts, env.fork (.proto opts) = true
  allow : ∀ opts, (env.sys (.proto opts)).CanAllow

/-- The maps after these rules were written in order. -/
def HgMaps.putProto (s : HgMaps ncpu) (ks : List HgAllowKey) : HgMaps ncpu :=
  { s with proto := ks.foldl (fun m k => m.put k 1) s.proto }

theorem HgMaps.putProto_append (s : HgMaps ncpu) (ks ks' : List HgAllowKey) :
    s.putProto (ks ++ ks') = (s.putProto ks).putProto ks' := by
  simp only [HgMaps.putProto, List.foldl_append]

/-- The option that carries a rule to `hgctl proto`. -/
def Carries (opt : ProtoOpt) (r : ProtoRule) : Prop :=
  (r.level = some .l3 ∨ r.level = some .l4) ∧
    ∀ iface action, (ProtoVars.mk .init iface action).set opt = some ⟨r, iface, action⟩

theorem carries_l3 (name : CString) : Carries (.l3 name) (parseL3 name) :=
  ⟨.inl rfl, fun _ _ => rfl⟩

theorem carries_l4 {rule : CString} (h : (parseL4 rule .init).level = some .l4) :
    Carries (.l4 rule) (parseL4 rule .init) :=
  ⟨.inr h, fun _ _ => rfl⟩

section
variable {env : DaemonEnv} {cfg : HgConfig}

/-- One command writes the key of its rule. -/
theorem run_addProto (henv : env.Installs) (hiface : cStr cfg.ifaceName ≠ []) {opt : ProtoOpt}
    {r : ProtoRule} (hopt : Carries opt r) (s : HgMaps ncpu) :
    ((addProto cfg opt).run env s).2 = s.putProto [r.key] := by
  obtain ⟨hlevel, hset⟩ := hopt
  have hread : r.level ≠ none := by
    rcases hlevel with h | h
    · simp [h]
    · simp [h]
  simp only [addProto, execCmd, Daemon.run_bind, Daemon.run_perform, Daemon.run_pure,
    DaemonOp.exec, henv.fork, if_true, Hgctl.tool, hgctlProto,
    parseProto_add hiface (hset _ _) hread]
  exact run_protocolAllowAddAction (henv.allow _) hlevel

/-- Without an interface `hgctl proto` refuses every rule. -/
theorem run_addProto_no_iface (hiface : cStr cfg.ifaceName = []) {opt : ProtoOpt} {r : ProtoRule}
    (hopt : Carries opt r) (s : HgMaps ncpu) : ((addProto cfg opt).run env s).2 = s := by
  have hparse : parseProto [.action "add".toList, .iface (cStr cfg.ifaceName), opt] = none := by
    have hvars : [ProtoOpt.action "add".toList, .iface [], opt].foldlM ProtoVars.set .init =
        some ⟨r, [], "add".toList⟩ := by
      simpa [List.foldlM_cons, ProtoVars.set, ProtoVars.init, strncpyInto] using hopt.2 [] _
    rw [hiface, parseProto, hvars]
    rfl
  simp only [addProto, execCmd, Daemon.run_bind, Daemon.run_perform, Daemon.run_pure,
    DaemonOp.exec, Hgctl.tool, hgctlProto, hparse]
  split
  · rfl
  · rfl

/-- What each step of a loop writes is what the loop writes. -/
theorem run_forM_putProto {α : Type} {f : α → Daemon Unit} {keys : α → List HgAllowKey}
    (xs : List α)
    (h : ∀ x ∈ xs, ∀ s : HgMaps ncpu, ((f x).run env s).2 = s.putProto (keys x))
    (s : HgMaps ncpu) : ((xs.forM f).run env s).2 = s.putProto (xs.flatMap keys) := by
  induction xs generalizing s with
  | nil => rfl
  | cons x xs ih =>
    have hstep : (((x :: xs).forM f).run env s).2 = ((xs.forM f).run env ((f x).run env s).2).2 :=
      congrArg Prod.snd (Daemon.run_bind (f x) (fun _ => xs.forM f) env s)
    rw [hstep, ih fun y hy => h y (List.mem_cons_of_mem x hy), h x List.mem_cons_self,
      List.flatMap_cons, HgMaps.putProto_append]

/-- The rules of `translate_l4` are complete. -/
theorem level_of_mem_translateL4 {name rule : List Char} (h : rule ∈ translateL4 name) :
    (parseL4 rule .init).level = some .l4 := by
  have htable : ∀ e ∈ l4Names, ∀ rule ∈ e.2, (parseL4 rule .init).level = some .l4 := by
    decide +kernel
  unfold translateL4 at h
  cases hname : l4Names.lookup name with
  | none =>
    rw [hname] at h
    cases h
  | some rules =>
    rw [hname] at h
    exact htable _ (mem_of_lookup hname) rule h

/-- If each command writes `w` of its key, the two functions write `w` of every key of the
    configured names. -/
theorem run_applyPreauth_of {w : HgAllowKey → List HgAllowKey}
    (hstep : ∀ opt r, Carries opt r → ∀ s : HgMaps ncpu,
      ((addProto cfg opt).run env s).2 = s.putProto (w r.key))
    (s : HgMaps ncpu) :
    ((applyPreauthL3 cfg >>= fun _ => applyPreauthL4 cfg).run env s).2 =
      s.putProto (cfg.preauthKeys.flatMap w) := by
  have h3 : ∀ s : HgMaps ncpu, ((applyPreauthL3 cfg).run env s).2 =
      s.putProto (cfg.preauthL3.flatMap fun name => (l3Keys name).flatMap w) := by
    refine run_forM_putProto cfg.preauthL3 fun name _ s => ?_
    dsimp only [l3Keys]
    split
    · rfl
    · rw [List.flatMap_singleton]
      exact hstep _ _ (carries_l3 _) s
  have h4 : ∀ s : HgMaps ncpu, ((applyPreauthL4 cfg).run env s).2 =
      s.putProto (cfg.preauthL4.flatMap fun name => (l4Keys name).flatMap w) := by
    refine run_forM_putProto cfg.preauthL4 fun name _ s => ?_
    rw [l4Keys, List.flatMap_map]
    exact run_forM_putProto (translateL4 name)
      (fun rule hrule s => hstep _ _ (carries_l4 (level_of_mem_translateL4 hrule)) s) s
  rw [Daemon.run_bind, h3, h4, ← HgMaps.putProto_append, HgConfig.preauthKeys, List.flatMap_append,
    List.flatMap_assoc, List.flatMap_assoc]

/-- `apply_preauth_l3` and `apply_preauth_l4` write the keys of the configured names, or
    nothing if the interface is not named. -/
theorem run_applyPreauth (henv : env.Installs) (s : HgMaps ncpu) :
    ((applyPreauthL3 cfg >>= fun _ => applyPreauthL4 cfg).run env s).2 =
      s.putProto (if cStr cfg.ifaceName = [] then [] else cfg.preauthKeys) := by
  split
  · next hiface =>
    rw [run_applyPreauth_of (w := fun _ => [])
      fun opt r hopt s => run_addProto_no_iface hiface hopt s]
    exact congrArg s.putProto (List.flatMap_eq_nil_iff.mpr fun _ _ => rfl)
  · next hiface =>
    rw [run_applyPreauth_of (w := fun k => [k])
      fun opt r hopt s => run_addProto henv hiface hopt s]
    simp

/-- On a fresh map the installed rules are closed under reversal. -/
theorem swapClosed_applyPreauth (henv : env.Installs) {s : HgMaps ncpu} (hs : s.proto = .empty) :
    SwapClosed ((applyPreauthL3 cfg >>= fun _ => applyPreauthL4 cfg).run env s).2.proto := by
  have hinstalled : ∀ ks ⊆ HawkGate.preauthKeys, ∀ k,
      ((s.putProto ks).proto.lookup k).isSome = true ↔ k ∈ ks := by
    intro ks hks k
    have hempty : ∀ j, s.proto.lookup j = none := by
      rw [hs]
      exact fun _ => rfl
    have hput := BoundedMap.lookup_foldl_put HgConfig.length_preauthKeys (v := (1 : UInt8)) ks
      (m := s.proto) (fun j hj => by simp [hempty] at hj) hks k
    simpa [HgMaps.putProto, hempty] using hput
  rw [run_applyPreauth henv]
  intro r hr
  split at hr
  · exact absurd ((hinstalled [] (List.nil_subset _) r).mp hr) List.not_mem_nil
  · next hiface =>
    rw [if_neg hiface]
    have hsub := cfg.preauthKeys_subset
    exact (hinstalled _ hsub _).mpr
      (HgConfig.swap_mem_preauthKeys ((hinstalled _ hsub _).mp hr))

end

/-! ## Both directions of a flow -/

/-- Ingress passes the packet by the allow-list (step 6) or the walled garden (step 6a). -/
def PassesPreauth (env : BpfEnv ncpu) (s : HgMaps ncpu) (skb : SkBuff) : Prop :=
  (hgTcIngress env s skb).verdict = .ok ∧
    (s.ingressStage skb.data = .allowList ∨ s.ingressStage skb.data = .walledGarden)

/-- A packet from the client to the host, and a packet with addresses and ports swapped. -/
structure Flow (c h : IpAddr) (d d' : Bytes) : Prop where
  key : ∃ key, filterProto d = .l3Ok key ∧ filterProto d' = .l3Ok key.swap
  src : saddr d = c
  dst : daddr d = h
  replySrc : saddr d' = h
  replyDst : daddr d' = c

/-- The client that sends the packet is neither bypassed nor logged in. -/
structure Unauthenticated (s : HgMaps ncpu) (c : IpAddr) (d : Bytes) : Prop where
  notBypassed : s.bypass.lookup c = none
  sender : s.clients.lookup (hSource d) = none
  bound : ∀ m, s.ipMac.lookup c = some m → s.clients.lookup m = none

theorem passesPreauth_iff {env : BpfEnv ncpu} {s : HgMaps ncpu} {skb : SkBuff} {key : HgAllowKey}
    (hkey : filterProto skb.data = .l3Ok key) (hsrc : s.bypass.lookup (saddr skb.data) = none)
    (hdst : s.toPortal skb.data = none) (hauth : s.clients.lookup (hSource skb.data) = none) :
    PassesPreauth env s skb ↔
      protoAllowed s.proto key = true ∨ s.wgCovers (daddr skb.data) = true := by
  rw [PassesPreauth, hgTcIngress_eq_stage, HgMaps.ingressStage_preauth hkey hsrc hdst hauth,
    HgMaps.ingressPreauthStage]
  by_cases hallow : protoAllowed s.proto key = true
  · simp [hallow, IngressStage.result, TcResult.done]
  · by_cases hwg : s.wgCovers (daddr skb.data) = true
    · simp [hallow, hwg, IngressStage.result, TcResult.done]
    · have hstage : s.ingressPreauthStage skb.data key ≠ .allowList ∧
          s.ingressPreauthStage skb.data key ≠ .walledGarden := by
        rw [HgMaps.ingressPreauthStage, if_neg hallow, if_neg hwg]
        split
        · simp
        · split
          · simp
          · simp
      rw [HgMaps.ingressPreauthStage, if_neg hallow, if_neg hwg] at hstage
      simp [hallow, hwg, hstage]

/-- Egress decides a packet to such a client by the allow-list and the walled garden. -/
theorem hgTcEgress_ok_iff {env : BpfEnv ncpu} {s : HgMaps ncpu} {skb : SkBuff} {key : HgAllowKey}
    (hkey : filterProto skb.data = .l3Ok key) (hsrc : s.fromPortal skb.data = false)
    (hdst : s.bypass.lookup (daddr skb.data) = none) (hof : s.sessionOf (daddr skb.data) = none) :
    (hgTcEgress env s skb).verdict = .ok ↔
      protoAllowed s.proto key = true ∨ s.wgCovers (saddr skb.data) = true := by
  rw [hgTcEgress, hkey]
  simp only [hsrc, egressPolicy, hdst, hof, egressPreauth, Option.isSome_none, Bool.false_eq_true,
    if_false]
  by_cases hallow : protoAllowed s.proto key = true
  · simp [hallow, TcResult.done]
  · by_cases hwg : s.wgCovers (saddr skb.data) = true
    · simp [hallow, hwg, TcResult.done]
    · simp [hallow, hwg, TcResult.done]

theorem Unauthenticated.sessionOf {s : HgMaps ncpu} {c : IpAddr} {d : Bytes}
    (h : Unauthenticated s c d) : s.sessionOf c = none := by
  rw [HgMaps.sessionOf]
  cases hbound : s.ipMac.lookup c with
  | none => rfl
  | some m => simp [h.bound m hbound]

/-- With the rules of the daemon, a client that is not logged in reaches a host other than the
    portal before login exactly if the host's answers reach the client. -/
theorem preauth_symmetric {denv : DaemonEnv} {cfg : HgConfig} {fresh s : HgMaps ncpu}
    {c h : IpAddr} {skb skb' : SkBuff} (henv : denv.Installs) (hfresh : fresh.proto = .empty)
    (hproto : s.proto =
      ((applyPreauthL3 cfg >>= fun _ => applyPreauthL4 cfg).run denv fresh).2.proto)
    (hflow : Flow c h skb.data skb'.data) (hclient : Unauthenticated s c skb.data)
    (hhost : ∀ portal, s.portalCfg = some portal → h ≠ portal.portalIp) (env env' : BpfEnv ncpu) :
    PassesPreauth env s skb ↔ (hgTcEgress env' s skb').verdict = .ok := by
  obtain ⟨key, hkey, hkey'⟩ := hflow.key
  have hclosed : SwapClosed s.proto := hproto ▸ swapClosed_applyPreauth henv hfresh
  have hdst : s.toPortal skb.data = none := by
    apply HgMaps.toPortal_eq_none
    rw [hflow.dst]
    exact hhost
  have hsrc' : s.fromPortal skb'.data = false := by
    rw [HgMaps.fromPortal, hflow.replySrc]
    cases hcfg : s.portalCfg with
    | none => rfl
    | some portal => simpa using hhost portal hcfg
  rw [passesPreauth_iff hkey (hflow.src ▸ hclient.notBypassed) hdst hclient.sender,
    hgTcEgress_ok_iff hkey' hsrc' (hflow.replyDst ▸ hclient.notBypassed)
      (hflow.replyDst ▸ hclient.sessionOf), hclosed.protoAllowed_swap, hflow.dst, hflow.replySrc]

/-- HTTPS to a host works in both directions before login if it is configured. -/
theorem preauth_symmetric_https :
    let cfg : HgConfig :=
      { HgConfig.init with ifaceName := "br0".toList, preauthL4 := ["https".toList] }
    let s : HgMaps 1 :=
      ((applyPreauthL3 cfg >>= fun _ => applyPreauthL4 cfg).run (.good ⟨0, 0⟩ fun _ => none)
        (.start 1 .standard 0)).2
    let c := addrOfOctets 192 168 99 82
    let h := addrOfOctets 9 9 9 9
    PassesPreauth (.good 0 0) s ⟨tcpFrame (localMac 1) c h 40000 443, 54⟩ ↔
      (hgTcEgress (.good 0 0) s ⟨tcpFrame (localMac 9) h c 443 40000, 54⟩).verdict = .ok := by
  intro cfg s c h
  have henv : (DaemonEnv.good ⟨0, 0⟩ fun _ => none).Installs :=
    ⟨fun _ => rfl, fun _ => ⟨rfl, rfl⟩⟩
  have hs : s = (HgMaps.start 1 .standard 0).putProto _ := run_applyPreauth henv _
  have hclients : s.clients = .empty := by rw [hs]; rfl
  have hbypass : s.bypass = .empty := by rw [hs]; rfl
  have hipMac : s.ipMac = .empty := by rw [hs]; rfl
  have hcfg : s.portalCfg = some .standard := by rw [hs]; rfl
  refine preauth_symmetric (c := c) (h := h) henv rfl rfl
    ⟨⟨⟨ipprotoTcp, 40000, 443⟩, by decide, by decide⟩, by decide, by decide, by decide, by decide⟩
    ⟨by rw [hbypass]; rfl, by rw [hclients]; rfl, fun m hm => ?_⟩ (fun portal hp => ?_) _ _
  · rw [hipMac] at hm
    cases hm
  · obtain rfl := Option.some.inj (hcfg.symm.trans hp)
    decide

end HawkGate
