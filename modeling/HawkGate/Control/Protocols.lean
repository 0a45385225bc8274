-- SUMMARY: `hgctl proto`: the pre-auth protocol rules, from the options to the allow-list maps.
import HawkGate.Control.Cli

/-!
# Protocol rules

`parse_proto` of `hg_cli.c` and the two actions behind it. A rule is read from
text: an EtherType, an IP protocol, or an IP protocol with two ports, where the
word `any` stands for the port 0.
-/

namespace HawkGate

open CString

variable {ncpu : Nat}

inductive ProtoLevel where
  | l2 | l3 | l4
  deriving DecidableEq

/-- `struct proto_rule`; the level of a rule that was not read yet is `none`. -/
structure ProtoRule where
  level : Option ProtoLevel
  proto : UInt16
  sport : UInt16
  dport : UInt16

def ProtoRule.init : ProtoRule := ⟨none, 0, 0, 0⟩

/-- A rule without ports. -/
def ProtoRule.ofNumber (level : ProtoLevel) (arg : CString) : ProtoRule :=
  ⟨some level, UInt16.ofNat (strtoul0 arg), 0, 0⟩

def parseL2 (arg : CString) : ProtoRule := .ofNumber .l2 arg

def parseL3 (arg : CString) : ProtoRule := .ofNumber .l3 arg

/-- A port of a rule. -/
def parsePort (s : CString) : UInt16 := if s = "any".toList then 0 else atoiU16 s

/-- `proto:sport:dport`, split by `strtok`; a text with fewer parts leaves the rule alone. -/
def parseL4 (arg : CString) (r : ProtoRule) : ProtoRule :=
  match (arg.splitOn ':').filter (· ≠ []) with
  | p :: s :: d :: _ => ⟨some .l4, UInt16.ofNat (strtoul0 p), parsePort s, parsePort d⟩
  | _ => r

inductive ProtoOpt where
  | action (arg : CString)
  | iface (arg : CString)
  | l2 (arg : CString)
  | l3 (arg : CString)
  | l4 (arg : CString)
  | unknown

/-- The local variables of `parse_proto`. -/
structure ProtoVars where
  rule : ProtoRule
  iface : CString
  action : CString

def ProtoVars.init : ProtoVars := ⟨.init, [], []⟩

def ProtoVars.set (v : ProtoVars) : ProtoOpt → Option ProtoVars
  | .action arg => some { v with action := strncpyInto 4 arg }
  | .iface arg => some { v with iface := strncpyInto 16 arg }
  | .l2 arg => some { v with rule := parseL2 arg }
  | .l3 arg => some { v with rule := parseL3 arg }
  | .l4 arg => some { v with rule := parseL4 arg v.rule }
  | .unknown => none

def parseProto (opts : List ProtoOpt) : Option ProtoVars := do
  let v ← opts.foldlM ProtoVars.set .init
  if v.iface = [] ∨ v.action = [] ∨ v.rule.level = none then none else some v

/-- The key of an L3 or L4 rule. -/
def ProtoRule.key (r : ProtoRule) : HgAllowKey := ⟨r.proto.toUInt8, r.sport, r.dport⟩

/-- Open a map, change it, close it. -/
def withMap (map : MapName) (change : Sys ncpu Bool) : Tool ncpu Status := do
  if ← sys (.objGet map) then
    let ok ← sys change
    sys (.close map)
    pure (removed ok)
  else pure .failed

def protocolAllowAddAction (r : ProtoRule) : Tool ncpu Status :=
  match r.level with
  | some .l2 => withMap .hgL2Allow (.updateL2Allow r.proto 1)
  | some .l3 | some .l4 => withMap .hgProto (.updateProto r.key 1)
  | none => pure .failed

def protocolAllowDelAction (r : ProtoRule) : Tool ncpu Status :=
  match r.level with
  | some .l2 => withMap .hgL2Allow (.deleteL2Allow r.proto)
  | some .l3 | some .l4 => withMap .hgProto (.deleteProto r.key)
  | none => pure .failed

def hgctlProto (opts : List ProtoOpt) : Tool ncpu Status :=
  match parseProto opts with
  | none => pure .failed
  | some v =>
    if v.action = "add".toList then protocolAllowAddAction v.rule
    else if v.action = "del".toList then protocolAllowDelAction v.rule
    else pure .failed

/-! ## Adding a rule -/

/-- The rule an `hgctl proto -a add` with one rule option adds. -/
theorem parseProto_add {iface : CString} (hiface : iface ≠ []) {opt : ProtoOpt} {r : ProtoRule}
    (hopt : (ProtoVars.mk .init (strncpyInto 16 iface) "add".toList).set opt =
      some ⟨r, strncpyInto 16 iface, "add".toList⟩) (hlevel : r.level ≠ none) :
    parseProto [.action "add".toList, .iface iface, opt] =
      some ⟨r, strncpyInto 16 iface, "add".toList⟩ := by
  have hbuf : strncpyInto 16 iface ≠ [] := by
    obtain ⟨c, rest, rfl⟩ := List.exists_cons_of_ne_nil hiface
    simp [strncpyInto]
  have hvars : [ProtoOpt.action "add".toList, .iface iface, opt].foldlM ProtoVars.set .init =
      (ProtoVars.mk .init (strncpyInto 16 iface) "add".toList).set opt := by
    simp [List.foldlM_cons, ProtoVars.set, ProtoVars.init, strncpyInto]
  rw [parseProto, hvars, hopt]
  simp [hbuf, hlevel]

section
variable {env : SysEnv} {s : HgMaps ncpu}

/-- A change of a map that can be opened is made, and its answer is the status. -/
theorem run_withMap (map : MapName) (change : Sys ncpu Bool) :
    (withMap map change).run env s =
      if env.objGet map then
        (removed (Sys.exec env s change).1, (Sys.exec env s change).2)
      else (.failed, s) := by
  simp only [withMap, Tool.run_bind, Tool.run_sys]
  cases h : env.objGet map with
  | true => simp [Sys.exec, h]
  | false => simp [Sys.exec, h]

/-- An update through an opened map stores the value exactly if it is accepted; `frame` puts
    the map back into the state. -/
theorem run_withMap_update {map : MapName} {change : Sys ncpu Bool} {K V : Type} [DecidableEq K]
    {cap : Nat} (m : BoundedMap K V cap) (k : K) (v : V) (frame : BoundedMap K V cap → HgMaps ncpu)
    (hframe : frame m = s)
    (hexec : Sys.exec env s change =
      ((commit m (if env.update map then m.update k v else none)).1,
        frame (commit m (if env.update map then m.update k v else none)).2)) :
    (withMap map change).run env s =
      if env.objGet map = true ∧ env.Accepts map m k then (.success, frame (m.put k v))
      else (.failed, s) := by
  rw [run_withMap, hexec, commit_update]
  by_cases hopen : env.objGet map = true
  · by_cases hok : env.Accepts map m k
    · simp [hopen, hok, removed]
    · simp [hopen, hok, removed, hframe]
  · simp [hopen]

/-- The allow-list can be opened, and an update of it fails for lack of room only. -/
structure SysEnv.CanAllow (env : SysEnv) : Prop where
  opens : env.objGet .hgProto = true
  update : env.update .hgProto = true

/-- Adding an L3 or L4 rule writes its key. -/
theorem run_protocolAllowAddAction (henv : env.CanAllow) {r : ProtoRule}
    (hlevel : r.level = some .l3 ∨ r.level = some .l4) :
    ((protocolAllowAddAction r).run env s).2 = { s with proto := s.proto.put r.key 1 } := by
  have hrun : ((withMap .hgProto (.updateProto r.key 1) : Tool ncpu Status).run env s).2 =
      { s with proto := s.proto.put r.key 1 } := by
    rw [run_withMap_update s.proto r.key 1 (fun m => { s with proto := m }) rfl rfl]
    by_cases hroom : s.proto.HasRoom r.key
    · rw [if_pos ⟨henv.opens, henv.update, hroom⟩]
    · have hput : s.proto.put r.key 1 = s.proto := by
        rw [BoundedMap.put, (BoundedMap.update_eq_none_iff s.proto r.key 1).mpr hroom]
        rfl
      rw [if_neg fun h => hroom h.2.2, hput]
  rcases hlevel with h | h
  · rw [protocolAllowAddAction, h]
    exact hrun
  · rw [protocolAllowAddAction, h]
    exact hrun

end

end HawkGate
