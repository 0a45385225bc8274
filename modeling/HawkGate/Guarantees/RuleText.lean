-- SUMMARY: Which `hgctl proto` command lines install the rule they spell: those whose fields are numbers in range.
import HawkGate.Control.Protocols
import Mathlib.Data.List.Induction

/-!
# Rule texts

The fields of a rule go through `strtoul` and `atoi`, which make 0 of a text
without digits and stop at the first character they cannot use, and are then
narrowed to 16 and 8 bits. What comes out is installed, and 0 is the wildcard.
-/

namespace HawkGate

open CString

variable {ncpu : Nat}

/-! ## Rules -/

/-- An entry of one of the two allow-lists. -/
inductive AllowRule where
  | l2 (ethProto : UInt16)
  | flow (key : HgAllowKey)

/-- The maps with the rule installed. -/
def HgMaps.allow (s : HgMaps ncpu) : AllowRule → HgMaps ncpu
  | .l2 p => { s with l2Allow := s.l2Allow.put p 1 }
  | .flow key => { s with proto := s.proto.put key 1 }

/-- A field that is a whole number from `lo` to `hi`. -/
def FieldText (numeral : CString → Nat → Prop) (lo hi : Nat) (s : CString) (n : Nat) : Prop :=
  IntegerText numeral s n ∧ lo ≤ n ∧ n ≤ hi

/-- A port field: the word `any`, or a port number. -/
def PortText (s : CString) (port : UInt16) : Prop :=
  (s = "any".toList ∧ port = 0) ∨ ∃ n, FieldText DecimalText 1 65535 s n ∧ port = UInt16.ofNat n

/-- The rule that the text of an option spells. -/
inductive Denotes : ProtoLevel × CString → AllowRule → Prop where
  | l2 {text : CString} {n : Nat} (proto : FieldText CNumeral 0 65535 text n) :
    Denotes (.l2, text) (.l2 (UInt16.ofNat n))
  | l3 {text : CString} {n : Nat} (proto : FieldText CNumeral 0 255 text n) :
    Denotes (.l3, text) (.flow ⟨UInt8.ofNat n, 0, 0⟩)
  | l4 {text p s d : CString} {n : Nat} {sport dport : UInt16} (parts : text.splitOn ':' = [p, s, d])
    (proto : FieldText CNumeral 0 255 p n) (source : PortText s sport) (dest : PortText d dport) :
    Denotes (.l4, text) (.flow ⟨UInt8.ofNat n, sport, dport⟩)

/-! ## Command lines -/

def ProtoOpt.ruleText : ProtoOpt → Option (ProtoLevel × CString)
  | .l2 arg => some (.l2, arg)
  | .l3 arg => some (.l3, arg)
  | .l4 arg => some (.l4, arg)
  | _ => none

def ProtoOpt.ifaceArg : ProtoOpt → Option CString
  | .iface arg => some arg
  | _ => none

def ProtoOpt.actionArg : ProtoOpt → Option CString
  | .action arg => some arg
  | _ => none

/-- The last argument of a kind. -/
def lastArg {α : Type} (f : ProtoOpt → Option α) (opts : List ProtoOpt) : Option α :=
  (opts.filterMap f).getLast?

/-- The action is `add`, of which the buffer keeps three characters. -/
def IsAdd (opts : List ProtoOpt) : Prop :=
  ∃ arg, lastArg ProtoOpt.actionArg opts = some arg ∧ arg.take 3 = "add".toList

/-- A rule text that `parse_l4` does not refuse for lack of parts. -/
def SetsRule : ProtoLevel × CString → Prop
  | (.l4, text) => 3 ≤ ((text.splitOn ':').filter (· ≠ [])).length
  | _ => True

instance : (rt : ProtoLevel × CString) → Decidable (SetsRule rt)
  | (.l2, _) => inferInstanceAs (Decidable True)
  | (.l3, _) => inferInstanceAs (Decidable True)
  | (.l4, _) => inferInstanceAs (Decidable (_ ≤ _))

/-- The command line is one that is carried out: no unknown option, an interface, and a rule. -/
structure Complete (opts : List ProtoOpt) : Prop where
  known : ProtoOpt.unknown ∉ opts
  iface : ∃ arg, lastArg ProtoOpt.ifaceArg opts = some arg ∧ arg ≠ []
  rule : ∃ rt ∈ opts.filterMap ProtoOpt.ruleText, SetsRule rt

/-- The last rule option of the command line spells the rule. -/
def Written (opts : List ProtoOpt) (rule : AllowRule) : Prop :=
  ∃ rt, lastArg ProtoOpt.ruleText opts = some rt ∧ Denotes rt rule

/-- An add is refused, or installs the rule that is written. -/
def InstallsWritten (ncpu : Nat) (opts : List ProtoOpt) : Prop :=
  ∀ (env : SysEnv) (s : HgMaps ncpu), (hgctlProto opts).run env s = (.failed, s) ∨
    ∃ rule, Written opts rule ∧ (hgctlProto opts).run env s = (.success, s.allow rule)

/-! ## The last options win -/

theorem lastArg_concat {α : Type} (f : ProtoOpt → Option α) (opts : List ProtoOpt) (o : ProtoOpt) :
    lastArg f (opts ++ [o]) = (f o).or (lastArg f opts) := by
  rw [lastArg, List.filterMap_append]
  cases h : f o with
  | none => simp [h, lastArg]
  | some a => simp [h]

/-- What one option does to the rule read so far. -/
def ProtoOpt.setRule (r : ProtoRule) : ProtoOpt → ProtoRule
  | .l2 arg => parseL2 arg
  | .l3 arg => parseL3 arg
  | .l4 arg => parseL4 arg r
  | _ => r

def ruleOf (opts : List ProtoOpt) : ProtoRule := opts.foldl ProtoOpt.setRule .init

theorem ruleOf_concat (opts : List ProtoOpt) (o : ProtoOpt) :
    ruleOf (opts ++ [o]) = o.setRule (ruleOf opts) := by
  rw [ruleOf, List.foldl_concat]
  rfl

/-- The variables behind the option loop. -/
def lastVars (opts : List ProtoOpt) : ProtoVars where
  rule := ruleOf opts
  iface := strncpyInto 16 ((lastArg ProtoOpt.ifaceArg opts).getD [])
  action := strncpyInto 4 ((lastArg ProtoOpt.actionArg opts).getD [])

/-- One turn of the option loop. -/
theorem lastVars_concat {o : ProtoOpt} (ho : o ≠ .unknown) (opts : List ProtoOpt) :
    (lastVars opts).set o = some (lastVars (opts ++ [o])) := by
  cases o with
  | unknown => exact absurd rfl ho
  | _ => simp [ProtoVars.set, lastVars, ruleOf_concat, lastArg_concat, ProtoOpt.setRule,
      ProtoOpt.ifaceArg, ProtoOpt.actionArg]

theorem foldlM_set_of_known {opts : List ProtoOpt} (h : ProtoOpt.unknown ∉ opts) :
    opts.foldlM ProtoVars.set .init = some (lastVars opts) := by
  induction opts using List.reverseRecOn with
  | nil => rfl
  | append_singleton opts o ih =>
    rw [List.mem_append, not_or] at h
    have ho : o ≠ .unknown := fun heq => h.2 (List.mem_singleton.mpr heq.symm)
    rw [List.foldlM_append, ih h.1]
    simp [lastVars_concat ho]

theorem foldlM_set_of_unknown {opts : List ProtoOpt} (h : ProtoOpt.unknown ∈ opts)
    (v : ProtoVars) : opts.foldlM ProtoVars.set v = none := by
  induction opts generalizing v with
  | nil => cases h
  | cons o opts ih =>
    rw [List.foldlM_cons]
    rcases List.mem_cons.mp h with rfl | h
    · rfl
    · cases hv : v.set o with
      | none => rfl
      | some v' => exact ih h v'

/-- A text with three parts replaces the rule read so far. -/
theorem parseL4_of_setsRule {text : CString} (h : SetsRule (.l4, text)) (r r' : ProtoRule) :
    parseL4 text r = parseL4 text r' ∧ (parseL4 text r).level = some .l4 := by
  rw [SetsRule] at h
  unfold parseL4
  generalize (text.splitOn ':').filter (· ≠ []) = parts at h ⊢
  match parts, h with
  | _ :: _ :: _ :: _, _ => exact ⟨rfl, rfl⟩

/-- A text with fewer parts leaves it alone. -/
theorem parseL4_of_not_setsRule {text : CString} (h : ¬ SetsRule (.l4, text)) (r : ProtoRule) :
    parseL4 text r = r := by
  rw [SetsRule] at h
  unfold parseL4
  split
  · next heq =>
    rw [heq] at h
    exact absurd (by simp) h
  · rfl

/-- A rule was read exactly if some text sets one. -/
theorem level_ruleOf (opts : List ProtoOpt) :
    (ruleOf opts).level ≠ none ↔ ∃ rt ∈ opts.filterMap ProtoOpt.ruleText, SetsRule rt := by
  induction opts using List.reverseRecOn with
  | nil => simp [ruleOf, ProtoRule.init]
  | append_singleton opts o ih =>
    have hmem : (∃ rt ∈ (opts ++ [o]).filterMap ProtoOpt.ruleText, SetsRule rt) ↔
        (ruleOf opts).level ≠ none ∨ ∃ rt, o.ruleText = some rt ∧ SetsRule rt := by
      rw [ih]
      simp only [List.filterMap_append, List.mem_append, List.mem_filterMap, List.mem_singleton]
      grind
    rw [ruleOf_concat, hmem]
    cases o with
    | action | iface | unknown => simp [ProtoOpt.setRule, ProtoOpt.ruleText]
    | l2 arg => simp [ProtoOpt.setRule, ProtoOpt.ruleText, parseL2, ProtoRule.ofNumber, SetsRule]
    | l3 arg => simp [ProtoOpt.setRule, ProtoOpt.ruleText, parseL3, ProtoRule.ofNumber, SetsRule]
    | l4 arg =>
      by_cases hsets : SetsRule (.l4, arg)
      · simp [ProtoOpt.setRule, ProtoOpt.ruleText, hsets,
          (parseL4_of_setsRule hsets (ruleOf opts) .init).2]
      · simp [ProtoOpt.setRule, ProtoOpt.ruleText, hsets, parseL4_of_not_setsRule hsets]

/-- The rule of a single text. -/
def textRule : ProtoLevel × CString → ProtoRule
  | (.l2, text) => parseL2 text
  | (.l3, text) => parseL3 text
  | (.l4, text) => parseL4 text .init

/-- The last text decides, if it sets a rule. -/
theorem ruleOf_eq_textRule {opts : List ProtoOpt} {rt : ProtoLevel × CString}
    (hlast : lastArg ProtoOpt.ruleText opts = some rt) (hsets : SetsRule rt) :
    ruleOf opts = textRule rt := by
  induction opts using List.reverseRecOn with
  | nil => cases hlast
  | append_singleton opts o ih =>
    rw [lastArg_concat] at hlast
    rw [ruleOf_concat]
    cases o with
    | action | iface | unknown => exact ih hlast
    | l2 arg =>
      cases hlast
      rfl
    | l3 arg =>
      cases hlast
      rfl
    | l4 arg =>
      cases hlast
      exact (parseL4_of_setsRule hsets _ _).1

/-! ## A written rule is read as it is -/

/-- The entry that an add writes for a rule. -/
def ProtoRule.allowRule (r : ProtoRule) : Option AllowRule :=
  match r.level with
  | some .l2 => some (.l2 r.proto)
  | some .l3 | some .l4 => some (.flow r.key)
  | none => none

theorem strtoul0_of_fieldText {lo hi n : Nat} {s : CString} (h : FieldText CNumeral lo hi s n)
    (hhi : hi ≤ 65535) : strtoul0 s = n := by
  obtain ⟨htext, -, hle⟩ := h
  exact htext.strtoul0_eq (by omega)

/-- The word `any` is no number. -/
theorem ne_any_of_decimal {s : CString} {z : Int} (h : IntegerText DecimalText s z) :
    s ≠ "any".toList := by
  obtain ⟨neg, t, n, hsplit, ht, -⟩ := h
  rintro rfl
  obtain ⟨-, rfl⟩ := Prod.mk.inj hsplit
  exact absurd (ht.digits 'a' (by decide)) (by decide)

theorem parsePort_of_portText {s : CString} {port : UInt16} (h : PortText s port) :
    parsePort s = port := by
  rcases h with ⟨rfl, rfl⟩ | ⟨n, ⟨htext, -, hle⟩, rfl⟩
  · rfl
  · rw [parsePort, if_neg (ne_any_of_decimal htext), atoiU16_of_integerText htext (by omega)]

theorem ne_nil_of_fieldText {lo hi n : Nat} {s : CString} (h : FieldText CNumeral lo hi s n) :
    s ≠ [] :=
  h.1.ne_nil not_cNumeral_nil

theorem ne_nil_of_portText {s : CString} {port : UInt16} (h : PortText s port) : s ≠ [] := by
  rcases h with ⟨rfl, -⟩ | ⟨n, ⟨htext, -⟩, -⟩
  · decide
  · exact htext.ne_nil fun _ ht => ht.ne_nil rfl

/-- The parts of a written L4 rule are the ones that `strtok` finds. -/
theorem filter_parts {text p s d : CString} {n : Nat} {sport dport : UInt16}
    (parts : text.splitOn ':' = [p, s, d]) (proto : FieldText CNumeral 0 255 p n)
    (source : PortText s sport) (dest : PortText d dport) :
    (text.splitOn ':').filter (· ≠ []) = [p, s, d] := by
  rw [parts]
  simp [ne_nil_of_fieldText proto, ne_nil_of_portText source, ne_nil_of_portText dest]

theorem Denotes.setsRule {rt : ProtoLevel × CString} {rule : AllowRule} (h : Denotes rt rule) :
    SetsRule rt := by
  cases h with
  | l2 | l3 => trivial
  | l4 parts proto source dest =>
    rw [SetsRule, filter_parts parts proto source dest]
    exact le_refl 3

theorem Denotes.allowRule_textRule {rt : ProtoLevel × CString} {rule : AllowRule}
    (h : Denotes rt rule) : (textRule rt).allowRule = some rule := by
  cases h with
  | l2 proto =>
    rw [textRule, parseL2, ProtoRule.ofNumber, strtoul0_of_fieldText proto (by omega)]
    rfl
  | l3 proto =>
    rw [textRule, parseL3, ProtoRule.ofNumber, strtoul0_of_fieldText proto (by omega)]
    simp [ProtoRule.allowRule, ProtoRule.key]
  | l4 parts proto source dest =>
    rw [textRule, parseL4, filter_parts parts proto source dest]
    dsimp only
    rw [strtoul0_of_fieldText proto (by omega), parsePort_of_portText source,
      parsePort_of_portText dest]
    simp [ProtoRule.allowRule, ProtoRule.key]

/-! ## Running an add -/

/-- The list of the rule can be opened, takes updates and has room. -/
def SysEnv.Takes (env : SysEnv) (s : HgMaps ncpu) : AllowRule → Prop
  | .l2 p => env.objGet .hgL2Allow = true ∧ env.Accepts .hgL2Allow s.l2Allow p
  | .flow key => env.objGet .hgProto = true ∧ env.Accepts .hgProto s.proto key

instance (env : SysEnv) (s : HgMaps ncpu) : (rule : AllowRule) → Decidable (env.Takes s rule)
  | .l2 _ => inferInstanceAs (Decidable (_ ∧ _))
  | .flow _ => inferInstanceAs (Decidable (_ ∧ _))

theorem run_addRule (env : SysEnv) (s : HgMaps ncpu) {r : ProtoRule} {rule : AllowRule}
    (h : r.allowRule = some rule) :
    (protocolAllowAddAction r).run env s =
      if env.Takes s rule then (.success, s.allow rule) else (.failed, s) := by
  rw [ProtoRule.allowRule] at h
  rw [protocolAllowAddAction]
  cases hlevel : r.level with
  | none =>
    rw [hlevel] at h
    cases h
  | some level =>
    rw [hlevel] at h
    cases level with
    | l2 =>
      cases h
      exact run_withMap_update s.l2Allow r.proto 1 (fun m => { s with l2Allow := m }) rfl rfl
    | l3 | l4 =>
      cases h
      exact run_withMap_update s.proto r.key 1 (fun m => { s with proto := m }) rfl rfl

/-- Fresh allow-lists take every rule. -/
theorem takes_start (rule : AllowRule) :
    (SysEnv.good ⟨0, 0⟩).Takes (.start ncpu .standard 0) rule := by
  cases rule with
  | l2 p => exact ⟨rfl, rfl, .inr (Nat.zero_lt_succ 15)⟩
  | flow key => exact ⟨rfl, rfl, .inr (Nat.zero_lt_succ 63)⟩

theorem exists_allowRule {r : ProtoRule} (h : r.level ≠ none) : ∃ rule, r.allowRule = some rule := by
  rw [ProtoRule.allowRule]
  cases hlevel : r.level with
  | none => exact absurd hlevel h
  | some level => cases level <;> exact ⟨_, rfl⟩

/-- Any other command line is refused. -/
theorem hgctlProto_of_not_complete {opts : List ProtoOpt} (h : ¬ Complete opts) :
    (hgctlProto opts : Tool ncpu Status) = pure .failed := by
  have hparse : parseProto opts = none := by
    by_cases hknown : ProtoOpt.unknown ∈ opts
    · rw [parseProto, foldlM_set_of_unknown hknown]
      rfl
    · rw [parseProto, foldlM_set_of_known hknown]
      simp only [Option.bind_eq_bind, Option.bind_some, ite_eq_left_iff, not_or]
      rintro ⟨hiface, -, hlevel⟩
      refine absurd ⟨hknown, ?_, (level_ruleOf opts).mp hlevel⟩ h
      cases hlast : lastArg ProtoOpt.ifaceArg opts with
      | none => exact absurd (by simp [lastVars, hlast, strncpyInto]) hiface
      | some arg =>
        refine ⟨arg, rfl, ?_⟩
        rintro rfl
        exact hiface (by simp [lastVars, hlast, strncpyInto])
  rw [hgctlProto, hparse]

section
variable {opts : List ProtoOpt} (hadd : IsAdd opts)
include hadd

theorem lastVars_action : (lastVars opts).action = "add".toList := by
  obtain ⟨arg, harg, htake⟩ := hadd
  rw [lastVars, harg]
  exact htake

/-- A complete add runs the action on the rule that was read. -/
theorem hgctlProto_of_complete (h : Complete opts) :
    (hgctlProto opts : Tool ncpu Status) = protocolAllowAddAction (ruleOf opts) := by
  obtain ⟨iface, hiface, hne⟩ := h.iface
  have hbuf : (lastVars opts).iface ≠ [] := by
    rw [lastVars, hiface]
    simpa [strncpyInto] using hne
  have haction := lastVars_action hadd
  have hlevel : (lastVars opts).rule.level ≠ none := (level_ruleOf opts).mpr h.rule
  have hparse : parseProto opts = some (lastVars opts) := by
    rw [parseProto, foldlM_set_of_known h.known]
    simp [hbuf, haction, hlevel]
  rw [hgctlProto, hparse]
  dsimp only
  rw [if_pos haction]
  rfl

/-- Whatever a complete add has read is installed somewhere, so the rule must be written. -/
theorem exists_written (h : InstallsWritten ncpu opts) (hcomplete : Complete opts) :
    ∃ rule, Written opts rule := by
  obtain ⟨rule, hrule⟩ := exists_allowRule ((level_ruleOf opts).mpr hcomplete.rule)
  have hrun := h (.good ⟨0, 0⟩) (.start ncpu .standard 0)
  rw [hgctlProto_of_complete hadd hcomplete, run_addRule _ _ hrule, if_pos (takes_start rule)] at hrun
  rcases hrun with hfailed | ⟨written, hwritten, -⟩
  · cases congrArg Prod.fst hfailed
  · exact ⟨written, hwritten⟩

/-- A rule that is written is what a complete add installs, if the map takes it. -/
theorem run_of_written (env : SysEnv) (s : HgMaps ncpu) {rule : AllowRule} (h : Written opts rule)
    (hcomplete : Complete opts) :
    (hgctlProto opts).run env s =
      if env.Takes s rule then (.success, s.allow rule) else (.failed, s) := by
  obtain ⟨rt, hlast, hdenotes⟩ := h
  have hrule : (ruleOf opts).allowRule = some rule := by
    rw [ruleOf_eq_textRule hlast hdenotes.setsRule, hdenotes.allowRule_textRule]
  rw [hgctlProto_of_complete hadd hcomplete, run_addRule env s hrule]

end

/-- An add is refused or installs what is written exactly if it is incomplete or its last rule
    text spells a rule. -/
theorem rule_installed_iff (ncpu : Nat) {opts : List ProtoOpt} (hadd : IsAdd opts) :
    InstallsWritten ncpu opts ↔ (Complete opts → ∃ rule, Written opts rule) := by
  constructor
  · intro h hcomplete
    exact exists_written hadd h hcomplete
  · intro h env s
    by_cases hcomplete : Complete opts
    · obtain ⟨rule, hwritten⟩ := h hcomplete
      rw [run_of_written hadd env s hwritten hcomplete]
      by_cases htakes : env.Takes s rule
      · exact .inr ⟨rule, hwritten, by rw [if_pos htakes]⟩
      · exact .inl (by rw [if_neg htakes])
    · exact .inl (by rw [hgctlProto_of_not_complete hcomplete, Tool.run_pure])

/-- `6:any:443` spells TCP to port 443. -/
theorem rule_installed_https :
    InstallsWritten 1 [.action "add".toList, .iface "br0".toList, .l4 "6:any:443".toList] := by
  refine (rule_installed_iff 1 ⟨_, rfl, rfl⟩).mpr fun _ => ⟨.flow ⟨6, 0, 443⟩, _, rfl, ?_⟩
  have hnum : ∀ n : Nat, IntegerText DecimalText (decimal n) n := fun n =>
    (decimalText_decimal n).integerText
  have hproto : IntegerText CNumeral "6".toList (6 : Nat) :=
    ⟨false, _, 6, rfl, .dec (decimalText_decimal 6) (by decide), rfl⟩
  exact .l4 (p := "6".toList) (by decide) ⟨hproto, by decide, by decide⟩ (.inl ⟨rfl, rfl⟩)
    (.inr ⟨443, ⟨hnum 443, by decide, by decide⟩, rfl⟩)

/-- The name of a service in place of its port opens every port. -/
theorem service_name_opens_every_port :
    IsAdd [.action "add".toList, .iface "br0".toList, .l4 "6:any:https".toList] ∧
      ((hgctlProto [.action "add".toList, .iface "br0".toList, .l4 "6:any:https".toList]).run
        (.good ⟨0, 0⟩) (HgMaps.start 1 .standard 0)).2.proto.lookup ⟨6, 0, 0⟩ = some 1 ∧
      ¬ InstallsWritten 1
        [.action "add".toList, .iface "br0".toList, .l4 "6:any:https".toList] := by
  refine ⟨⟨_, rfl, rfl⟩, by decide +kernel, fun h => ?_⟩
  have hcomplete : Complete
      [.action "add".toList, .iface "br0".toList, .l4 "6:any:https".toList] :=
    ⟨by simp, ⟨_, rfl, by decide⟩, ⟨_, List.mem_singleton_self _, by decide⟩⟩
  obtain ⟨rule, rt, hlast, hdenotes⟩ := exists_written ⟨_, rfl, rfl⟩ h hcomplete
  cases hlast
  cases hdenotes with
  | l4 parts proto source dest =>
    have hsplit : "6:any:https".toList.splitOn ':' =
        ["6".toList, "any".toList, "https".toList] := by decide
    rw [hsplit] at parts
    cases parts
    rcases dest with ⟨hany, -⟩ | ⟨n, ⟨⟨neg, t, m, hsign, ht, -⟩, -⟩, -⟩
    · exact absurd hany (by decide)
    · obtain ⟨-, rfl⟩ := Prod.mk.inj hsign
      exact absurd (ht.digits 'h' (by decide)) (by decide)

end HawkGate
