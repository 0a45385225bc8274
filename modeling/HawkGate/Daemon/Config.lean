-- SUMMARY: The daemon's configuration: `load_config` over the text of the file, and what its values are read from.
import HawkGate.Lib.StdString
import HawkGate.Lib.WriteLog

/-!
# Configuration

`hg_config.cpp`. The file is read line by line into the global configuration,
which starts out zeroed; reading stops at the first value that is refused.
Log messages are left out.
-/

namespace HawkGate

open CString StdString

inductive LogLevel where
  | debug | info | warning | error
  deriving DecidableEq

inductive PortalMode where
  | builtin | externalUrl
  deriving DecidableEq

structure HgConfig where
  logLevel : LogLevel
  ifaceName : List Char
  httpPort : UInt16
  portalIp : List Char
  sessionTimeout : UInt64
  maxClients : UInt32
  gatewayFqdn : List Char
  /-- kbit/s. -/
  uRate : UInt32
  /-- kbit/s. -/
  dRate : UInt32
  quota : UInt64
  portalMode : PortalMode
  preauthL2 : List (List Char)
  preauthL3 : List (List Char)
  preauthL4 : List (List Char)
  walledGardenIps : List (List Char)
  deriving DecidableEq

/-- The global object before anything is loaded. -/
def HgConfig.init : HgConfig where
  logLevel := .info
  ifaceName := []
  httpPort := 0
  portalIp := []
  sessionTimeout := 0
  maxClients := 0
  gatewayFqdn := []
  uRate := 0
  dRate := 0
  quota := 0
  portalMode := .builtin
  preauthL2 := []
  preauthL3 := []
  preauthL4 := []
  walledGardenIps := []

/-! ## Lines -/

def splitCsv (s : List Char) : List (List Char) :=
  ((s.splitOn ',').map trim).filter (· ≠ []) |>.map toLower

inductive ConfigLine where
  /-- An empty line, a comment, or a line without `=`. -/
  | skip
  | sectionName (name : List Char)
  | assign (key value : List Char)

def readLine (line : List Char) : ConfigLine :=
  match line with
  | [] => .skip
  | '#' :: _ => .skip
  | '[' :: rest =>
    match splitFirst ']' rest with
    | none => .skip
    | some (name, _) => .sectionName (trim name)
  | _ =>
    match splitFirst '=' line with
    | none => .skip
    | some (key, value) => .assign (trim key) (trim value)

/-- A line that begins neither a comment nor a section is split at its first `=`. -/
theorem readLine_of_ne {c : Char} (hhash : c ≠ '#') (hopen : c ≠ '[') (t : List Char) :
    readLine (c :: t) =
      match splitFirst '=' (c :: t) with
      | none => .skip
      | some (key, value) => .assign (trim key) (trim value) := by
  unfold readLine
  split
  · next heq => cases heq
  · next heq => exact absurd (List.cons.inj heq).1 hhash
  · next heq => exact absurd (List.cons.inj heq).1 hopen
  · rfl

def parseLogLevel (value : List Char) : LogLevel :=
  if value = "debug".toList then .debug
  else if value = "info".toList then .info
  else if value = "warning".toList then .warning
  else if value = "error".toList then .error
  else .info

def parsePortalMode (value : List Char) : PortalMode :=
  if value = "builtin".toList then .builtin
  else if value = "external_url".toList then .externalUrl
  else .builtin

def parseHttpPort (value : List Char) : Option UInt16 :=
  match stoull value with
  | none => none
  | some tmp => if tmp = 0 ∨ 65535 < tmp then none else some tmp.toUInt16

/-- A `unsigned long` assigned to a 32-bit field. -/
def stoulU32 (value : List Char) : Option UInt32 := (stoull value).map UInt64.toUInt32

/-- The keys that are read outside the two list sections. -/
inductive ConfigKey where
  | logLevel | ifaceName | httpPort | portalIp | sessionTimeout | maxClients | gatewayFqdn
  | uRate | dRate | quota | portalMode
  deriving DecidableEq

def ConfigKey.text : ConfigKey → List Char
  | .logLevel => "log_level".toList
  | .ifaceName => "iface_name".toList
  | .httpPort => "http_port".toList
  | .portalIp => "portal_ip".toList
  | .sessionTimeout => "session_timeout".toList
  | .maxClients => "max_clients".toList
  | .gatewayFqdn => "gateway_fqdn".toList
  | .uRate => "u_rate".toList
  | .dRate => "d_rate".toList
  | .quota => "quota".toList
  | .portalMode => "portal_mode".toList

/-- The key of a text; every other text is ignored. -/
def ConfigKey.ofText (key : List Char) : Option ConfigKey :=
  [ConfigKey.logLevel, .ifaceName, .httpPort, .portalIp, .sessionTimeout, .maxClients,
    .gatewayFqdn, .uRate, .dRate, .quota, .portalMode].find? fun k => k.text = key

/-- Store the value of a key; `none` is `return false`. -/
def HgConfig.setKey (cfg : HgConfig) (key : ConfigKey) (value : List Char) : Option HgConfig :=
  match key with
  | .logLevel => some { cfg with logLevel := parseLogLevel value }
  | .ifaceName => some { cfg with ifaceName := value }
  | .httpPort => (parseHttpPort value).map fun port => { cfg with httpPort := port }
  | .portalIp =>
    if (inetPton (cStr value)).isSome then some { cfg with portalIp := value } else none
  | .sessionTimeout => (stoull value).map fun t => { cfg with sessionTimeout := t }
  | .maxClients => (stoulU32 value).map fun n => { cfg with maxClients := n }
  | .gatewayFqdn => some { cfg with gatewayFqdn := value }
  | .uRate => (stoulU32 value).map fun r => { cfg with uRate := r }
  | .dRate => (stoulU32 value).map fun r => { cfg with dRate := r }
  | .quota => (stoull value).map fun q => { cfg with quota := q }
  | .portalMode => some { cfg with portalMode := parsePortalMode value }

/-- An assignment in the section `preauth-protocol`. -/
def HgConfig.addPreauth (cfg : HgConfig) (key value : List Char) : HgConfig :=
  if key = "l2".toList then { cfg with preauthL2 := cfg.preauthL2 ++ splitCsv value }
  else if key = "l3".toList then { cfg with preauthL3 := cfg.preauthL3 ++ splitCsv value }
  else if key = "l4".toList then { cfg with preauthL4 := cfg.preauthL4 ++ splitCsv value }
  else cfg

/-- An assignment in the section `walled_garden`. -/
def HgConfig.addWalledGarden (cfg : HgConfig) (key value : List Char) : HgConfig :=
  if key = "ip".toList ∧ value ≠ [] then
    { cfg with walledGardenIps := cfg.walledGardenIps ++ [value] }
  else cfg

/-- The local variables of `load_config` and the global configuration. -/
structure LoadState where
  currentSection : List Char
  cfg : HgConfig

def preauthSection : List Char := "preauth-protocol".toList

def walledGardenSection : List Char := "walled_garden".toList

/-- One turn of the loop; `none` is `return false`. -/
def LoadState.read (st : LoadState) (line : List Char) : Option LoadState :=
  match readLine line with
  | .skip => some st
  | .sectionName name => some { st with currentSection := name }
  | .assign key value =>
    if st.currentSection = preauthSection then
      some { st with cfg := st.cfg.addPreauth key value }
    else if st.currentSection = walledGardenSection then
      some { st with cfg := st.cfg.addWalledGarden key value }
    else
      match ConfigKey.ofText key with
      | none => some st
      | some k => (st.cfg.setKey k value).map fun cfg => { st with cfg := cfg }

def HgConfig.isValid (cfg : HgConfig) : Bool :=
  cfg.ifaceName ≠ [] && cfg.httpPort ≠ 0 && cfg.portalIp ≠ [] && cfg.sessionTimeout ≠ 0 &&
    cfg.maxClients ≠ 0 && cfg.gatewayFqdn ≠ []

/-- The configuration that a file with this content gives, if it is accepted. -/
def loadConfig (text : List Char) : Option HgConfig := do
  let st ← (text.splitOn '\n').foldlM LoadState.read ⟨[], .init⟩
  if st.cfg.isValid then some st.cfg else none

/-- The loop over the remaining lines: what `load_config` returns, and the configuration it
    leaves. -/
def LoadState.readAll (st : LoadState) : List (List Char) → Bool × HgConfig
  | [] => (st.cfg.isValid, st.cfg)
  | line :: lines =>
    match st.read line with
    | none => (false, st.cfg)
    | some st => st.readAll lines

/-- `load_config` on a global configuration that may hold something already. -/
def loadInto (cfg : HgConfig) (text : List Char) : Bool × HgConfig :=
  LoadState.readAll ⟨[], cfg⟩ (text.splitOn '\n')

theorem readAll_eq_foldlM (st : LoadState) (lines : List (List Char)) :
    (if (st.readAll lines).1 then some (st.readAll lines).2 else none) =
      (lines.foldlM LoadState.read st).bind fun st => if st.cfg.isValid then some st.cfg else none := by
  induction lines generalizing st with
  | nil => rfl
  | cons line lines ih =>
    rw [List.foldlM_cons, LoadState.readAll]
    cases st.read line with
    | none => rfl
    | some st => exact ih st

/-- A file is accepted if `load_config` returns true on the fresh configuration. -/
theorem loadConfig_eq (text : List Char) :
    loadConfig text = if (loadInto .init text).1 then some (loadInto .init text).2 else none :=
  (readAll_eq_foldlM ⟨[], .init⟩ (text.splitOn '\n')).symm

/-! ## What a value is read from -/

/-- The section and the assignments outside the list sections so far, newest first. -/
structure Outline where
  currentSection : List Char
  assigned : WriteLog ConfigKey (List Char)

def Outline.read (o : Outline) (line : List Char) : Outline :=
  match readLine line with
  | .skip => o
  | .sectionName name => { o with currentSection := name }
  | .assign key value =>
    if o.currentSection = preauthSection ∨ o.currentSection = walledGardenSection then o
    else
      match ConfigKey.ofText key with
      | none => o
      | some k => { o with assigned := (k, value) :: o.assigned }

/-- The text that the configuration file writes for a key, the last one if there are several. -/
def writtenValue (text : List Char) (key : ConfigKey) : Option (List Char) :=
  WriteLog.latest ((text.splitOn '\n').foldl Outline.read ⟨[], []⟩).assigned key

/-- A field that only the assignments of one key set, by a conversion of the value. -/
structure FieldOf {β : Type} (key : ConfigKey) (field : HgConfig → β)
    (parse : List Char → Option β) : Prop where
  set_self : ∀ (cfg : HgConfig) value cfg', cfg.setKey key value = some cfg' →
    parse value = some (field cfg')
  set_other : ∀ (cfg : HgConfig) k value cfg', k ≠ key → cfg.setKey k value = some cfg' →
    field cfg' = field cfg
  preauth : ∀ (cfg : HgConfig) k value, field (cfg.addPreauth k value) = field cfg
  walledGarden : ∀ (cfg : HgConfig) k value, field (cfg.addWalledGarden k value) = field cfg

/-- The field holds the conversion of the last value written for its key, or else what it
    started with. -/
def HoldsWritten {β : Type} (key : ConfigKey) (field : HgConfig → β)
    (parse : List Char → Option β) (cfg : HgConfig) (assigned : WriteLog ConfigKey (List Char)) :
    Prop :=
  match assigned.latest key with
  | none => field cfg = field .init
  | some value => parse value = some (field cfg)

section
variable {β : Type} {key : ConfigKey} {field : HgConfig → β} {parse : List Char → Option β}

theorem holdsWritten_read (hf : FieldOf key field parse) {st st' : LoadState} {o : Outline}
    {line : List Char} (hsec : st.currentSection = o.currentSection)
    (h : HoldsWritten key field parse st.cfg o.assigned) (hst : st.read line = some st') :
    st'.currentSection = (o.read line).currentSection ∧
      HoldsWritten key field parse st'.cfg (o.read line).assigned := by
  unfold LoadState.read at hst
  unfold Outline.read
  cases hline : readLine line with
  | skip =>
    simp only [hline, Option.some.injEq] at hst
    exact hst ▸ ⟨hsec, h⟩
  | sectionName name =>
    simp only [hline, Option.some.injEq] at hst
    exact hst ▸ ⟨rfl, h⟩
  | assign k value =>
    simp only [hline, ← hsec] at hst ⊢
    split at hst
    · next hpre =>
      obtain rfl := Option.some.inj hst
      rw [if_pos (Or.inl hpre)]
      refine ⟨hsec, ?_⟩
      simpa only [HoldsWritten, hf.preauth] using h
    · next hpre =>
      split at hst
      · next hwg =>
        obtain rfl := Option.some.inj hst
        rw [if_pos (Or.inr hwg)]
        refine ⟨hsec, ?_⟩
        simpa only [HoldsWritten, hf.walledGarden] using h
      · next hwg =>
        rw [if_neg (not_or.mpr ⟨hpre, hwg⟩)]
        cases hkey : ConfigKey.ofText k with
        | none =>
          simp only [hkey, Option.some.injEq] at hst
          exact hst ▸ ⟨hsec, h⟩
        | some k =>
          simp only [hkey] at hst
          obtain ⟨cfg, hcfg, rfl⟩ := Option.map_eq_some_iff.mp hst
          refine ⟨rfl, ?_⟩
          simp only [HoldsWritten, WriteLog.latest_cons]
          by_cases hk : key = k
          · subst hk
            rw [if_pos rfl]
            exact hf.set_self _ _ _ hcfg
          · rw [if_neg hk, hf.set_other _ _ _ _ (Ne.symm hk) hcfg]
            exact h

theorem holdsWritten_foldlM (hf : FieldOf key field parse) (lines : List (List Char))
    {st st' : LoadState} {o : Outline} (hsec : st.currentSection = o.currentSection)
    (h : HoldsWritten key field parse st.cfg o.assigned)
    (hst : lines.foldlM LoadState.read st = some st') :
    HoldsWritten key field parse st'.cfg (lines.foldl Outline.read o).assigned := by
  induction lines generalizing st o with
  | nil =>
    obtain rfl := Option.some.inj hst
    exact h
  | cons line lines ih =>
    rw [List.foldlM_cons] at hst
    obtain ⟨st₁, hread, hrest⟩ := Option.bind_eq_some_iff.mp hst
    obtain ⟨hsec₁, h₁⟩ := holdsWritten_read hf hsec h hread
    exact ih hsec₁ h₁ hrest

/-- An accepted file leaves in a field the conversion of the last value written for its key. -/
theorem loadConfig_field (hf : FieldOf key field parse) {text : List Char} {cfg : HgConfig}
    (h : loadConfig text = some cfg) :
    match writtenValue text key with
    | none => field cfg = field .init
    | some value => parse value = some (field cfg) := by
  obtain ⟨st, hfold, hvalid⟩ := Option.bind_eq_some_iff.mp h
  split at hvalid
  · obtain rfl := Option.some.inj hvalid
    have hinit : HoldsWritten key field parse (LoadState.mk [] .init).cfg [] := by
      simp [HoldsWritten]
    exact holdsWritten_foldlM hf (text.splitOn '\n') (o := ⟨[], []⟩) rfl hinit hfold
  · cases hvalid

end

/-- An accepted configuration passes the checks. -/
theorem isValid_of_loadConfig {text : List Char} {cfg : HgConfig} (h : loadConfig text = some cfg) :
    cfg.isValid = true := by
  obtain ⟨st, -, hvalid⟩ := Option.bind_eq_some_iff.mp h
  split at hvalid
  · next hv =>
    obtain rfl := Option.some.inj hvalid
    exact hv
  · cases hvalid

/-! ## The limits -/

theorem addPreauth_frame (cfg : HgConfig) (key value : List Char) :
    ∃ l2 l3 l4, cfg.addPreauth key value =
      { cfg with preauthL2 := l2, preauthL3 := l3, preauthL4 := l4 } := by
  unfold HgConfig.addPreauth
  repeat' split
  all_goals exact ⟨_, _, _, rfl⟩

theorem addWalledGarden_frame (cfg : HgConfig) (key value : List Char) :
    ∃ ips, cfg.addWalledGarden key value = { cfg with walledGardenIps := ips } := by
  unfold HgConfig.addWalledGarden
  split
  all_goals exact ⟨_, rfl⟩

/-- A field outside the lists that one key stores the conversion of its value in. -/
theorem fieldOf_of_setKey {β : Type} {key : ConfigKey} {field : HgConfig → β}
    {parse : List Char → Option β}
    (hself : ∀ (cfg : HgConfig) value, (cfg.setKey key value).map field = parse value)
    (hother : ∀ (cfg : HgConfig) k value cfg', k ≠ key → cfg.setKey k value = some cfg' →
      field cfg' = field cfg)
    (hpre : ∀ (cfg : HgConfig) l2 l3 l4,
      field { cfg with preauthL2 := l2, preauthL3 := l3, preauthL4 := l4 } = field cfg)
    (hwg : ∀ (cfg : HgConfig) ips, field { cfg with walledGardenIps := ips } = field cfg) :
    FieldOf key field parse where
  set_self cfg value cfg' h := by rw [← hself cfg value, h, Option.map_some]
  set_other := hother
  preauth cfg k value := by
    obtain ⟨l2, l3, l4, h⟩ := addPreauth_frame cfg k value
    rw [h, hpre]
  walledGarden cfg k value := by
    obtain ⟨ips, h⟩ := addWalledGarden_frame cfg k value
    rw [h, hwg]

/-- What is computed from a field is stored along with it. -/
theorem FieldOf.map {β γ : Type} {key : ConfigKey} {field : HgConfig → β}
    {parse : List Char → Option β} (h : FieldOf key field parse) (g : β → γ) :
    FieldOf key (fun cfg => g (field cfg)) (fun value => (parse value).map g) where
  set_self cfg value cfg' hset := by rw [h.set_self cfg value cfg' hset, Option.map_some]
  set_other cfg k value cfg' hk hset := congrArg g (h.set_other cfg k value cfg' hk hset)
  preauth cfg k value := congrArg g (h.preauth cfg k value)
  walledGarden cfg k value := congrArg g (h.walledGarden cfg k value)

/-- An assignment stores the value of its own key and of no other. -/
theorem setKey_frame {cfg cfg' : HgConfig} {k : ConfigKey} {value : List Char}
    (h : cfg.setKey k value = some cfg') :
    (k ≠ .sessionTimeout → cfg'.sessionTimeout = cfg.sessionTimeout) ∧
      (k ≠ .uRate → cfg'.uRate = cfg.uRate) ∧ (k ≠ .dRate → cfg'.dRate = cfg.dRate) := by
  cases k with
  | logLevel | ifaceName | gatewayFqdn | portalMode =>
    obtain rfl := Option.some.inj h
    exact ⟨fun _ => rfl, fun _ => rfl, fun _ => rfl⟩
  | portalIp =>
    simp only [HgConfig.setKey] at h
    split at h
    · obtain rfl := Option.some.inj h
      exact ⟨fun _ => rfl, fun _ => rfl, fun _ => rfl⟩
    · cases h
  | httpPort | maxClients | quota =>
    obtain ⟨v, -, rfl⟩ := Option.map_eq_some_iff.mp h
    exact ⟨fun _ => rfl, fun _ => rfl, fun _ => rfl⟩
  | sessionTimeout | uRate | dRate =>
    obtain ⟨v, -, rfl⟩ := Option.map_eq_some_iff.mp h
    simp

theorem fieldOf_sessionTimeout : FieldOf .sessionTimeout HgConfig.sessionTimeout stoull :=
  fieldOf_of_setKey (fun cfg value => by simp [HgConfig.setKey, Function.comp_def])
    (fun cfg k value cfg' hk h => (setKey_frame h).1 hk) (fun _ _ _ _ => rfl) (fun _ _ => rfl)

theorem fieldOf_uRate : FieldOf .uRate HgConfig.uRate stoulU32 :=
  fieldOf_of_setKey (fun cfg value => by simp [HgConfig.setKey, Function.comp_def])
    (fun cfg k value cfg' hk h => (setKey_frame h).2.1 hk) (fun _ _ _ _ => rfl) (fun _ _ => rfl)

theorem fieldOf_dRate : FieldOf .dRate HgConfig.dRate stoulU32 :=
  fieldOf_of_setKey (fun cfg value => by simp [HgConfig.setKey, Function.comp_def])
    (fun cfg k value cfg' hk h => (setKey_frame h).2.2 hk) (fun _ _ _ _ => rfl) (fun _ _ => rfl)

end HawkGate
