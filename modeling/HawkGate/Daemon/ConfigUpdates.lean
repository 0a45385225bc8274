-- SUMMARY: A configuration file as a sequence of updates of independent fields.
import HawkGate.Daemon.Config
import HawkGate.Lib.Fields

/-!
# Configuration updates

What a line does depends on the section that it stands in and on nothing else:
it overwrites a field, lengthens a list, opens a section, is passed over or is
refused. Reading a file applies the updates of its lines in order, up to the
first refused line.
-/

namespace HawkGate

open CString StdString

/-! ## Fields -/

/-- The type of the field that a key sets. -/
abbrev ConfigKey.Value : ConfigKey → Type
  | .logLevel => LogLevel
  | .ifaceName | .portalIp | .gatewayFqdn => List Char
  | .httpPort => UInt16
  | .sessionTimeout | .quota => UInt64
  | .maxClients | .uRate | .dRate => UInt32
  | .portalMode => PortalMode

/-- The conversion of the text behind a key. -/
def ConfigKey.parse (value : List Char) : (k : ConfigKey) → Option k.Value
  | .logLevel => some (parseLogLevel value)
  | .ifaceName | .gatewayFqdn => some value
  | .httpPort => parseHttpPort value
  | .portalIp => if (inetPton (cStr value)).isSome then some value else none
  | .sessionTimeout | .quota => stoull value
  | .maxClients | .uRate | .dRate => stoulU32 value
  | .portalMode => some (parsePortalMode value)

def HgConfig.get (cfg : HgConfig) : (k : ConfigKey) → k.Value
  | .logLevel => cfg.logLevel
  | .ifaceName => cfg.ifaceName
  | .httpPort => cfg.httpPort
  | .portalIp => cfg.portalIp
  | .sessionTimeout => cfg.sessionTimeout
  | .maxClients => cfg.maxClients
  | .gatewayFqdn => cfg.gatewayFqdn
  | .uRate => cfg.uRate
  | .dRate => cfg.dRate
  | .quota => cfg.quota
  | .portalMode => cfg.portalMode

def HgConfig.put (cfg : HgConfig) : (k : ConfigKey) → k.Value → HgConfig
  | .logLevel, v => { cfg with logLevel := v }
  | .ifaceName, v => { cfg with ifaceName := v }
  | .httpPort, v => { cfg with httpPort := v }
  | .portalIp, v => { cfg with portalIp := v }
  | .sessionTimeout, v => { cfg with sessionTimeout := v }
  | .maxClients, v => { cfg with maxClients := v }
  | .gatewayFqdn, v => { cfg with gatewayFqdn := v }
  | .uRate, v => { cfg with uRate := v }
  | .dRate, v => { cfg with dRate := v }
  | .quota, v => { cfg with quota := v }
  | .portalMode, v => { cfg with portalMode := v }

/-- The lists that the two sections lengthen. -/
inductive ConfigList where
  | preauthL2 | preauthL3 | preauthL4 | walledGardenIps
  deriving DecidableEq

def HgConfig.list (cfg : HgConfig) : ConfigList → List (List Char)
  | .preauthL2 => cfg.preauthL2
  | .preauthL3 => cfg.preauthL3
  | .preauthL4 => cfg.preauthL4
  | .walledGardenIps => cfg.walledGardenIps

def HgConfig.extend (cfg : HgConfig) (items : List (List Char)) : ConfigList → HgConfig
  | .preauthL2 => { cfg with preauthL2 := cfg.preauthL2 ++ items }
  | .preauthL3 => { cfg with preauthL3 := cfg.preauthL3 ++ items }
  | .preauthL4 => { cfg with preauthL4 := cfg.preauthL4 ++ items }
  | .walledGardenIps => { cfg with walledGardenIps := cfg.walledGardenIps ++ items }

theorem HgConfig.ext_fields {cfg cfg' : HgConfig} (hget : ∀ k, cfg.get k = cfg'.get k)
    (hlist : ∀ i, cfg.list i = cfg'.list i) : cfg = cfg' := by
  cases cfg
  cases cfg'
  rw [HgConfig.mk.injEq]
  exact ⟨hget .logLevel, hget .ifaceName, hget .httpPort, hget .portalIp, hget .sessionTimeout,
    hget .maxClients, hget .gatewayFqdn, hget .uRate, hget .dRate, hget .quota, hget .portalMode,
    hlist .preauthL2, hlist .preauthL3, hlist .preauthL4, hlist .walledGardenIps⟩

/-- The configuration as a record of fields and lists. -/
def configFields : Fields HgConfig ConfigKey ConfigKey.Value ConfigList (List Char) where
  get k cfg := cfg.get k
  put k v cfg := cfg.put k v
  list i cfg := cfg.list i
  append i items cfg := cfg.extend items i
  get_put_self k v cfg := by cases k <;> rfl
  get_put_of_ne {k j} v cfg h := by
    cases j
    all_goals cases k
    all_goals first | rfl | exact absurd rfl h
  get_append k i items cfg := by cases i <;> cases k <;> rfl
  list_put i k v cfg := by cases k <;> cases i <;> rfl
  list_append_self i items cfg := by cases i <;> rfl
  list_append_of_ne {i j} items cfg h := by
    cases j
    all_goals cases i
    all_goals first | rfl | exact absurd rfl h
  ext hget hlist := HgConfig.ext_fields hget hlist

abbrev ConfigUpdate := Fields.Update ConfigKey.Value ConfigList (List Char)

/-- To store a value is to convert it and put it into the field. -/
theorem setKey_eq (cfg : HgConfig) (k : ConfigKey) (value : List Char) :
    cfg.setKey k value = (k.parse value).map (cfg.put k) := by
  cases k with
  | portalIp =>
    simp only [HgConfig.setKey, ConfigKey.parse]
    split
    · rfl
    · rfl
  | _ => rfl

/-! ## Lines -/

/-- What a line means in its section. -/
inductive LineMeaning where
  /-- A value that is refused. -/
  | refused
  /-- A comment, a line without `=`, or an unknown key. -/
  | nothing
  | enters (name : List Char)
  | update (u : ConfigUpdate)

/-- The list of a key in the section `preauth-protocol`. -/
def preauthList (key : List Char) : Option ConfigList :=
  if key = "l2".toList then some .preauthL2
  else if key = "l3".toList then some .preauthL3
  else if key = "l4".toList then some .preauthL4
  else none

/-- An entry of the walled garden; an empty value is none. -/
def gardenItems (value : List Char) : List (List Char) := if value = [] then [] else [value]

/-- An assignment to a key outside the list sections. -/
def keyMeaning (k : ConfigKey) (value : List Char) : LineMeaning :=
  match k.parse value with
  | none => .refused
  | some v => .update (.set k v)

def assignMeaning (sec key value : List Char) : LineMeaning :=
  if sec = preauthSection then
    match preauthList key with
    | none => .nothing
    | some i => .update (.append i (splitCsv value))
  else if sec = walledGardenSection then
    if key = "ip".toList then .update (.append .walledGardenIps (gardenItems value)) else .nothing
  else
    match ConfigKey.ofText key with
    | none => .nothing
    | some k => keyMeaning k value

def lineMeaning (sec line : List Char) : LineMeaning :=
  match readLine line with
  | .skip => .nothing
  | .sectionName name => .enters name
  | .assign key value => assignMeaning sec key value

def LineMeaning.apply (st : LoadState) : LineMeaning → Option LoadState
  | .refused => none
  | .nothing => some st
  | .enters name => some { st with currentSection := name }
  | .update u => some { st with cfg := configFields.apply st.cfg u }

theorem addPreauth_eq (cfg : HgConfig) (key value : List Char) :
    cfg.addPreauth key value =
      (preauthList key).elim cfg fun i => cfg.extend (splitCsv value) i := by
  unfold HgConfig.addPreauth preauthList
  split
  · rfl
  · split
    · rfl
    · split
      · rfl
      · rfl

theorem addWalledGarden_eq (cfg : HgConfig) (key value : List Char) :
    cfg.addWalledGarden key value =
      if key = "ip".toList then cfg.extend (gardenItems value) .walledGardenIps else cfg := by
  unfold HgConfig.addWalledGarden gardenItems
  by_cases hkey : key = "ip".toList
  · by_cases hvalue : value = []
    · simp [hkey, hvalue, HgConfig.extend]
    · simp [hkey, hvalue, HgConfig.extend]
  · rw [if_neg hkey, if_neg fun h => hkey h.1]

/-- One turn of the loop does what the line means. -/
theorem read_eq_apply (st : LoadState) (line : List Char) :
    st.read line = (lineMeaning st.currentSection line).apply st := by
  unfold LoadState.read lineMeaning
  cases readLine line with
  | skip => rfl
  | sectionName name => rfl
  | assign key value =>
    simp only [assignMeaning]
    split
    · rw [addPreauth_eq]
      cases preauthList key with
      | none => rfl
      | some i => rfl
    · split
      · rw [addWalledGarden_eq]
        split
        · rfl
        · rfl
      · cases ConfigKey.ofText key with
        | none => rfl
        | some k =>
          simp only [setKey_eq, keyMeaning]
          cases k.parse value with
          | none => rfl
          | some v => rfl

/-! ## Files -/

/-- The updates that lines make from a section on, up to the first refused line, and the section
    behind them; `none` if a line is refused. -/
def readUpdates (sec : List Char) : List (List Char) → List ConfigUpdate × Option (List Char)
  | [] => ([], some sec)
  | line :: lines =>
    match lineMeaning sec line with
    | .refused => ([], none)
    | .nothing => readUpdates sec lines
    | .enters name => readUpdates name lines
    | .update u => (u :: (readUpdates sec lines).1, (readUpdates sec lines).2)

/-- What is returned and left when the updates of a file are made. -/
def finish (cfg : HgConfig) (r : List ConfigUpdate × Option (List Char)) : Bool × HgConfig :=
  (r.2.isSome && (configFields.run cfg r.1).isValid, configFields.run cfg r.1)

/-- Reading a file makes its updates. -/
theorem readAll_eq_finish (st : LoadState) (lines : List (List Char)) :
    st.readAll lines = finish st.cfg (readUpdates st.currentSection lines) := by
  induction lines generalizing st with
  | nil => rfl
  | cons line lines ih =>
    rw [LoadState.readAll, readUpdates, read_eq_apply]
    cases lineMeaning st.currentSection line with
    | refused => rfl
    | nothing => exact ih st
    | enters name => exact ih { st with currentSection := name }
    | update u => exact ih { st with cfg := configFields.apply st.cfg u }

theorem loadInto_eq_finish (cfg : HgConfig) (text : List Char) :
    loadInto cfg text = finish cfg (readUpdates [] (text.splitOn '\n')) :=
  readAll_eq_finish ⟨[], cfg⟩ (text.splitOn '\n')

/-- The lines behind others continue in the section that these lead to. -/
theorem readUpdates_append {sec sec' : List Char} {pre : List (List Char)} {us : List ConfigUpdate}
    (h : readUpdates sec pre = (us, some sec')) (post : List (List Char)) :
    readUpdates sec (pre ++ post) =
      (us ++ (readUpdates sec' post).1, (readUpdates sec' post).2) := by
  induction pre generalizing sec us with
  | nil =>
    obtain ⟨rfl, hsec⟩ := Prod.mk.inj h
    obtain rfl := Option.some.inj hsec
    rfl
  | cons line pre ih =>
    rw [readUpdates] at h
    rw [List.cons_append, readUpdates]
    cases hline : lineMeaning sec line with
    | refused => simp [hline] at h
    | nothing => exact ih (by simpa only [hline] using h)
    | enters name => exact ih (by simpa only [hline] using h)
    | update u =>
      simp only [hline] at h
      obtain ⟨rfl, hsec⟩ := Prod.mk.inj h
      rw [ih (Prod.ext rfl hsec)]
      rfl

/-- Behind a refused line nothing is read. -/
theorem readUpdates_append_refused {sec : List Char} {pre : List (List Char)}
    {us : List ConfigUpdate} (h : readUpdates sec pre = (us, none)) (post : List (List Char)) :
    readUpdates sec (pre ++ post) = (us, none) := by
  induction pre generalizing sec us with
  | nil => cases h
  | cons line pre ih =>
    rw [readUpdates] at h
    rw [List.cons_append, readUpdates]
    cases hline : lineMeaning sec line with
    | refused => simpa only [hline] using h
    | nothing => exact ih (by simpa only [hline] using h)
    | enters name => exact ih (by simpa only [hline] using h)
    | update u =>
      simp only [hline] at h
      obtain ⟨rfl, hsec⟩ := Prod.mk.inj h
      rw [ih (Prod.ext rfl hsec)]

/-- Lines that are updates each stay in their section. -/
theorem readUpdates_forall₂ {sec : List Char} {us : List ConfigUpdate} {lines : List (List Char)}
    (h : List.Forall₂ (fun u line => lineMeaning sec line = .update u) us lines) :
    readUpdates sec lines = (us, some sec) := by
  induction h with
  | nil => rfl
  | cons hline _ ih =>
    rw [readUpdates, hline]
    simp only [ih]

end HawkGate
