-- SUMMARY: A configuration is read back from every file that states it.
import HawkGate.Daemon.ConfigText

/-!
# Configuration round trip

However a valid configuration is written down, with its keys in any order, its
lists cut into lines and comments between them, `load_config` gives it back.
-/

namespace HawkGate

open CString StdString Fields

/-! ## Writing a configuration -/

def LogLevel.text : LogLevel → List Char
  | .debug => "debug".toList
  | .info => "info".toList
  | .warning => "warning".toList
  | .error => "error".toList

def PortalMode.text : PortalMode → List Char
  | .builtin => "builtin".toList
  | .externalUrl => "external_url".toList

/-- The text of a field; numbers are decimal. -/
def HgConfig.valueText (cfg : HgConfig) : ConfigKey → List Char
  | .logLevel => cfg.logLevel.text
  | .ifaceName => cfg.ifaceName
  | .httpPort => decimal cfg.httpPort.toNat
  | .portalIp => cfg.portalIp
  | .sessionTimeout => decimal cfg.sessionTimeout.toNat
  | .maxClients => decimal cfg.maxClients.toNat
  | .gatewayFqdn => cfg.gatewayFqdn
  | .uRate => decimal cfg.uRate.toNat
  | .dRate => decimal cfg.dRate.toNat
  | .quota => decimal cfg.quota.toNat
  | .portalMode => cfg.portalMode.text

/-- The key of a list in its section. -/
def ConfigList.text : ConfigList → List Char
  | .preauthL2 => "l2".toList
  | .preauthL3 => "l3".toList
  | .preauthL4 => "l4".toList
  | .walledGardenIps => "ip".toList

/-- The lines of the keys, each of which has one, in any order. -/
structure TopLevel (cfg : HgConfig) (keys : List ConfigKey) (lines : List (List Char)) : Prop where
  all : ∀ k, k ∈ keys
  lines : List.Forall₂ (fun k line => ∃ value, Padded (cfg.valueText k) value ∧
    Assignment k.text value line) keys lines

/-- The section with the lists of protocols, each cut into parts that stand on a line each. -/
structure PreauthLines (cfg : HgConfig) (parts : List (ConfigList × List (List Char)))
    (header : List Char) (lines : List (List Char)) : Prop where
  header : Header preauthSection header
  preauth : ∀ part ∈ parts, part.1 ≠ .walledGardenIps
  names : ∀ i, i ≠ .walledGardenIps →
    parts.flatMap (fun part => if part.1 = i then part.2 else []) = cfg.list i
  lines : List.Forall₂ (fun part line => ∃ value, NameList part.2 value ∧
    Assignment part.1.text value line) parts lines

/-- The section with one line for each entry of the walled garden. -/
structure GardenLines (cfg : HgConfig) (header : List Char) (lines : List (List Char)) : Prop where
  header : Header walledGardenSection header
  lines : List.Forall₂ (fun ip line => ∃ value, Padded ip value ∧
    Assignment ConfigList.walledGardenIps.text value line) cfg.walledGardenIps lines

/-- A text that states the configuration: but for blank lines and comments it consists of the keys
    and the two sections, in either order. -/
def States (cfg : HgConfig) (text : List Char) : Prop :=
  ∃ keys top parts preauthHeader preauth gardenHeader garden,
    TopLevel cfg keys top ∧ PreauthLines cfg parts preauthHeader preauth ∧
      GardenLines cfg gardenHeader garden ∧
      ((text.splitOn '\n').filter (fun line => !isFiller line) =
          top ++ (preauthHeader :: preauth ++ gardenHeader :: garden) ∨
        (text.splitOn '\n').filter (fun line => !isFiller line) =
          top ++ (gardenHeader :: garden ++ preauthHeader :: preauth))

/-- The texts of the configuration can be written down. -/
structure Printable (cfg : HgConfig) : Prop where
  ifaceName : trim cfg.ifaceName = cfg.ifaceName
  portalIp : trim cfg.portalIp = cfg.portalIp
  address : (inetPton (cStr cfg.portalIp)).isSome = true
  gatewayFqdn : trim cfg.gatewayFqdn = cfg.gatewayFqdn
  names : ∀ i, i ≠ .walledGardenIps → ∀ name ∈ cfg.list i, ListName name
  gardenIps : ∀ ip ∈ cfg.walledGardenIps, ip ≠ [] ∧ trim ip = ip

/-! ## Reading it back -/

/-- The updates of the sections. -/
def preauthUpdates (parts : List (ConfigList × List (List Char))) : List ConfigUpdate :=
  parts.map fun part => .append part.1 part.2

def gardenUpdates (ips : List (List Char)) : List ConfigUpdate :=
  ips.map fun ip => .append .walledGardenIps [ip]

section
variable {cfg : HgConfig}

theorem trim_decimal (n : Nat) : trim (decimal n) = decimal n := by
  have hdigit : ∀ c : Char, c.isDigit = true → isBlank c = false := by
    intro c hc
    cases hblank : isBlank c with
    | false => rfl
    | true =>
      have hspace := isSpace_of_isBlank hblank
      rw [not_isSpace_of_isDigit hc] at hspace
      cases hspace
  exact trim_eq_self fun c hc => hdigit c (isDigit_of_mem_decimal hc)

theorem stoull_toNat (n : UInt64) : stoull (decimal n.toNat) = some n := by
  rw [stoull_decimal n.toNat_lt, UInt64.ofNat_toNat]

theorem stoulU32_toNat (n : UInt32) : stoulU32 (decimal n.toNat) = some n := by
  have hn := n.toNat_lt
  rw [stoulU32, stoull_decimal (by omega), Option.map_some, Option.some_inj,
    ← UInt32.toNat_inj, UInt64.toNat_toUInt32, UInt64.toNat_ofNat']
  omega

theorem parseHttpPort_toNat {port : UInt16} (h : port ≠ 0) :
    parseHttpPort (decimal port.toNat) = some port := by
  have hlt := port.toNat_lt
  have hpos : port.toNat ≠ 0 := fun h0 => h (UInt16.toNat_inj.mp h0)
  have hval : (UInt64.ofNat port.toNat).toNat = port.toNat := by
    rw [UInt64.toNat_ofNat']
    omega
  rw [parseHttpPort, stoull_decimal (by omega)]
  dsimp only
  rw [if_neg, Option.some_inj, ← UInt16.toNat_inj, UInt64.toNat_toUInt16, hval]
  · omega
  · rw [← UInt64.toNat_inj, UInt64.lt_iff_toNat_lt, hval]
    rintro (h0 | hbig)
    · exact hpos h0
    · have : (65535 : UInt64).toNat = 65535 := rfl
      omega

theorem trim_valueText (h : Printable cfg) (k : ConfigKey) :
    trim (cfg.valueText k) = cfg.valueText k := by
  cases k with
  | logLevel =>
    rw [HgConfig.valueText]
    cases cfg.logLevel <;> decide
  | portalMode =>
    rw [HgConfig.valueText]
    cases cfg.portalMode <;> decide
  | ifaceName => exact h.ifaceName
  | portalIp => exact h.portalIp
  | gatewayFqdn => exact h.gatewayFqdn
  | httpPort | sessionTimeout | maxClients | uRate | dRate | quota => exact trim_decimal _

/-- The text of a field is converted to it. -/
theorem parse_valueText (hvalid : cfg.isValid = true) (h : Printable cfg) (k : ConfigKey) :
    k.parse (cfg.valueText k) = some (cfg.get k) := by
  have hport : cfg.httpPort ≠ 0 := by
    simp only [HgConfig.isValid, Bool.and_eq_true, decide_eq_true_eq] at hvalid
    exact hvalid.1.1.1.1.2
  cases k with
  | logLevel =>
    rw [HgConfig.valueText, HgConfig.get]
    cases cfg.logLevel <;> decide
  | portalMode =>
    rw [HgConfig.valueText, HgConfig.get]
    cases cfg.portalMode <;> decide
  | ifaceName | gatewayFqdn => rfl
  | portalIp =>
    rw [HgConfig.valueText, ConfigKey.parse, if_pos h.address]
    rfl
  | httpPort => exact parseHttpPort_toNat hport
  | sessionTimeout | quota => exact stoull_toNat _
  | maxClients | uRate | dRate => exact stoulU32_toNat _

theorem keyWord_key (k : ConfigKey) : KeyWord k.text := by
  cases k
  all_goals exact ⟨by decide, by decide, _, _, rfl, by decide, by decide⟩

theorem keyWord_list (i : ConfigList) : KeyWord i.text := by
  cases i
  all_goals exact ⟨by decide, by decide, _, _, rfl, by decide, by decide⟩

theorem ofText_text (k : ConfigKey) : ConfigKey.ofText k.text = some k := by
  cases k <;> decide

theorem preauthList_text {i : ConfigList} (h : i ≠ .walledGardenIps) :
    preauthList i.text = some i := by
  cases i with
  | walledGardenIps => exact absurd rfl h
  | preauthL2 | preauthL3 | preauthL4 => rfl

/-- The lines of the keys put the fields. -/
theorem readUpdates_topLevel (hvalid : cfg.isValid = true) (h : Printable cfg)
    {keys : List ConfigKey} {top : List (List Char)} (htop : TopLevel cfg keys top) :
    readUpdates [] top = (keys.map fun k => .set k (cfg.get k), some []) := by
  refine readUpdates_forall₂ (List.forall₂_map_left_iff.mpr (htop.lines.imp ?_))
  rintro k line ⟨value, hvalue, hassign⟩
  rw [lineMeaning_assignment (keyWord_key k) hassign, hvalue.trim_eq (trim_valueText h k),
    assignMeaning, if_neg (by decide), if_neg (by decide), ofText_text]
  dsimp only [keyMeaning]
  rw [parse_valueText hvalid h k]

/-- The lines of the protocols append their parts. -/
theorem readUpdates_preauth (h : Printable cfg) {parts : List (ConfigList × List (List Char))}
    {header : List Char} {lines : List (List Char)} (hpre : PreauthLines cfg parts header lines)
    (sec : List Char) :
    readUpdates sec (header :: lines) = (preauthUpdates parts, some preauthSection) := by
  have hparts : ∀ part ∈ parts, part.1 ≠ .walledGardenIps ∧ ∀ name ∈ part.2, ListName name := by
    refine fun part hpart => ⟨hpre.preauth part hpart, fun name hname => ?_⟩
    refine h.names part.1 (hpre.preauth part hpart) name ?_
    rw [← hpre.names part.1 (hpre.preauth part hpart), List.mem_flatMap]
    exact ⟨part, hpart, by rwa [if_pos rfl]⟩
  rw [readUpdates, lineMeaning_header (by decide) (by decide) hpre.header]
  have hlines := (List.forall₂_and_left parts lines).mpr ⟨hparts, hpre.lines⟩
  refine readUpdates_forall₂ (List.forall₂_map_left_iff.mpr (hlines.imp ?_))
  rintro part line ⟨⟨hne, hpart⟩, value, hvalue, hassign⟩
  rw [lineMeaning_assignment (keyWord_list part.1) hassign, assignMeaning, if_pos rfl,
    preauthList_text hne, splitCsv_trim, splitCsv_nameList hvalue hpart]

/-- The lines of the walled garden append its entries. -/
theorem readUpdates_garden (h : Printable cfg) {header : List Char} {lines : List (List Char)}
    (hgarden : GardenLines cfg header lines) (sec : List Char) :
    readUpdates sec (header :: lines) =
      (gardenUpdates cfg.walledGardenIps, some walledGardenSection) := by
  rw [readUpdates, lineMeaning_header (by decide) (by decide) hgarden.header]
  have hlines := (List.forall₂_and_left cfg.walledGardenIps lines).mpr
    ⟨h.gardenIps, hgarden.lines⟩
  refine readUpdates_forall₂ (List.forall₂_map_left_iff.mpr (hlines.imp ?_))
  rintro ip line ⟨⟨hne, htrim⟩, value, hvalue, hassign⟩
  rw [lineMeaning_assignment (keyWord_list .walledGardenIps) hassign, hvalue.trim_eq htrim,
    assignMeaning, if_neg (by decide), if_pos rfl, if_pos (by rfl), gardenItems, if_neg hne]

theorem appended_preauthUpdates {parts : List (ConfigList × List (List Char))}
    {header : List Char} {lines : List (List Char)} (hpre : PreauthLines cfg parts header lines)
    (i : ConfigList) :
    appended i (preauthUpdates parts) = if i = .walledGardenIps then [] else cfg.list i := by
  have hflat : appended i (preauthUpdates parts) =
      parts.flatMap fun part => if part.1 = i then part.2 else [] := by
    rw [appended, preauthUpdates, List.flatMap_map]
    rfl
  rw [hflat]
  split
  · next hi =>
    subst hi
    rw [List.flatMap_eq_nil_iff]
    exact fun part hpart => if_neg (hpre.preauth part hpart)
  · next hi => exact hpre.names i hi

theorem appended_gardenUpdates (i : ConfigList) :
    appended i (gardenUpdates cfg.walledGardenIps) =
      if i = .walledGardenIps then cfg.list i else [] := by
  rw [appended, gardenUpdates, List.flatMap_map]
  split
  · next hi =>
    subst hi
    simp [Update.itemsFor, HgConfig.list]
  · next hi => simp [Update.itemsFor, Ne.symm hi]

/-- The keys, each with its value, and the lists make up the configuration. -/
theorem run_init_eq {keys : List ConfigKey} (hall : ∀ k, k ∈ keys)
    {us : List ConfigUpdate} (hset : ∀ k, ∀ u ∈ us, u.valueFor k = none)
    (happended : ∀ i, appended i us = cfg.list i) :
    configFields.run .init (keys.map (fun k => (.set k (cfg.get k) : ConfigUpdate)) ++ us) = cfg := by
  rw [configFields.run_eq_iff]
  constructor
  · intro k
    rw [lastSet_append, lastSet_eq_none (hset k), Option.none_or,
      lastSet_map_set (fun k => cfg.get k) (hall k)]
    rfl
  · intro i
    have hinit : configFields.list i .init = [] := by cases i <;> rfl
    have hkeys : appended i (keys.map fun k => (.set k (cfg.get k) : ConfigUpdate)) = [] := by
      simp [appended, List.flatMap_map]
    rw [hinit, appended_append, hkeys, happended i]
    rfl

/-- The sections lengthen the empty lists to those of the configuration, in either order. -/
theorem run_sections {keys : List ConfigKey} (hall : ∀ k, k ∈ keys)
    {parts : List (ConfigList × List (List Char))} {header : List Char} {lines : List (List Char)}
    (hpre : PreauthLines cfg parts header lines) {us : List ConfigUpdate}
    (hus : us = preauthUpdates parts ++ gardenUpdates cfg.walledGardenIps ∨
      us = gardenUpdates cfg.walledGardenIps ++ preauthUpdates parts) :
    configFields.run .init (keys.map (fun k => (.set k (cfg.get k) : ConfigUpdate)) ++ us) = cfg := by
  have hparts : ∀ k, ∀ u ∈ preauthUpdates parts, u.valueFor k = none := by
    intro k u hu
    obtain ⟨part, -, rfl⟩ := List.mem_map.mp hu
    rfl
  have hips : ∀ k, ∀ u ∈ gardenUpdates cfg.walledGardenIps, u.valueFor k = none := by
    intro k u hu
    obtain ⟨ip, -, rfl⟩ := List.mem_map.mp hu
    rfl
  refine run_init_eq hall (fun k u hu => ?_) fun i => ?_
  · rcases hus with rfl | rfl
    · exact (List.mem_append.mp hu).elim (hparts k u) (hips k u)
    · exact (List.mem_append.mp hu).elim (hips k u) (hparts k u)
  · rcases hus with rfl | rfl
    all_goals
      rw [appended_append, appended_preauthUpdates hpre, appended_gardenUpdates]
      split
      · simp
      · simp

/-- A valid configuration is what `load_config` makes of any file that states it. -/
theorem loadConfig_states {text : List Char} (hvalid : cfg.isValid = true)
    (hprint : Printable cfg) (h : States cfg text) : loadConfig text = some cfg := by
  obtain ⟨keys, top, parts, preauthHeader, preauth, gardenHeader, garden, htop, hpre, hgarden,
    horder⟩ := h
  have hread : ∃ us sec, readUpdates [] (text.splitOn '\n') =
      (keys.map (fun k => .set k (cfg.get k)) ++ us, some sec) ∧
        (us = preauthUpdates parts ++ gardenUpdates cfg.walledGardenIps ∨
          us = gardenUpdates cfg.walledGardenIps ++ preauthUpdates parts) := by
    have htopRead := readUpdates_topLevel hvalid hprint htop
    rw [readUpdates_filter]
    rcases horder with heq | heq
    · rw [heq, readUpdates_append htopRead,
        readUpdates_append (readUpdates_preauth hprint hpre _), readUpdates_garden hprint hgarden]
      exact ⟨_, _, rfl, Or.inl rfl⟩
    · rw [heq, readUpdates_append htopRead,
        readUpdates_append (readUpdates_garden hprint hgarden _), readUpdates_preauth hprint hpre]
      exact ⟨_, _, rfl, Or.inr rfl⟩
  obtain ⟨us, sec, hread, hus⟩ := hread
  rw [loadConfig_eq, loadInto_eq_finish, hread, finish, run_sections htop.all hpre hus, hvalid]
  rfl

end

theorem forall₂_of_map_eq {α β γ : Type} {f : α → γ} {g : β → γ} {as : List α} {bs : List β}
    (h : as.map f = bs.map g) : List.Forall₂ (fun a b => f a = g b) as bs := by
  have hmap : List.Forall₂ (· = ·) (as.map f) (bs.map g) := by
    rw [List.forall₂_eq_eq_eq]
    exact h
  rwa [List.forall₂_map_left_iff, List.forall₂_map_right_iff] at hmap

/-- A configuration with protocols and an open address. -/
def stationConfig : HgConfig where
  logLevel := .warning
  ifaceName := "br0".toList
  httpPort := 2050
  portalIp := "10.0.0.1".toList
  sessionTimeout := 3600
  maxClients := 64
  gatewayFqdn := "gate".toList
  uRate := 512
  dRate := 0
  quota := 0
  portalMode := .externalUrl
  preauthL2 := ["arp".toList]
  preauthL3 := []
  preauthL4 := ["dns".toList, "dhcp".toList, "ntp".toList]
  walledGardenIps := ["10.9.0.0/16".toList]

/-- A file for it, with the garden first and a list on two lines. -/
def stationTop : List (List Char) :=
  ["quota=0".toList, "d_rate = 0".toList, "u_rate\t= 512".toList, "log_level = warning".toList,
    " iface_name = br0 ".toList, "http_port = 2050".toList, "portal_ip = 10.0.0.1".toList,
    "session_timeout = 3600".toList, "max_clients = 64".toList, "gateway_fqdn = gate".toList,
    "portal_mode = external_url".toList]

def stationGarden : List (List Char) := ["ip = 10.9.0.0/16".toList]

def stationPreauth : List (List Char) :=
  ["l4 = dns , dhcp".toList, "l2 = arp".toList, "l4=ntp".toList]

def stationFile : List (List Char) :=
  "# HawkGate".toList :: stationTop ++ "  ".toList :: "[walled_garden]".toList :: stationGarden ++
    "#ip = 10.8.0.1".toList :: "[ preauth-protocol ]".toList :: stationPreauth

theorem loadConfig_states_station :
    loadConfig (['\n'].intercalate stationFile) = some stationConfig := by
  have hkeys : ∀ k : ConfigKey, k ∈ [ConfigKey.quota, .dRate, .uRate, .logLevel, .ifaceName,
      .httpPort, .portalIp, .sessionTimeout, .maxClients, .gatewayFqdn, .portalMode] := by
    intro k
    cases k <;> decide
  have htop : List.Forall₂
      (fun (k : ConfigKey) line => some (k.text, stationConfig.valueText k) = lineFields line)
      [.quota, .dRate, .uRate, .logLevel, .ifaceName, .httpPort, .portalIp, .sessionTimeout,
        .maxClients, .gatewayFqdn, .portalMode] stationTop := forall₂_of_map_eq (by decide +kernel)
  have hpre : List.Forall₂
      (fun (part : ConfigList × List (List Char)) line =>
        some (part.1.text, part.2) = lineNames line)
      [(.preauthL4, ["dns".toList, "dhcp".toList]), (.preauthL2, ["arp".toList]),
        (.preauthL4, ["ntp".toList])] stationPreauth := forall₂_of_map_eq (by decide +kernel)
  have hgarden : List.Forall₂
      (fun ip line => some (ConfigList.walledGardenIps.text, ip) = lineFields line)
      stationConfig.walledGardenIps stationGarden := forall₂_of_map_eq (by decide +kernel)
  have hnames : ∀ i, i ≠ .walledGardenIps → ∀ name ∈ stationConfig.list i, ListName name := by
    intro i hi
    cases i with
    | walledGardenIps => exact absurd rfl hi
    | preauthL2 | preauthL3 | preauthL4 => decide
  refine loadConfig_states (by decide) ⟨by decide, by decide, by decide, by decide, hnames,
    by decide⟩ ⟨_, _, _, "[ preauth-protocol ]".toList, _, "[walled_garden]".toList, _,
      ⟨hkeys, htop.imp fun _ _ => assignment_of_lineFields⟩,
      ⟨⟨" preauth-protocol ".toList, [], padded_trim _, rfl⟩, by decide, ?_,
        hpre.imp fun _ _ => assignment_of_lineNames⟩,
      ⟨⟨walledGardenSection, [], padded_trim walledGardenSection, rfl⟩,
        hgarden.imp fun _ _ => assignment_of_lineFields⟩, Or.inr ?_⟩
  · intro i hi
    cases i with
    | walledGardenIps => exact absurd rfl hi
    | preauthL2 | preauthL3 | preauthL4 => rfl
  · decide

end HawkGate
