-- SUMMARY: The hgctl actions that change sessions: `add_action`, `del_action` and `map_del_action`.
import HawkGate.Control.Sys
import HawkGate.Lib.CString

/-!
# Actions

The actions of `hg_control.c` as programs over system calls. An action that
has stages is split into them, in the order of the source. Texts that are only
printed are left out.
-/

namespace HawkGate

open CString

variable {ncpu : Nat}

/-- `sscanf` of a MAC address into a zeroed key. -/
def scanMacKey (s : CString) : Option HgMacKey := (scanMac s).map HgMacKey.mk

/-- Close a map if it was opened. -/
def closeIf (opened : Bool) (map : MapName) : Tool ncpu Unit :=
  if opened then sys (.close map) else pure ()

theorem run_closeIf (env : SysEnv) (s : HgMaps ncpu) (opened : Bool) (map : MapName) :
    (closeIf opened map).run env s = ((), s) := by
  cases opened <;> rfl

/-! ## add_action -/

/-- The MAC and IP of an add: both given, or one given and the other looked up in
    the binding maps. -/
def addTarget (mac ip : Option CString) : Tool ncpu (Option (HgMacKey × IpAddr)) :=
  match mac, ip with
  | some mac, some ip => pure <| (scanMacKey mac).bind fun m => (inetPton ip).map fun a => (m, a)
  | some mac, none =>
    match scanMacKey mac with
    | none => pure none
    | some m => do
      if ← sys (.objGet .hgMacIp) then
        let a ← sys (.lookupMacIp m)
        sys (.close .hgMacIp)
        pure (a.map fun a => (m, a))
      else pure none
  | none, some ip =>
    match inetPton ip with
    | none => pure none
    | some a => do
      if ← sys (.objGet .hgIpMac) then
        let m ← sys (.lookupIpMac a)
        sys (.close .hgIpMac)
        pure (m.map fun m => (m, a))
      else pure none
  | none, none => pure none

/-- The session entry written by an add at time `now`. -/
def addClientVal (now : UInt64) (expire idle : Int64) (rateId : UInt32) : HgClient where
  expiryNs := if 0 < expire then now + expire.toUInt64 * nsecPerSec else 0
  idleNs := if 0 < idle then idle.toUInt64 * nsecPerSec else 0
  authNs := now
  rateLimitId := rateId
  lastUTstamp := now
  lastDTstamp := now

/-- The rate profile written by an add. -/
def addRateVal (dLimit uLimit : UInt64) : HgRateCfg where
  rateBpsD := kbitToBps dLimit
  rateBpsU := kbitToBps uLimit
  horizonNs := hgHorizonNs

/-- The writes of an add: client, counter, rate. A failed rate insert only warns. -/
def addWrite (m : HgMacKey) (ip : IpAddr) (clientVal : HgClient) (rateVal : HgRateCfg) :
    Tool ncpu Status := do
  if ← sys (.updateClient m clientVal) then
    if ← sys .calloc then
      if ← sys (.updateCounter ip fun _ => HgCounter.zero) then
        let _ ← sys (.updateRate clientVal.rateLimitId rateVal)
        pure .success
      else
        let _ ← sys (.deleteClient m)
        pure .failed
    else
      let _ ← sys (.deleteClient m)
      pure .failed
  else pure .failed

/-- Open the three maps, write, close. -/
def addInstall (m : HgMacKey) (ip : IpAddr) (clientVal : HgClient) (rateVal : HgRateCfg) :
    Tool ncpu Status := do
  let clientFd ← sys (.objGet .hgClients)
  let counterFd ← sys (.objGet .hgCounters)
  let rateFd ← sys (.objGet .hgRates)
  if clientFd && counterFd && rateFd then
    let st ← addWrite m ip clientVal rateVal
    sys (.close .hgClients)
    sys (.close .hgCounters)
    sys (.close .hgRates)
    pure st
  else
    closeIf clientFd .hgClients
    closeIf counterFd .hgCounters
    closeIf rateFd .hgRates
    pure .failed

/-- The arguments of `add_action`. -/
structure AddArgs where
  mac : Option CString
  ip : Option CString
  expire : Int64
  idle : Int64
  dLimit : UInt64
  uLimit : UInt64
  rateId : UInt32

def addAction (a : AddArgs) : Tool ncpu Status := do
  match ← addTarget a.mac a.ip with
  | none => pure .failed
  | some (m, ip) =>
    let ts ← sys (.clockGettime .monotonic)
    addInstall m ip (addClientVal ts.toNs a.expire a.idle a.rateId) (addRateVal a.dLimit a.uLimit)

/-! ## del_action -/

/-- Delete the rate profile of a client, while its entry still names it. -/
def delRate (m : HgMacKey) : Tool ncpu Unit := do
  match ← sys (.lookupClient m) with
  | none => pure ()
  | some val =>
    if ← sys (.objGet .hgRates) then
      let _ ← sys (.deleteRate val.rateLimitId)
      sys (.close .hgRates)
    else pure ()

/-- Delete the counter of the address that a client is bound to now. -/
def delCounter (m : HgMacKey) : Tool ncpu Unit := do
  if ← sys (.objGet .hgMacIp) then
    match ← sys (.lookupMacIp m) with
    | none => sys (.close .hgMacIp)
    | some ip =>
      let _ ← sys (.deleteCounter ip)
      sys (.close .hgMacIp)
  else pure ()

/-- Rate, client, counter, in this order. -/
def delEntries (m : HgMacKey) : Tool ncpu Unit := do
  delRate m
  let _ ← sys (.deleteClient m)
  delCounter m

def delAction (mac : CString) : Tool ncpu Status :=
  match scanMacKey mac with
  | none => pure .failed
  | some m => do
    let clientFd ← sys (.objGet .hgClients)
    let counterFd ← sys (.objGet .hgCounters)
    if clientFd && counterFd then
      delEntries m
      sys (.close .hgClients)
      sys (.close .hgCounters)
      pure .success
    else
      closeIf clientFd .hgClients
      closeIf counterFd .hgCounters
      pure .failed

/-- A MAC address as colon-separated text. -/
def macToStr (k : HgMacKey) : CString := macText k.mac

theorem scanMacKey_macToStr (k : HgMacKey) : scanMacKey (macToStr k) = some k := by
  rw [scanMacKey, macToStr, scanMac_macText]
  rfl

/-- The MAC bound to an address, as text. -/
def resolveIpToMac (ip : CString) : Tool ncpu (Option CString) :=
  match inetPton ip with
  | none => pure none
  | some a => do
    if ← sys (.objGet .hgIpMac) then
      let m ← sys (.lookupIpMac a)
      sys (.close .hgIpMac)
      pure (m.map macToStr)
    else pure none

/-! ## map_del_action -/

/-- The file names under the pin directory. -/
def MapName.text : MapName → CString
  | .hgClients => "hg_clients".toList
  | .hgRates => "hg_rates".toList
  | .hgProto => "hg_proto".toList
  | .hgL2Allow => "hg_l2_allow".toList
  | .hgCounters => "hg_counters".toList
  | .hgIfbIdx => "hg_ifb_idx".toList
  | .hgPortalCfg => "hg_portal_cfg".toList
  | .hgConntrack => "hg_conntrack".toList
  | .hgMacIp => "hg_mac_ip".toList
  | .hgIpMac => "hg_ip_mac".toList
  | .hgBypass => "hg_bypass".toList
  | .hgWalledGarden => "hg_walled_garden".toList

def MapName.all : List MapName :=
  [.hgClients, .hgRates, .hgProto, .hgL2Allow, .hgCounters, .hgIfbIdx, .hgPortalCfg, .hgConntrack,
    .hgMacIp, .hgIpMac, .hgBypass, .hgWalledGarden]

/-- The pinned map of a file name. -/
def MapName.ofText (name : CString) : Option MapName :=
  MapName.all.find? fun map => map.text = name

theorem MapName.text_of_ofText {name : CString} {map : MapName} (h : MapName.ofText name = some map) :
    map.text = name := by
  simpa using List.find?_some h

/-- `(__u16)atoi(s)`. -/
def atoiU16 (s : CString) : UInt16 := (atoi s).toUInt32.toUInt16

/-- `(__u8)atoi(s)`. -/
def atoiU8 (s : CString) : UInt8 := (atoi s).toUInt32.toUInt8

/-- A port number is read as its value. -/
theorem atoiU16_of_integerText {s : CString} {n : Nat} (hs : IntegerText DecimalText s n)
    (h : n < 65536) : atoiU16 s = UInt16.ofNat n := by
  have hval : strtol10 s = n := by
    rw [hs.strtol10_eq]
    omega
  rw [atoiU16, atoi, hval, Int32.ofInt_eq_ofNat, Int32.toUInt32_ofNat', UInt32.toUInt16_ofNat']

/-- A printed port is read back as the number it denotes. -/
theorem atoiU16_decimal {n : Nat} (h : n < 65536) : atoiU16 (decimal n) = UInt16.ofNat n :=
  atoiU16_of_integerText (decimalText_decimal n).integerText h

/-- The status of a deletion. -/
def removed (ok : Bool) : Status := if ok then .success else .failed

/-- Key format `ip:port`. -/
def mapDelConntrack (keySpec : CString) : Tool ncpu Status :=
  match splitFirst ':' keySpec with
  | none => pure .failed
  | some (ipText, portText) =>
    if 16 ≤ ipText.length then pure .failed
    else
      match inetPton ipText with
      | none => pure .failed
      | some ip => do
        let ok ← sys (.deleteConntrack ⟨ip, atoiU16 portText⟩)
        pure (removed ok)

/-- Key format `aa:bb:cc:dd:ee:ff`. -/
def mapDelClient (keySpec : CString) : Tool ncpu Status :=
  match scanMacKey keySpec with
  | none => pure .failed
  | some m => do
    let ok ← sys (.deleteClient m)
    pure (removed ok)

/-- Key format `proto:sport:dport`, split by `strtok`. -/
def mapDelProto (keySpec : CString) : Tool ncpu Status :=
  match ((keySpec.take 31).splitOn ':').filter (· ≠ []) with
  | p :: s :: d :: _ => do
    let ok ← sys (.deleteProto ⟨atoiU8 p, atoiU16 s, atoiU16 d⟩)
    pure (removed ok)
  | _ => pure .failed

/-- The key formats that `map-del` supports. -/
def mapDelKey (map : MapName) (keySpec : CString) : Tool ncpu Status :=
  match map with
  | .hgConntrack => mapDelConntrack keySpec
  | .hgClients => mapDelClient keySpec
  | .hgProto => mapDelProto keySpec
  | _ => pure .failed

def mapDelAction (mapName keySpec : CString) : Tool ncpu Status :=
  match MapName.ofText mapName with
  | none => pure .failed
  | some map => do
    if ← sys (.objGet map) then
      let st ← mapDelKey map keySpec
      sys (.close map)
      pure st
    else pure .failed

end HawkGate
