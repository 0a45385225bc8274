-- SUMMARY: The data shared by the datapath and user space: map keys and values, the map contents, and constants.
import HawkGate.Lib.BoundedMap
import HawkGate.Lib.Bytes

/-!
# Shared data

The structures of `hg_common.h` and the contents of the pinned BPF maps. The
padding fields of the map keys are left out: every writer zeroes the whole key
first, so that comparing the remaining fields is comparing the bytes.
Addresses and ports that the C comments call "network order" are the words a
little-endian host loads from the packet.
-/

namespace HawkGate

/-! ## Constants -/

def nsecPerSec : UInt64 := 1000000000

/-- 100 ms burst depth. -/
def hgHorizonNs : UInt64 := 100000000

/-- Conntrack entries older than 120 s are ignored. -/
def hgCtTimeoutNs : UInt64 := 120000000000

/-- kbit/s to bytes/s. -/
def kbitToBps (kb : UInt64) : UInt64 := kb * 1000 / 8

/-- bytes/s to kbit/s. -/
def bpsToKbit (b : UInt64) : UInt64 := b * 8 / 1000

theorem toNat_kbitToBps (kb : UInt64) : (kbitToBps kb).toNat = kb.toNat * 1000 % 2 ^ 64 / 8 := by
  rw [kbitToBps, UInt64.toNat_div, UInt64.toNat_mul]
  rfl

theorem toNat_bpsToKbit (b : UInt64) : (bpsToKbit b).toNat = b.toNat * 8 % 2 ^ 64 / 1000 := by
  rw [bpsToKbit, UInt64.toNat_div, UInt64.toNat_mul]
  rfl

inductive ClientStatus where
  | authOk | expire | block | idle
  deriving DecidableEq

/-- The value of `enum client_status` that the counters store. -/
def ClientStatus.code : ClientStatus → UInt32
  | .authOk => 0
  | .expire => 1
  | .block => 2
  | .idle => 3

/-- An IPv4 address in network byte order. -/
abbrev IpAddr := UInt32

/-! ## Map keys and values -/

/-- Accounting of one CPU. -/
structure HgCounter where
  uPackets : UInt64
  uBytes : UInt64
  dPackets : UInt64
  dBytes : UInt64
  lastSeen : UInt64
  state : UInt32
  deriving DecidableEq

/-- The zeroed counter that `calloc` provides. -/
def HgCounter.zero : HgCounter := ⟨0, 0, 0, 0, 0, 0⟩

structure HgRateCfg where
  rateBpsD : UInt64
  rateBpsU : UInt64
  horizonNs : UInt64
  deriving DecidableEq

structure HgMacKey where
  mac : Vector UInt8 6
  deriving DecidableEq

/-- Session and EDT state of a client. The spin lock and the superseded phase-1
    accounting fields carry no data that is read. -/
structure HgClient where
  /-- Absolute expiry on the monotonic clock; 0 means never. -/
  expiryNs : UInt64
  idleNs : UInt64
  authNs : UInt64
  rateLimitId : UInt32
  lastUTstamp : UInt64
  lastDTstamp : UInt64
  deriving DecidableEq

/-- The all-zero client that the reader starts from. -/
def HgClient.zero : HgClient := ⟨0, 0, 0, 0, 0, 0⟩

structure HgWgKey where
  prefixlen : UInt32
  ip : IpAddr
  deriving DecidableEq

structure HgAllowKey where
  proto : UInt8
  sPort : UInt16
  dPort : UInt16
  deriving DecidableEq

structure HgPortalCfg where
  portalIp : IpAddr
  portalPort : UInt16
  deriving DecidableEq

structure HgCtKey where
  clientIp : IpAddr
  clientPort : UInt16
  deriving DecidableEq

structure HgCtVal where
  origDstIp : IpAddr
  origDstPort : UInt16
  createdNs : UInt64
  deriving DecidableEq

/-- The portal of the default configuration, 192.168.99.1:2050. -/
def HgPortalCfg.standard : HgPortalCfg where
  portalIp := Bytes.addrOfOctets 192 168 99 1
  portalPort := Bytes.swap16 2050

/-! ## The maps -/

/-- The contents of the pinned maps on a host with `ncpu` possible CPUs. A
    counter entry holds one `HgCounter` for each CPU. The two one-element arrays
    are options because the programs check their lookups for NULL. -/
structure HgMaps (ncpu : Nat) where
  clients : BoundedMap HgMacKey HgClient 4096
  counters : BoundedMap IpAddr (Fin ncpu → HgCounter) 4096
  rates : BoundedMap UInt32 HgRateCfg 256
  proto : BoundedMap HgAllowKey UInt8 64
  l2Allow : BoundedMap UInt16 UInt8 16
  ifbIdx : Option UInt32
  portalCfg : Option HgPortalCfg
  conntrack : BoundedMap HgCtKey HgCtVal 512
  macIp : BoundedMap HgMacKey IpAddr 4096
  ipMac : BoundedMap IpAddr HgMacKey 4096
  bypass : BoundedMap IpAddr UInt8 256
  walledGarden : BoundedMap HgWgKey UInt8 64

/-- The maps as `hgctl start` creates them, with the given portal and IFB. -/
def HgMaps.start (ncpu : Nat) (portal : HgPortalCfg) (ifb : UInt32) : HgMaps ncpu where
  clients := .empty
  counters := .empty
  rates := .empty
  proto := .empty
  l2Allow := .empty
  ifbIdx := some ifb
  portalCfg := some portal
  conntrack := .empty
  macIp := .empty
  ipMac := .empty
  bypass := .empty
  walledGarden := .empty

/-- The two addresses agree on their first `len` bits in network order. -/
def prefixAgree (len : UInt32) (a b : IpAddr) : Bool :=
  (Bytes.swap32 a).toNat / 2 ^ (32 - len.toNat) = (Bytes.swap32 b).toNat / 2 ^ (32 - len.toNat)

/-- Looking `{32, ip}` up in the LPM trie finds an entry. -/
def HgMaps.wgCovers {ncpu : Nat} (s : HgMaps ncpu) (ip : IpAddr) : Bool :=
  s.walledGarden.entries.any fun e => prefixAgree e.1.prefixlen e.1.ip ip

/-- The session of a client has run out at time `now`. -/
def HgClient.Expired (cs : HgClient) (now : UInt64) : Prop :=
  cs.expiryNs ≠ 0 ∧ cs.expiryNs < now

instance (cs : HgClient) (now : UInt64) : Decidable (cs.Expired now) :=
  inferInstanceAs (Decidable (_ ∧ _))

end HawkGate
