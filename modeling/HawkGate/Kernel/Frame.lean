-- SUMMARY: Packet headers as the TC programs read them, and the classification of a frame.
import HawkGate.Kernel.Common

/-!
# Frames

The header accessors and `filter_proto` of `hg_tc.bpf.h`. A frame is the linear
part of the packet, from `skb->data` to `skb->data_end`.
-/

namespace HawkGate

open Bytes

/-! ## Header layout -/

def ethPIp : UInt16 := 0x0800
def ipprotoTcp : UInt8 := 6
def ipprotoUdp : UInt8 := 17

def ethHLen : Nat := 14
def ipHLen : Nat := 20
def udpHLen : Nat := 8
def tcpHLen : Nat := 20

/-- The packet a TC program is called with: its linear data and its length. -/
structure SkBuff where
  data : Bytes
  len : UInt32

namespace Frame

/-- EtherType in host order. -/
def ethProto (d : Bytes) : UInt16 := swap16 (load16 d 12)

def hSource (d : Bytes) : HgMacKey := ⟨Vector.ofFn fun i => load8 d (6 + i)⟩

/-- Header length in 32-bit words. -/
def ihl (d : Bytes) : Nat := (load8 d ethHLen).toNat % 16

def protocol (d : Bytes) : UInt8 := load8 d (ethHLen + 9)

def saddr (d : Bytes) : IpAddr := load32 d (ethHLen + 12)

def daddr (d : Bytes) : IpAddr := load32 d (ethHLen + 16)

/-- Offset of the L4 header behind an IP header of the stated length. -/
def l4Off (d : Bytes) : Nat := ethHLen + 4 * ihl d

/-- Source port field in network order. -/
def source (d : Bytes) : UInt16 := load16 d (l4Off d)

/-- Destination port field in network order. -/
def dest (d : Bytes) : UInt16 := load16 d (l4Off d + 2)

end Frame

open HawkGate.Frame

/-! ## Classification -/

/-- The results of `filter_proto` with what it extracts. `PROTO_L3_ONLY` is
    returned only without a key, which no caller does. -/
inductive ProtoResult where
  | l2Only (ethProto : UInt16)
  | l3Ok (key : HgAllowKey)
  | invalid
  deriving DecidableEq

/-- Extract the ports of a UDP or TCP header; `none` if it is truncated. -/
def parseUdpTcp (d : Bytes) (key : HgAllowKey) : Option HgAllowKey :=
  if protocol d = ipprotoUdp then
    if d.length < l4Off d + udpHLen then none
    else some { key with sPort := swap16 (source d), dPort := swap16 (dest d) }
  else if protocol d = ipprotoTcp then
    if d.length < l4Off d + tcpHLen then none
    else some { key with sPort := swap16 (source d), dPort := swap16 (dest d) }
  else some key

def filterProto (d : Bytes) : ProtoResult :=
  if d.length < ethHLen then .invalid
  else if ethProto d ≠ ethPIp then .l2Only (ethProto d)
  else if d.length < ethHLen + ipHLen then .invalid
  else
    match parseUdpTcp d { proto := protocol d, sPort := 0, dPort := 0 } with
    | none => .invalid
    | some key => .l3Ok key

/-- The locally administered address 02:00:00:00:00:`n`. -/
def localMac (n : UInt8) : HgMacKey := ⟨#v[2, 0, 0, 0, 0, n]⟩

/-- A TCP frame from `m` without IP options or payload; the ports are in host order. -/
def tcpFrame (m : HgMacKey) (saddr daddr : IpAddr) (sPort dPort : UInt16) : Bytes :=
  List.replicate 6 0 ++ m.mac.toList ++ [0x08, 0x00]
    ++ [0x45, 0, 0, 40, 0, 0, 0, 0, 64, 6, 0, 0] ++ ofU32 saddr ++ ofU32 daddr
    ++ ofU16 (swap16 sPort) ++ ofU16 (swap16 dPort)
    ++ [0, 0, 0, 0, 0, 0, 0, 0, 0x50, 0x10, 0, 0, 0, 0, 0, 0]

/-- A frame comes from the client that it was built for. -/
theorem hSource_tcpFrame (m : HgMacKey) (saddr daddr : IpAddr) (sPort dPort : UInt16) :
    hSource (tcpFrame m saddr daddr sPort dPort) = m := by
  obtain ⟨mac⟩ := m
  rw [hSource]
  congr 1
  refine Vector.ext fun i hi => ?_
  rw [Vector.getElem_ofFn, load8, tcpFrame]
  simp only [List.append_assoc, List.getD_eq_getElem?_getD]
  rw [List.getElem?_append_right (by simp), List.getElem?_append_left (by simpa using hi)]
  simp [hi]

/-! ## What a classified frame looks like -/

theorem parseUdpTcp_proto {d : Bytes} {key key' : HgAllowKey} (h : parseUdpTcp d key = some key') :
    key'.proto = key.proto := by
  unfold parseUdpTcp at h
  split at h
  · split at h
    · cases h
    · obtain rfl := Option.some.inj h
      rfl
  · split at h
    · split at h
      · cases h
      · obtain rfl := Option.some.inj h
        rfl
    · obtain rfl := Option.some.inj h
      rfl

/-- A frame classified as IP has an IPv4 EtherType and room for an IP header, and
    its key carries the protocol field. -/
theorem filterProto_l3Ok {d : Bytes} {key : HgAllowKey} (h : filterProto d = .l3Ok key) :
    ethProto d = ethPIp ∧ ethHLen + ipHLen ≤ d.length ∧ key.proto = protocol d := by
  unfold filterProto at h
  split at h
  · cases h
  · split at h
    · cases h
    · next heth =>
      split at h
      · cases h
      · next hlen =>
        split at h
        · cases h
        · next k hk =>
          obtain rfl := ProtoResult.l3Ok.inj h
          exact ⟨not_not.mp heth, Nat.le_of_not_lt hlen, parseUdpTcp_proto hk⟩

/-- A TCP frame that is classified as IP has room for a TCP header behind the IP
    header, and its key carries the ports found there. -/
theorem filterProto_l3Ok_tcp {d : Bytes} {key : HgAllowKey} (h : filterProto d = .l3Ok key)
    (htcp : protocol d = ipprotoTcp) :
    l4Off d + tcpHLen ≤ d.length ∧ key.sPort = swap16 (source d) ∧
      key.dPort = swap16 (dest d) := by
  have hudp : ¬ protocol d = ipprotoUdp := by rw [htcp]; decide
  unfold filterProto at h
  split at h
  · cases h
  · split at h
    · cases h
    · split at h
      · cases h
      · rw [parseUdpTcp, if_neg hudp, if_pos htcp] at h
        split at h
        · next hk =>
          split at hk
          · cases h
          · cases hk
        · next k hk =>
          split at hk
          · cases hk
          · next hlen =>
            obtain rfl := ProtoResult.l3Ok.inj h
            obtain rfl := Option.some.inj hk
            exact ⟨Nat.le_of_not_lt hlen, rfl, rfl⟩

/-- An IPv4 frame is never classified by its EtherType alone. -/
theorem filterProto_ne_l2Only {d : Bytes} {p : UInt16} (h : ethProto d = ethPIp) :
    filterProto d ≠ .l2Only p := by
  unfold filterProto
  split
  · simp
  · rw [if_neg (not_not.mpr h)]
    split
    · simp
    · split <;> simp

end HawkGate
