-- SUMMARY: When the classification of a frame can be trusted: its header length must be legal and it must not be a later fragment.
import HawkGate.Kernel.Frame

/-!
# Classification

`filter_proto` checks for the fixed part of the IP header and, for UDP and TCP,
for an L4 header at the stated header length. Neither the header length itself
nor the fragment offset is looked at, so ports may be read out of the IP header
or out of the payload of a fragment.
-/

namespace HawkGate

open Bytes HawkGate.Frame

namespace Frame

/-- Offset of a fragment in units of 8 bytes; 0 for a whole packet and a first fragment. -/
def fragOff (d : Bytes) : Nat := (swap16 (load16 d (ethHLen + 6))).toNat % 8192

/-- The buffer ends behind the UDP or TCP header at the stated header length. -/
def CompleteL4 (d : Bytes) : Prop :=
  (protocol d = ipprotoUdp ∧ l4Off d + udpHLen ≤ d.length) ∨
    (protocol d = ipprotoTcp ∧ l4Off d + tcpHLen ≤ d.length)

/-- UDP and TCP have ports. -/
def HasPorts (d : Bytes) : Prop := protocol d = ipprotoUdp ∨ protocol d = ipprotoTcp

instance (d : Bytes) : Decidable (HasPorts d) := inferInstanceAs (Decidable (_ ∨ _))

end Frame

/-- The reported ports are the fields of a complete L4 header behind the whole IP header of a
    packet that starts with it. -/
structure PortsGenuine (d : Bytes) (key : HgAllowKey) : Prop where
  complete : CompleteL4 d
  first : fragOff d = 0
  source : key.sPort = swap16 (Frame.source d)
  dest : key.dPort = swap16 (Frame.dest d)

/-- Only an IPv4 frame with a complete IP header of legal length is classified as IP, and
    the ports are genuine or not reported. -/
def ClassifiedSoundly (d : Bytes) : Prop :=
  ∀ key, filterProto d = .l3Ok key →
    (ethHLen ≤ d.length ∧ ethProto d = ethPIp ∧ 5 ≤ ihl d ∧ l4Off d ≤ d.length) ∧
      (PortsGenuine d key ∨ (key.sPort = 0 ∧ key.dPort = 0))

/-! ## Classified frames -/

/-- The key of a frame that is classified as IP. -/
def allowKeyOf (d : Bytes) : HgAllowKey :=
  if HasPorts d then ⟨protocol d, swap16 (source d), swap16 (dest d)⟩ else ⟨protocol d, 0, 0⟩

/-- The checks that `filter_proto` makes. -/
structure PassesChecks (d : Bytes) : Prop where
  eth : ethProto d = ethPIp
  ip : ethHLen + ipHLen ≤ d.length
  udp : protocol d = ipprotoUdp → l4Off d + udpHLen ≤ d.length
  tcp : protocol d = ipprotoTcp → l4Off d + tcpHLen ≤ d.length

theorem parseUdpTcp_eq_some_iff (d : Bytes) (key : HgAllowKey) :
    parseUdpTcp d ⟨protocol d, 0, 0⟩ = some key ↔
      (protocol d = ipprotoUdp → l4Off d + udpHLen ≤ d.length) ∧
        (protocol d = ipprotoTcp → l4Off d + tcpHLen ≤ d.length) ∧ key = allowKeyOf d := by
  rw [parseUdpTcp, allowKeyOf]
  by_cases hudp : protocol d = ipprotoUdp
  · have htcp : ¬ protocol d = ipprotoTcp := by
      rw [hudp]
      decide
    simp only [HasPorts, hudp, if_true, true_or, true_implies]
    by_cases hlen : d.length < l4Off d + udpHLen
    · rw [if_pos hlen]
      exact iff_of_false (by simp) fun h => absurd h.1 (Nat.not_le.mpr hlen)
    · rw [if_neg hlen]
      have hne : ¬ ipprotoUdp = ipprotoTcp := by decide
      simp only [Option.some.injEq, Nat.le_of_not_lt hlen, true_and, hne, false_implies]
      exact eq_comm
  · by_cases htcp : protocol d = ipprotoTcp
    · have hne : ¬ ipprotoTcp = ipprotoUdp := by decide
      simp only [HasPorts, htcp, if_true, or_true, true_implies, hne, if_false, false_implies, true_and]
      by_cases hlen : d.length < l4Off d + tcpHLen
      · rw [if_pos hlen]
        exact iff_of_false (by simp) fun h => absurd h.1 (Nat.not_le.mpr hlen)
      · rw [if_neg hlen]
        simp only [Option.some.injEq, Nat.le_of_not_lt hlen, true_and]
        exact eq_comm
    · simp only [HasPorts, hudp, htcp, if_false, false_implies, true_and, or_self, Option.some.injEq]
      exact eq_comm

/-- `filter_proto` classifies a frame as IP exactly if it passes the checks. -/
theorem filterProto_eq_l3Ok_iff (d : Bytes) (key : HgAllowKey) :
    filterProto d = .l3Ok key ↔ PassesChecks d ∧ key = allowKeyOf d := by
  have hparse := parseUdpTcp_eq_some_iff d key
  constructor
  · intro h
    obtain ⟨heth, hip, -⟩ := filterProto_l3Ok h
    have hl2 : ¬ d.length < ethHLen := by
      simp only [ethHLen, ipHLen] at hip ⊢
      omega
    rw [filterProto, if_neg hl2, if_neg (not_not.mpr heth), if_neg (Nat.not_lt.mpr hip)] at h
    split at h
    · cases h
    · next k hk =>
      obtain rfl := ProtoResult.l3Ok.inj h
      obtain ⟨hudp, htcp, hkey⟩ := hparse.mp hk
      exact ⟨⟨heth, hip, hudp, htcp⟩, hkey⟩
  · rintro ⟨⟨heth, hip, hudp, htcp⟩, hkey⟩
    have hl2 : ¬ d.length < ethHLen := by
      simp only [ethHLen, ipHLen] at hip ⊢
      omega
    rw [filterProto, if_neg hl2, if_neg (not_not.mpr heth), if_neg (Nat.not_lt.mpr hip),
      hparse.mpr ⟨hudp, htcp, hkey⟩]

/-- What `filter_proto` does not check: the header length is legal and the header complete, and
    a UDP or TCP packet starts with its L4 header or has zeros where the ports would be. -/
def HeaderTrustworthy (d : Bytes) : Prop :=
  5 ≤ ihl d ∧ l4Off d ≤ d.length ∧
    (HasPorts d → fragOff d = 0 ∨ (source d = 0 ∧ dest d = 0))

theorem swap16_eq_zero_iff (x : UInt16) : swap16 x = 0 ↔ x = 0 := by
  constructor
  · intro h
    rw [← swap16_swap16 x, h]
    rfl
  · rintro rfl
    rfl

/-- A frame that passes the checks is classified soundly exactly if its header can be trusted. -/
theorem PassesChecks.sound_iff {d : Bytes} (h : PassesChecks d) :
    (5 ≤ ihl d ∧ l4Off d ≤ d.length ∧
      (PortsGenuine d (allowKeyOf d) ∨ ((allowKeyOf d).sPort = 0 ∧ (allowKeyOf d).dPort = 0))) ↔
      HeaderTrustworthy d := by
  refine and_congr_right fun _ => and_congr_right fun _ => ?_
  by_cases hports : HasPorts d
  · have hkey : allowKeyOf d = ⟨protocol d, swap16 (source d), swap16 (dest d)⟩ := if_pos hports
    simp only [hkey, hports, true_implies, swap16_eq_zero_iff]
    refine or_congr_left ?_
    constructor
    · exact fun hgenuine => hgenuine.first
    · intro hfirst
      refine ⟨?_, hfirst, rfl, rfl⟩
      rcases hports with hudp | htcp
      · exact .inl ⟨hudp, h.udp hudp⟩
      · exact .inr ⟨htcp, h.tcp htcp⟩
  · have hkey : allowKeyOf d = ⟨protocol d, 0, 0⟩ := if_neg hports
    exact iff_of_true (.inr (by rw [hkey]; exact ⟨rfl, rfl⟩)) fun h => absurd h hports

/-- A frame is classified soundly exactly if it fails a check or its header can be trusted. -/
theorem classification_sound_iff (d : Bytes) :
    ClassifiedSoundly d ↔ (PassesChecks d → HeaderTrustworthy d) := by
  constructor
  · intro hsound hchecks
    obtain ⟨⟨-, -, hihl, hlen⟩, hports⟩ :=
      hsound (allowKeyOf d) ((filterProto_eq_l3Ok_iff d _).mpr ⟨hchecks, rfl⟩)
    exact hchecks.sound_iff.mp ⟨hihl, hlen, hports⟩
  · intro htrust key hkey
    obtain ⟨hchecks, rfl⟩ := (filterProto_eq_l3Ok_iff d key).mp hkey
    obtain ⟨hihl, hlen, hports⟩ := hchecks.sound_iff.mpr (htrust hchecks)
    have hip := hchecks.ip
    refine ⟨⟨?_, hchecks.eth, hihl, hlen⟩, hports⟩
    simp only [ethHLen, ipHLen] at hip ⊢
    omega

/-- A UDP packet whose header length is 0: its total length, 53, is read as the destination
    port. -/
theorem zero_ihl_classified_unsoundly :
    let d : Bytes := List.replicate 12 0 ++ [0x08, 0x00]
      ++ [0x40, 0, 0, 53, 0, 0, 0, 0, 64, 17, 0, 0, 192, 168, 99, 82, 93, 184, 216, 34]
    filterProto d = .l3Ok ⟨17, 0x4000, 53⟩ ∧ ¬ ClassifiedSoundly d := by
  intro d
  have hkey : filterProto d = .l3Ok ⟨17, 0x4000, 53⟩ := by decide
  refine ⟨hkey, fun h => ?_⟩
  exact absurd (h _ hkey).1.2.2.1 (by decide)

end HawkGate
