-- SUMMARY: The portal's address translation changes the translated fields and the two checksums only, and keeps both checksums valid.
import HawkGate.Kernel.Portal
import HawkGate.Lib.InternetChecksum

/-!
# NAT integrity

DNAT and SNAT are one translation at different offsets: an address and a port
are replaced, and both checksums are updated incrementally. The sums are taken
over the whole packet, of which the program sees the linear part.
-/

namespace HawkGate

open Bytes HawkGate.Frame
open InternetChecksum (val val32 val_add val_not val32_eq_words val_sum_store16 val_sum_store32
  val_sum_append valid_iff)

variable {ncpu : Nat}

/-! ## Valid packets -/

namespace Frame

/-- The total length field of the IP header. -/
def totLen (p : Bytes) : Nat := (swap16 (load16 p (ethHLen + 2))).toNat

/-- Length of the TCP header and its payload. -/
def tcpLen (p : Bytes) : Nat := totLen p - 4 * ihl p

def ipHeader (p : Bytes) : Bytes := slice p ethHLen (4 * ihl p)

def tcpSegment (p : Bytes) : Bytes := slice p (l4Off p) (tcpLen p)

/-- Both addresses, the protocol and the TCP length, in network order. -/
def pseudoHeader (p : Bytes) : Bytes :=
  slice p ipSaddrOff 8 ++
    [0, protocol p, UInt8.ofNat (tcpLen p / 256), UInt8.ofNat (tcpLen p % 256)]

end Frame

/-- A TCP packet with complete headers and valid checksums. -/
structure ValidTcpPacket (p : Bytes) : Prop where
  complete : CompleteTcp p
  /-- The datagram has room for the TCP header, and the packet holds all of it. -/
  header : tcpHLen ≤ tcpLen p
  datagram : ethHLen + totLen p ≤ p.length
  ipChecksum : InternetChecksum.Valid (ipHeader p)
  tcpChecksum : InternetChecksum.Valid (pseudoHeader p ++ tcpSegment p)

/-- The bytes that a translation of the address at `addrOff` and the port at `portOff` may
    change: these two and the checksums. -/
def Translated (p : Bytes) (addrOff portOff i : Nat) : Prop :=
  (ipCheckOff ≤ i ∧ i < ipCheckOff + 2) ∨ (addrOff ≤ i ∧ i < addrOff + 4) ∨
    (portOff ≤ i ∧ i < portOff + 2) ∨ (l4Off p + 16 ≤ i ∧ i < l4Off p + 18)

/-- `p'` is a valid packet that differs from `p` in translated bytes only. -/
structure NatIntact (addrOff portOff : Nat) (p p' : Bytes) : Prop where
  valid : ValidTcpPacket p'
  length : p'.length = p.length
  others : ∀ i, ¬ Translated p addrOff portOff i → load8 p' i = load8 p i

/-- The helpers that the translation calls succeed. -/
structure BpfEnv.RewritesOk (env : BpfEnv ncpu) : Prop where
  pull : env.pullData = true
  l3Csum : env.l3Csum = true
  storeAddr : env.storeAddr = true
  l4CsumAddr : env.l4CsumAddr = true
  l4CsumPort : env.l4CsumPort = true
  storePort : env.storePort = true

/-! ## Incremental updates -/

theorem val_csumReplace2 (sum old new : UInt16) :
    val (csumReplace2 sum old new) = val sum + val old - val new := by
  have hadd : ∀ a b, onesAdd a b = InternetChecksum.add a b := fun _ _ => rfl
  rw [csumReplace2, hadd, hadd, val_not, val_add, val_add, val_not, val_not]
  ring

theorem val_csumReplace4 (sum : UInt16) (old new : UInt32) :
    val (csumReplace4 sum old new) = val sum + val32 old - val32 new := by
  rw [csumReplace4, val_csumReplace2, val_csumReplace2, val32_eq_words old, val32_eq_words new]
  ring

/-! ## The translation -/

/-- Replace the address at `addrOff` and the port at `portOff`, and update both checksums. -/
def translate (addrOff portOff : Nat) (ip : IpAddr) (port : UInt16) (d : Bytes) : Bytes :=
  let check := l4Off d + 16
  let d₁ := store d ipCheckOff (ofU16 (csumReplace4 (load16 d ipCheckOff) (load32 d addrOff) ip))
  let d₂ := store d₁ addrOff (ofU32 ip)
  let d₃ := store d₂ check (ofU16 (csumReplace4 (load16 d₂ check) (load32 d addrOff) ip))
  let d₄ := store d₃ check (ofU16 (csumReplace2 (load16 d₃ check) (load16 d portOff) port))
  store d₄ portOff (ofU16 port)

theorem dnatFrame_eq_translate {env : BpfEnv ncpu} (h : env.RewritesOk) (d : Bytes)
    (cfg : HgPortalCfg) :
    dnatFrame env d cfg = translate ipDaddrOff (l4Off d + 2) cfg.portalIp cfg.portalPort d := by
  simp only [dnatFrame, dnatTcp, dnatIp, rewrite, h.l3Csum, h.storeAddr, h.l4CsumAddr, h.l4CsumPort,
    h.storePort, if_true]
  rfl

theorem snatRewrite_eq_translate {env : BpfEnv ncpu} (h : env.RewritesOk) (d : Bytes)
    (ct : HgCtVal) :
    snatRewrite env d ct = translate ipSaddrOff (l4Off d) ct.origDstIp ct.origDstPort d := by
  simp only [snatRewrite, rewrite, h.l3Csum, h.storeAddr, h.l4CsumAddr, h.l4CsumPort, h.storePort,
    if_true]
  rfl

/-- The address is the source or the destination, and so is the port. -/
structure NatFields (d : Bytes) (addrOff portOff : Nat) : Prop where
  addr : addrOff = ipSaddrOff ∨ addrOff = ipDaddrOff
  port : portOff = l4Off d ∨ portOff = l4Off d + 2

/-- The header length byte of a packet lies in its linear part. -/
theorem l4Off_append {d : Bytes} (paged : Bytes) (h : 15 ≤ d.length) :
    l4Off (d ++ paged) = l4Off d := by
  rw [l4Off, l4Off, ihl, ihl, load8_append d paged (by simp only [ethHLen]; omega)]

section
variable {d : Bytes} {addrOff portOff : Nat} (hc : CompleteTcp d)
  (hf : NatFields d addrOff portOff) (ip : IpAddr) (port : UInt16)

@[simp] theorem length_translate :
    (translate addrOff portOff ip port d).length = d.length := by
  simp only [translate, length_store]

include hc hf

/-- The offsets in numbers. -/
theorem NatFields.bounds :
    (addrOff = 26 ∨ addrOff = 30) ∧ 34 ≤ l4Off d ∧ l4Off d ≤ portOff ∧
      portOff + 2 ≤ l4Off d + 4 ∧ portOff % 2 = l4Off d % 2 ∧ l4Off d + 20 ≤ d.length := by
  have haddr := hf.addr
  have hport := hf.port
  have hroom := hc.room
  simp only [ipSaddrOff, ipDaddrOff, ethHLen, tcpHLen] at haddr hroom
  exact ⟨haddr, hc.l4Off_ge, by omega, by omega, by omega, hroom⟩

theorem load8_translate {i : Nat} (hi : ¬ Translated d addrOff portOff i) :
    load8 (translate addrOff portOff ip port d) i = load8 d i := by
  obtain ⟨haddr, hoff, hlo, hhi, -, -⟩ := hf.bounds hc
  simp only [Translated, ipCheckOff, ethHLen] at hi
  simp only [translate]
  rw [load8_store_outside _ _ _ (by simp only [ofU16, List.length_cons, List.length_nil]; omega),
    load8_store_outside _ _ _ (by simp only [ofU16, List.length_cons, List.length_nil]; omega),
    load8_store_outside _ _ _ (by simp only [ofU16, List.length_cons, List.length_nil]; omega),
    load8_store_outside _ _ _ (by simp only [ofU32, List.length_cons, List.length_nil]; omega),
    load8_store_outside _ _ _
      (by simp only [ofU16, ipCheckOff, ethHLen, List.length_cons, List.length_nil]; omega)]

/-- Bytes in front of the IP checksum, and the protocol among them, stay. -/
theorem load8_translate_front {i : Nat} (hi : i < 24) :
    load8 (translate addrOff portOff ip port d) i = load8 d i := by
  obtain ⟨haddr, hoff, hlo, -, -, -⟩ := hf.bounds hc
  refine load8_translate hc hf ip port ?_
  simp only [Translated, ipCheckOff, ethHLen]
  omega

theorem ihl_translate : ihl (translate addrOff portOff ip port d) = ihl d := by
  rw [ihl, ihl, load8_translate_front hc hf ip port (by decide)]

theorem l4Off_translate : l4Off (translate addrOff portOff ip port d) = l4Off d := by
  rw [l4Off, l4Off, ihl_translate hc hf]

theorem protocol_translate : protocol (translate addrOff portOff ip port d) = protocol d :=
  load8_translate_front hc hf ip port (by decide)

theorem totLen_translate : totLen (translate addrOff portOff ip port d) = totLen d := by
  rw [totLen, totLen, load16, load16, load8_translate_front hc hf ip port (by decide),
    load8_translate_front hc hf ip port (by decide)]

theorem tcpLen_translate : tcpLen (translate addrOff portOff ip port d) = tcpLen d := by
  rw [tcpLen, tcpLen, totLen_translate hc hf, ihl_translate hc hf]

theorem completeTcp_translate : CompleteTcp (translate addrOff portOff ip port d) where
  eth := by
    rw [← hc.eth, ethProto, ethProto, load16, load16,
      load8_translate_front hc hf ip port (by decide),
      load8_translate_front hc hf ip port (by decide)]
  tcp := by rw [protocol_translate hc hf, hc.tcp]
  ihl := by rw [ihl_translate hc hf]; exact hc.ihl
  room := by rw [l4Off_translate hc hf, length_translate]; exact hc.room

/-! ## The three parts of the sums -/

theorem ipHeader_translate :
    ipHeader (translate addrOff portOff ip port d) =
      store (store (ipHeader d) 10
        (ofU16 (csumReplace4 (load16 d ipCheckOff) (load32 d addrOff) ip)))
        (addrOff - ethHLen) (ofU32 ip) := by
  obtain ⟨haddr, hoff, hlo, hhi, -, -⟩ := hf.bounds hc
  have hl4 : ethHLen + 4 * ihl d = l4Off d := rfl
  rw [ipHeader, ihl_translate hc hf, translate]
  rw [slice_store_outside _ _ _ (by omega), slice_store_outside _ _ _ (by omega),
    slice_store_outside _ _ _ (by omega), slice_store _ _ _ (by simp only [ethHLen]; omega),
    slice_store _ _ _ (by decide)]
  rfl

theorem tcpSegment_translate :
    tcpSegment (translate addrOff portOff ip port d) =
      store (store (store (tcpSegment d) 16
        (ofU16 (csumReplace4 (load16 d (l4Off d + 16)) (load32 d addrOff) ip))) 16
        (ofU16 (csumReplace2 (csumReplace4 (load16 d (l4Off d + 16)) (load32 d addrOff) ip)
          (load16 d portOff) port)))
        (portOff - l4Off d) (ofU16 port) := by
  obtain ⟨haddr, hoff, hlo, hhi, -, hlen⟩ := hf.bounds hc
  rw [tcpSegment, l4Off_translate hc hf, tcpLen_translate hc hf, translate]
  rw [slice_store _ _ _ hlo, slice_store _ _ _ (by omega), slice_store _ _ _ (by omega),
    slice_store_outside _ _ _ (by simp only [ofU32, List.length_cons, List.length_nil]; omega),
    slice_store_outside _ _ _ (by
      simp only [ofU16, ipCheckOff, ethHLen, List.length_cons, List.length_nil]; omega),
    Nat.add_sub_cancel_left, load16_store_self _ _ _ (by simp only [length_store]; omega),
    load16_store_outside _ _ _ (by simp only [ofU32, List.length_cons, List.length_nil]; omega),
    load16_store_outside _ _ _ (by
      simp only [ofU16, ipCheckOff, ethHLen, List.length_cons, List.length_nil]; omega)]
  rfl

theorem pseudoHeader_translate :
    pseudoHeader (translate addrOff portOff ip port d) =
      store (slice d ipSaddrOff 8) (addrOff - ipSaddrOff) (ofU32 ip) ++
        [0, protocol d, UInt8.ofNat (tcpLen d / 256), UInt8.ofNat (tcpLen d % 256)] := by
  obtain ⟨haddr, hoff, hlo, hhi, -, -⟩ := hf.bounds hc
  rw [pseudoHeader, protocol_translate hc hf, tcpLen_translate hc hf, translate]
  rw [slice_store_outside _ _ _ (.inr (by simp only [ipSaddrOff, ethHLen]; omega)),
    slice_store_outside _ _ _ (.inr (by simp only [ipSaddrOff, ethHLen]; omega)),
    slice_store_outside _ _ _ (.inr (by simp only [ipSaddrOff, ethHLen]; omega)),
    slice_store _ _ _ (by simp only [ipSaddrOff, ethHLen]; omega),
    slice_store_outside _ _ _ (.inl (by simp [ofU16, ipCheckOff, ipSaddrOff, ethHLen]))]

/-! ## The sums -/

theorem val_sum_ipHeader :
    val (InternetChecksum.sum (ipHeader (translate addrOff portOff ip port d))) =
      val (InternetChecksum.sum (ipHeader d)) := by
  obtain ⟨haddr, hoff, -, -, -, hlen⟩ := hf.bounds hc
  have hihl := hc.ihl
  have hhdr : (ipHeader d).length = 4 * ihl d := by
    refine length_slice d ?_
    rw [show ethHLen + 4 * ihl d = l4Off d from rfl]
    omega
  have hcheck : load16 (ipHeader d) 10 = load16 d ipCheckOff := load16_slice d ethHLen (by omega)
  have haddr' : load32 (ipHeader d) (addrOff - ethHLen) = load32 d addrOff := by
    rw [ipHeader, load32_slice d ethHLen (by simp only [ethHLen]; omega),
      Nat.add_sub_cancel' (by simp only [ethHLen]; omega)]
  rw [ipHeader_translate hc hf,
    val_sum_store32 _ _ (by simp only [ethHLen]; omega)
      (by rw [length_store, hhdr]; simp only [ethHLen]; omega),
    val_sum_store16 _ _ (by decide) (by omega),
    load32_store_outside _ _ _
      (.inr (by simp only [ofU16, ethHLen, List.length_cons, List.length_nil]; omega)),
    hcheck, haddr', val_csumReplace4]
  ring

theorem val_sum_tcpSegment (hhdr : tcpHLen ≤ tcpLen d) (hseg : l4Off d + tcpLen d ≤ d.length) :
    val (InternetChecksum.sum (tcpSegment (translate addrOff portOff ip port d))) =
      val (InternetChecksum.sum (tcpSegment d)) +
        256 * (val32 (load32 d addrOff) - val32 ip) := by
  obtain ⟨-, -, hlo, hhi, hpar, -⟩ := hf.bounds hc
  simp only [tcpHLen] at hhdr
  have hlen : (tcpSegment d).length = tcpLen d := length_slice d hseg
  have hcheck : load16 (tcpSegment d) 16 = load16 d (l4Off d + 16) := load16_slice d _ (by omega)
  have hport : load16 (tcpSegment d) (portOff - l4Off d) = load16 d portOff := by
    rw [tcpSegment, load16_slice d _ (by omega), Nat.add_sub_cancel' hlo]
  rw [tcpSegment_translate hc hf,
    val_sum_store16 _ _ (by omega) (by rw [length_store, length_store, hlen]; omega),
    val_sum_store16 _ _ (by decide) (by rw [length_store, hlen]; omega),
    val_sum_store16 _ _ (by decide) (by omega),
    load16_store_self _ _ _ (by omega),
    load16_store_outside _ _ _ (.inl (by omega)), load16_store_outside _ _ _ (.inl (by omega)),
    hcheck, hport, val_csumReplace2, val_csumReplace4]
  ring

theorem val_sum_pseudoHeader :
    val (InternetChecksum.sum (pseudoHeader (translate addrOff portOff ip port d))) =
      val (InternetChecksum.sum (pseudoHeader d)) +
        256 * (val32 ip - val32 (load32 d addrOff)) := by
  obtain ⟨haddr, hoff, -, -, -, hlen⟩ := hf.bounds hc
  have hlen' : (slice d ipSaddrOff 8).length = 8 :=
    length_slice d (by simp only [ipSaddrOff, ethHLen]; omega)
  have haddr' : load32 (slice d ipSaddrOff 8) (addrOff - ipSaddrOff) = load32 d addrOff := by
    rw [load32_slice d ipSaddrOff (by simp only [ipSaddrOff, ethHLen]; omega),
      Nat.add_sub_cancel' (by simp only [ipSaddrOff, ethHLen]; omega)]
  rw [pseudoHeader_translate hc hf, val_sum_append _ _ (by rw [length_store, hlen']),
    val_sum_store32 _ _ (by simp only [ipSaddrOff, ethHLen]; omega)
      (by rw [hlen']; simp only [ipSaddrOff, ethHLen]; omega),
    haddr', pseudoHeader, val_sum_append _ _ (by rw [hlen'])]
  ring

/-- The translation keeps a packet valid and touches the translated bytes only. -/
theorem natIntact_translate (hv : ValidTcpPacket d) :
    NatIntact addrOff portOff d (translate addrOff portOff ip port d) := by
  have hihl := hc.ihl
  have hdata := hv.datagram
  have hhdr := hv.header
  have hseg : l4Off d + tcpLen d ≤ d.length := by
    simp only [l4Off, tcpLen, ethHLen, tcpHLen] at hdata hhdr ⊢
    omega
  have hpseudo : ∀ p : Bytes, (pseudoHeader p).length % 2 = (slice p ipSaddrOff 8).length % 2 := by
    intro p
    simp [pseudoHeader, Nat.add_mod]
  have heven : ∀ p : Bytes, p.length = d.length → (pseudoHeader p).length % 2 = 0 := by
    intro p hp
    have hroom := (hf.bounds hc).2.2.2.2.2
    have hoff := (hf.bounds hc).2.1
    rw [hpseudo, length_slice p (by simp only [ipSaddrOff, ethHLen]; omega)]
  refine ⟨⟨completeTcp_translate hc hf ip port, ?_, ?_, ?_, ?_⟩, length_translate ip port,
    fun i hi => load8_translate hc hf ip port hi⟩
  · rw [tcpLen_translate hc hf]
    exact hhdr
  · rw [totLen_translate hc hf, length_translate]
    exact hdata
  · -- the byte with version and header length is not zero
    obtain ⟨hsum, -⟩ := (valid_iff _).mp hv.ipChecksum
    refine (valid_iff _).mpr ⟨by rw [val_sum_ipHeader hc hf, hsum], ?_⟩
    refine InternetChecksum.exists_ne_zero_of_load8 (i := 0) ?_
    intro hzero
    rw [ipHeader, load8_slice _ _ (by rw [ihl_translate hc hf]; omega), Nat.add_zero] at hzero
    have hfield := ihl_translate hc hf ip port
    rw [ihl, hzero] at hfield
    simp only [UInt8.toNat_zero, Nat.zero_mod] at hfield
    omega
  · obtain ⟨hsum, -⟩ := (valid_iff _).mp hv.tcpChecksum
    refine (valid_iff _).mpr ⟨?_, protocol d, ?_, ?_⟩
    · rw [val_sum_append _ _ (heven d rfl)] at hsum
      rw [val_sum_append _ _ (heven _ (length_translate ip port)), val_sum_pseudoHeader hc hf,
        val_sum_tcpSegment hc hf ip port hhdr hseg]
      linear_combination hsum
    · rw [pseudoHeader, protocol_translate hc hf]
      simp
    · rw [hc.tcp]
      decide

/-! ## Packets with a paged part -/

/-- The program translates the linear part; what lies behind it stays. -/
theorem translate_append (paged : Bytes) :
    translate addrOff portOff ip port (d ++ paged) =
      translate addrOff portOff ip port d ++ paged := by
  obtain ⟨haddr, hoff, hlo, hhi, -, hlen⟩ := hf.bounds hc
  have hcheck : ipCheckOff = 24 := rfl
  have hU16 : ∀ x, (ofU16 x).length = 2 := fun _ => rfl
  have hU32 : ∀ x, (ofU32 x).length = 4 := fun _ => rfl
  simp only [translate, l4Off_append paged (show 15 ≤ d.length by omega)]
  rw [load16_append _ _ (by omega), load32_append _ _ (by omega), load16_append _ _ (by omega),
    store_append _ _ _ (by rw [hU16]; omega),
    store_append _ _ _ (by rw [hU32, length_store]; omega),
    load16_append _ _ (by simp only [length_store]; omega),
    store_append _ _ _ (by rw [hU16]; simp only [length_store]; omega),
    load16_append _ _ (by simp only [length_store]; omega),
    store_append _ _ _ (by rw [hU16]; simp only [length_store]; omega),
    store_append _ _ _ (by rw [hU16]; simp only [length_store]; omega)]

/-- A translated linear part leaves a valid packet behind. -/
theorem natIntact_append {paged : Bytes} (hv : ValidTcpPacket (d ++ paged)) :
    NatIntact addrOff portOff (d ++ paged) (translate addrOff portOff ip port d ++ paged) := by
  have hlen := hc.length_ge
  have hf' : NatFields (d ++ paged) addrOff portOff := by
    refine ⟨hf.addr, ?_⟩
    rw [l4Off_append paged (by omega)]
    exact hf.port
  rw [← translate_append hc hf]
  exact natIntact_translate hv.complete hf' ip port hv

end

/-- Redirection and its reversal keep packets valid: the linear part `d` of a valid TCP packet
    leaves `redirect_to_portal` with the portal as its destination, and
    `snat_from_conntrack` with the original destination as its source. -/
theorem nat_keeps_packets_valid {env : BpfEnv ncpu} (henv : env.RewritesOk) (s : HgMaps ncpu)
    {d paged : Bytes} (hc : CompleteTcp d) (hv : ValidTcpPacket (d ++ paged)) :
    (∀ cfg, let r := redirectToPortal env s d cfg
      r.verdict = .ok ∧ daddr r.data = cfg.portalIp ∧ dest r.data = cfg.portalPort ∧
        NatIntact ipDaddrOff (l4Off d + 2) (d ++ paged) (r.data ++ paged)) ∧
    ∀ ct, s.conntrack.lookup (ctReplyKeyOf d) = some ct →
      env.bootNs - ct.createdNs ≤ hgCtTimeoutNs →
      let r := snatFromConntrack env s d
      r.verdict = .ok ∧ saddr r.data = ct.origDstIp ∧ source r.data = ct.origDstPort ∧
        NatIntact ipSaddrOff (l4Off d) (d ++ paged) (r.data ++ paged) := by
  constructor
  · intro cfg
    dsimp only
    rw [redirectToPortal_complete henv.pull hc]
    refine ⟨rfl, ?_, ?_, ?_⟩
    · rw [hc.daddr_dnatFrame, if_pos henv.storeAddr]
    · rw [hc.dest_dnatFrame, if_pos henv.storePort]
    · rw [dnatFrame_eq_translate henv]
      exact natIntact_append hc ⟨.inr rfl, .inr rfl⟩ _ _ hv
  · intro ct hct hlive
    dsimp only
    rw [snatFromConntrack_complete henv.pull hc, hct]
    dsimp only
    rw [if_neg (UInt64.not_lt.mpr hlive)]
    refine ⟨rfl, ?_, ?_, ?_⟩
    · rw [hc.saddr_snatRewrite, if_pos henv.storeAddr]
    · rw [hc.source_snatRewrite, if_pos henv.storePort]
    · rw [snatRewrite_eq_translate henv]
      exact natIntact_append hc ⟨.inl rfl, .inl rfl⟩ _ _ hv

/-- The headers of a TCP packet with IP options from 10.0.0.7:40000 to 93.184.216.34:80 that
    carries the bytes `GET`. -/
def optionsFrame : Bytes :=
  [0, 0, 0, 0, 0, 0, 2, 0, 0, 0, 0, 1, 8, 0]
    ++ [0x46, 0, 0, 47, 18, 52, 64, 0, 64, 6, 229, 177, 10, 0, 0, 7, 93, 184, 216, 34, 1, 1, 1, 1]
    ++ [156, 64, 0, 80, 1, 2, 3, 4, 0, 0, 0, 0, 0x50, 24, 32, 0, 20, 12, 0, 0]

/-- Both translations of a packet with IP options and a payload of odd length. -/
theorem nat_keeps_packets_valid_options :
    let s : HgMaps 1 := { HgMaps.start 1 .standard 0 with
      conntrack := BoundedMap.empty.put (ctReplyKeyOf optionsFrame)
        ⟨addrOfOctets 198 51 100 9, swap16 443, 5⟩ }
    NatIntact ipDaddrOff 40 (optionsFrame ++ [71, 69, 84])
        ((redirectToPortal (.good 0 9) s optionsFrame .standard).data ++ [71, 69, 84]) ∧
      NatIntact ipSaddrOff 38 (optionsFrame ++ [71, 69, 84])
        ((snatFromConntrack (.good 0 9) s optionsFrame).data ++ [71, 69, 84]) := by
  have henv : (BpfEnv.good 0 9 : BpfEnv 1).RewritesOk := ⟨rfl, rfl, rfl, rfl, rfl, rfl⟩
  have hc : CompleteTcp optionsFrame := ⟨by decide, by decide, by decide, by decide⟩
  have hv : ValidTcpPacket (optionsFrame ++ [71, 69, 84]) :=
    ⟨⟨by decide, by decide, by decide, by decide⟩, by decide, by decide, by decide, by decide⟩
  intro s
  obtain ⟨hdnat, hsnat⟩ := nat_keeps_packets_valid henv s hc hv
  exact ⟨(hdnat .standard).2.2.2, (hsnat _ (by rfl) (by decide)).2.2.2⟩

end HawkGate
