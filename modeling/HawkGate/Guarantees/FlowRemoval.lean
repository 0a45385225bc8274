-- SUMMARY: Which conntrack entry a textual `map-del` addresses, compared with the entry the datapath made.
import HawkGate.Control.Actions
import HawkGate.Kernel.Portal

/-!
# Flow removal

`redirect_to_portal` copies the port of a conntrack key from the TCP header, in
network order. `map_del_action` reads the port from text and stores the number
as it is. The two agree on a port exactly when its two bytes are equal.
-/

namespace HawkGate

open Bytes HawkGate.Frame CString

variable {ncpu : Nat}

/-- The text that names the flow of a client port, given in host order. -/
def flowSpec (ip : IpAddr) (port : UInt16) : CString :=
  inetNtop ip ++ ':' :: decimal port.toNat

/-- `t` is `s` without the conntrack entry of `k`, which `s` has. -/
structure RemovesFlow (k : HgCtKey) (s t : HgMaps ncpu) : Prop where
  present : (s.conntrack.lookup k).isSome = true
  lookup : ∀ j, t.conntrack.lookup j = if j = k then none else s.conntrack.lookup j
  others : { t with conntrack := s.conntrack } = s

/-! ## Reading the text back -/

/-- Deleting by text addresses the key that holds the port as a number. -/
theorem mapDelConntrack_flowSpec (ip : IpAddr) (port : UInt16) :
    mapDelConntrack (flowSpec ip port) = (do
      let ok ← sys (.deleteConntrack ⟨ip, port⟩)
      pure (removed ok) : Tool ncpu Status) := by
  have hsplit : splitFirst ':' (flowSpec ip port) = some (inetNtop ip, decimal port.toNat) :=
    splitFirst_append (not_mem_inetNtop (by decide) (by decide) ip)
  have hlen := length_inetNtop_lt ip
  rw [mapDelConntrack, hsplit]
  simp only
  rw [if_neg (by omega), inetPton_inetNtop, atoiU16_decimal port.toNat_lt, UInt16.ofNat_toNat]

/-- `map-del hg_conntrack` by text, when the map can be opened. -/
theorem run_mapDelAction_flowSpec {senv : SysEnv} (hopen : senv.objGet .hgConntrack = true)
    (s : HgMaps ncpu) (ip : IpAddr) (port : UInt16) :
    (mapDelAction "hg_conntrack".toList (flowSpec ip port)).run senv s =
      (removed (s.conntrack.lookup ⟨ip, port⟩).isSome,
        { s with conntrack := s.conntrack.erase ⟨ip, port⟩ }) := by
  have hname : MapName.ofText "hg_conntrack".toList = some .hgConntrack := by decide
  rw [mapDelAction, hname]
  simp only [Tool.run_bind, Tool.run_sys, Sys.exec, hopen, if_true, mapDelKey,
    mapDelConntrack_flowSpec, Tool.run_pure, commit_delete]

/-- Deleting by text removes the flow of key `k` exactly when the number in the text is
    the port field of `k` read without a byte swap. -/
theorem removesFlow_mapDelAction_iff {senv : SysEnv} (hopen : senv.objGet .hgConntrack = true)
    {s : HgMaps ncpu} {k : HgCtKey} (hk : (s.conntrack.lookup k).isSome = true) (port : UInt16) :
    RemovesFlow k s ((mapDelAction "hg_conntrack".toList (flowSpec k.clientIp port)).run senv s).2 ↔
      k.clientPort = port := by
  rw [run_mapDelAction_flowSpec hopen]
  constructor
  · intro h
    have hgone := h.lookup k
    rw [if_pos rfl] at hgone
    dsimp only at hgone
    rw [BoundedMap.lookup_erase] at hgone
    split at hgone
    · next hkey => rw [hkey]
    · rw [hgone] at hk
      cases hk
  · rintro rfl
    exact ⟨hk, fun j => BoundedMap.lookup_erase s.conntrack k j, rfl⟩

/-- Deleting the flow of a redirected frame by its address and decimal port removes
    exactly that flow if and only if the two bytes of the port are equal. -/
theorem flow_removal_iff {env : BpfEnv ncpu} {senv : SysEnv} {s : HgMaps ncpu} {d : Bytes}
    {cfg : HgPortalCfg} (hd : CompleteTcp d) (hpull : env.pullData = true)
    (hupd : env.updateConntrack = true)
    (hroom : (env.evicted.foldl BoundedMap.erase s.conntrack).HasRoom (ctKeyOf d))
    (hopen : senv.objGet .hgConntrack = true) :
    RemovesFlow (ctKeyOf d) (redirectToPortal env s d cfg).maps
        ((mapDelAction "hg_conntrack".toList (flowSpec (saddr d) (swap16 (source d)))).run senv
          (redirectToPortal env s d cfg).maps).2 ↔
      (swap16 (source d)).toNat % 256 = (swap16 (source d)).toNat / 256 := by
  have hk : ((redirectToPortal env s d cfg).maps.conntrack.lookup (ctKeyOf d)).isSome = true := by
    rw [redirectToPortal_complete hpull hd, HgMaps.lookup_trackFlow hupd hroom]
    rfl
  have h := removesFlow_mapDelAction_iff hopen hk (swap16 (source d))
  rw [← swap16_eq_self_iff, swap16_swap16]
  exact h

/-- Port 257 is 0x0101, so its flow is removed. -/
theorem flow_removal_port_257 :
    let d := tcpFrame (localMac 1) (addrOfOctets 10 0 0 5) (addrOfOctets 93 184 216 34) 257 80
    let t := (redirectToPortal (.good 0 0) (.start 1 .standard 0) d .standard).maps
    RemovesFlow (ctKeyOf d) t
      ((mapDelAction "hg_conntrack".toList (flowSpec (saddr d) (swap16 (source d)))).run
        (.good ⟨0, 0⟩) t).2 :=
  (flow_removal_iff ⟨by decide, by decide, by decide, by decide⟩ rfl rfl (by decide) rfl).mpr
    (by decide)

/-- Port 54321 is 0xD431: deleting `10.0.0.5:54321` leaves its flow in place. -/
theorem flow_removal_misses_port_54321 :
    let d := tcpFrame (localMac 1) (addrOfOctets 10 0 0 5) (addrOfOctets 93 184 216 34) 54321 80
    let t := (redirectToPortal (.good 0 0) (.start 1 .standard 0) d .standard).maps
    t.conntrack.lookup (ctKeyOf d) = some ⟨addrOfOctets 93 184 216 34, swap16 80, 0⟩ ∧
      ¬ RemovesFlow (ctKeyOf d) t
        ((mapDelAction "hg_conntrack".toList "10.0.0.5:54321".toList).run (.good ⟨0, 0⟩) t).2 := by
  refine ⟨by decide, fun h => ?_⟩
  have hgone := h.lookup ⟨addrOfOctets 10 0 0 5, swap16 54321⟩
  revert hgone
  decide

end HawkGate
