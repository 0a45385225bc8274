-- SUMMARY: `hgctl wg-add` and `wg-del`: a block of addresses from its text to the walled-garden map.
import HawkGate.Control.Protocols
import HawkGate.Lib.Cidr

/-!
# Walled garden

`parse_wg_add` and `parse_wg_del` of `hg_cli.c`, and `wg_parse_cidr` with the two
actions of `hg_control.c`. The key of a block is its length and its base
address, with the host bits cleared for the LPM trie.
-/

namespace HawkGate

open Bytes CString

variable {ncpu : Nat}

/-! ## The text of a block -/

/-- The address part, and the length behind the slash or else 32. -/
def wgSplit (cidr : CString) : Option (CString × Int32) :=
  match splitFirst '/' cidr with
  | some (ip, rest) => if 32 ≤ ip.length then none else some (ip, atoi rest)
  | none => some (strncpyInto 32 cidr, 32)

/-- Mask the host bits so that the stored prefix is exact. -/
def wgMask (len : Int32) (ip : IpAddr) : IpAddr :=
  if len = 0 then 0
  else if len < 32 then ip &&& swap32 (0xFFFFFFFF <<< (32 - len).toUInt32)
  else ip

def wgParseCidr (cidr : CString) : Option HgWgKey := do
  let (ipStr, len) ← wgSplit cidr
  if len < 0 ∨ 32 < len then none
  else
    let ip ← inetPton ipStr
    some ⟨len.toUInt32, wgMask len ip⟩

/-! ## The commands -/

def wgAddAction (cidr : CString) : Tool ncpu Status :=
  match wgParseCidr cidr with
  | none => pure .failed
  | some key => withMap .hgWalledGarden (.updateWalledGarden key 1)

def wgDelAction (cidr : CString) : Tool ncpu Status :=
  match wgParseCidr cidr with
  | none => pure .failed
  | some key => withMap .hgWalledGarden (.deleteWalledGarden key)

inductive WgOpt where
  | ip (arg : CString)
  | unknown

/-- One turn of the option loop of both commands; the buffer has 32 bytes. -/
def WgOpt.set (_ : CString) : WgOpt → Option CString
  | .ip arg => some (strncpyInto 32 arg)
  | .unknown => none

def parseWg (opts : List WgOpt) : Option CString := do
  nonEmpty (← opts.foldlM WgOpt.set [])

def hgctlWgAdd (opts : List WgOpt) : Tool ncpu Status :=
  match parseWg opts with
  | none => pure .failed
  | some cidr => wgAddAction cidr

def hgctlWgDel (opts : List WgOpt) : Tool ncpu Status :=
  match parseWg opts with
  | none => pure .failed
  | some cidr => wgDelAction cidr

/-! ## What is parsed -/

/-- The key of a block. -/
def wgKey (c : Cidr) : HgWgKey := ⟨UInt32.ofNat c.len, c.net⟩

/-- A length in range as an unsigned word. -/
theorem toUInt32_of_toInt {len : Int32} {n : Nat} (hlen : len.toInt = n) :
    len.toUInt32 = UInt32.ofNat n := by
  rw [← Int32.ofInt_toInt len, hlen, Int32.ofInt_eq_ofNat, Int32.toUInt32_ofNat']

/-- Masking in place is clearing the host bits. -/
theorem wgMask_eq {len : Int32} {n : Nat} (hlen : len.toInt = n) (hn : n ≤ 32) (ip : IpAddr) :
    wgMask len ip = Cidr.clearHost n ip := by
  have hzero : len = 0 ↔ n = 0 := by
    rw [← Int32.toInt_inj, hlen]
    simp
  have hlt : len < 32 ↔ n < 32 := by
    rw [Int32.lt_iff_toInt_lt, hlen]
    simp
  unfold wgMask
  by_cases h0 : n = 0
  · rw [if_pos (hzero.mpr h0), h0, Cidr.clearHost_zero]
  · rw [if_neg (mt hzero.mp h0)]
    by_cases h32 : n < 32
    · rw [if_pos (hlt.mpr h32)]
      refine Cidr.and_swap32_mask (by omega) hn ?_
      have hsub : (32 - len).toInt = ((32 - n : Nat) : Int) := by
        rw [Int32.toInt_sub, hlen]
        simp [Int.bmod]
        omega
      rw [toUInt32_of_toInt hsub]
      simp
      omega
    · rw [if_neg (mt hlt.mp h32), show n = 32 by omega, Cidr.clearHost_full]

/-- A text without a slash is an address. -/
theorem wgParseCidr_plain {s : CString} (hs : '/' ∉ s) :
    wgParseCidr s = (inetPton s).map fun ip => ⟨32, ip⟩ := by
  have hsplit : wgSplit s = some (strncpyInto 32 s, 32) := by
    rw [wgSplit, splitFirst_eq_none hs]
  -- a text that the buffer cuts is too long for an address, cut or not
  have hcut : inetPton (strncpyInto 32 s) = inetPton s := by
    by_cases hlen : s.length ≤ 31
    · rw [strncpyInto, List.take_of_length_le hlen]
    · rw [inetPton_eq_none_of_length (by simp [strncpyInto]; omega),
        inetPton_eq_none_of_length (by omega)]
  rw [wgParseCidr, hsplit]
  simp only [Option.bind_eq_bind, Option.bind_some, hcut]
  cases inetPton s <;> rfl

/-- A text with a slash is an address and what `atoi` makes of the rest. -/
theorem wgParseCidr_slash {a t : CString} (ha : '/' ∉ a) :
    wgParseCidr (a ++ '/' :: t) =
      if 0 ≤ (atoi t).toInt ∧ (atoi t).toInt ≤ 32 then
        (inetPton a).map fun ip => ⟨(atoi t).toUInt32, wgMask (atoi t) ip⟩
      else none := by
  have hsplit : wgSplit (a ++ '/' :: t) = if 32 ≤ a.length then none else some (a, atoi t) := by
    rw [wgSplit, splitFirst_append ha]
  have hrange : (atoi t < 0 ∨ 32 < atoi t) ↔ ¬ (0 ≤ (atoi t).toInt ∧ (atoi t).toInt ≤ 32) := by
    rw [Int32.lt_iff_toInt_lt, Int32.lt_iff_toInt_lt]
    simp
    omega
  rw [wgParseCidr, hsplit]
  by_cases hlen : 32 ≤ a.length
  · simp [hlen, inetPton_eq_none_of_length (s := a) (by omega)]
  · simp only [hlen, if_false, Option.bind_eq_bind, Option.bind_some, hrange]
    by_cases h : 0 ≤ (atoi t).toInt ∧ (atoi t).toInt ≤ 32
    · rw [if_neg (by simpa using h), if_pos h]
      cases inetPton a <;> rfl
    · rw [if_pos h, if_neg h]

end HawkGate
