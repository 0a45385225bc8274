-- SUMMARY: Which walled-garden texts are read as what they say: all but those whose prefix length only `atoi` can read.
import HawkGate.Control.WalledGarden

/-!
# Walled-garden texts

The address of a text goes through `inet_pton`, which is strict. The prefix
length goes through `atoi`, which skips blanks, takes a sign, stops at the first
character that is no digit, and makes 0 of a text without digits: a length of 0
is the whole Internet.
-/

namespace HawkGate

open Bytes CString

/-- The text is accepted exactly if it is the text of a block, and then as that block. -/
def ParsedStrictly (s : CString) : Prop :=
  ∀ key, wgParseCidr s = some key ↔ ∃ c : Cidr, c.IsText s ∧ key = wgKey c

/-- What follows the slash behind an address is a plain decimal number, if `atoi` gets a
    prefix length out of it. -/
def SuffixPlain (s : CString) : Prop :=
  ∀ a t ip, s = a ++ '/' :: t → inetPton a = some ip →
    0 ≤ (atoi t).toInt → (atoi t).toInt ≤ 32 → ∃ n ≤ 32, DecimalText t n

/-! ## The text of a block is read as the block -/

/-- An accepted length and its address give the key of the block. -/
theorem wgKey_eq {len : Int32} (c : Cidr) (hlen : len.toInt = c.len) :
    (⟨len.toUInt32, wgMask len c.ip⟩ : HgWgKey) = wgKey c := by
  rw [toUInt32_of_toInt hlen, wgMask_eq hlen c.len_le]
  rfl

theorem wgParseCidr_of_isText {s : CString} {c : Cidr} (h : c.IsText s) :
    wgParseCidr s = some (wgKey c) := by
  rcases h with ⟨hip, hlen⟩ | ⟨a, t, rfl, hip, ht⟩
  · have hkey : (⟨32, c.ip⟩ : HgWgKey) = wgKey c := by
      rw [wgKey, Cidr.net, hlen, Cidr.clearHost_full]
      rfl
    rw [wgParseCidr_plain (Cidr.not_mem_of_inetPton hip), hip, Option.map_some, hkey]
  · have hle := c.len_le
    have hatoi := ht.integerText.toInt_atoi (by omega) (by omega)
    rw [wgParseCidr_slash (Cidr.not_mem_of_inetPton hip), if_pos (by omega), hip, Option.map_some,
      wgKey_eq c hatoi]

/-! ## Other texts -/

/-- An accepted text whose suffix is plain is the text of a block. -/
theorem isText_of_wgParseCidr {s : CString} (hs : SuffixPlain s) {key : HgWgKey}
    (h : wgParseCidr s = some key) : ∃ c : Cidr, c.IsText s ∧ key = wgKey c := by
  rcases not_mem_or_exists_append '/' s with hplain | ⟨a, t, rfl, ha⟩
  · have haddr := h
    rw [wgParseCidr_plain hplain] at haddr
    obtain ⟨ip, hip, -⟩ := Option.map_eq_some_iff.mp haddr
    have htext : Cidr.IsText s ⟨32, ip, le_refl 32⟩ := .inl ⟨hip, rfl⟩
    rw [wgParseCidr_of_isText htext] at h
    exact ⟨_, htext, (Option.some.inj h).symm⟩
  · have hslash := h
    rw [wgParseCidr_slash ha] at hslash
    obtain ⟨hrange, hslash⟩ := Option.ite_none_right_eq_some.mp hslash
    obtain ⟨ip, hip, -⟩ := Option.map_eq_some_iff.mp hslash
    obtain ⟨n, hn, ht⟩ := hs a t ip rfl hip hrange.1 hrange.2
    have htext : Cidr.IsText (a ++ '/' :: t) ⟨n, ip, hn⟩ := .inr ⟨a, t, rfl, hip, ht⟩
    rw [wgParseCidr_of_isText htext] at h
    exact ⟨_, htext, (Option.some.inj h).symm⟩

/-- A suffix that is not plain is accepted all the same. -/
theorem suffixPlain_of_parsedStrictly {s : CString} (h : ParsedStrictly s) : SuffixPlain s := by
  rintro a t ip rfl hip h0 h32
  have ha := Cidr.not_mem_of_inetPton hip
  have haccept := wgParseCidr_slash (t := t) ha
  rw [if_pos ⟨h0, h32⟩, hip, Option.map_some] at haccept
  obtain ⟨c, htext, -⟩ := (h _).mp haccept
  exact ⟨c.len, c.len_le, ((Cidr.isText_slash ha c).mp htext).2⟩

/-- A walled-garden text is accepted exactly as the block it denotes, unless its suffix is no
    plain number but one that `atoi` reads as a prefix length. -/
theorem garden_text_strict_iff (s : CString) : ParsedStrictly s ↔ SuffixPlain s := by
  refine ⟨suffixPlain_of_parsedStrictly, fun hs key => ⟨isText_of_wgParseCidr hs, ?_⟩⟩
  rintro ⟨c, htext, rfl⟩
  exact wgParseCidr_of_isText htext

/-- A forgotten prefix length opens the whole Internet. -/
theorem empty_suffix_opens_everything :
    wgParseCidr "10.0.0.0/".toList = some ⟨0, 0⟩ ∧ ¬ ParsedStrictly "10.0.0.0/".toList := by
  have haccept : wgParseCidr "10.0.0.0/".toList = some ⟨0, 0⟩ := by decide +kernel
  refine ⟨haccept, fun h => ?_⟩
  obtain ⟨c, htext, -⟩ := (h _).mp haccept
  have hslash : '/' ∉ "10.0.0.0".toList := by decide
  exact ((Cidr.isText_slash (t := []) hslash c).mp htext).2.ne_nil rfl

end HawkGate
