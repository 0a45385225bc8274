-- SUMMARY: The C library's text functions: number parsing, dotted-quad addresses, and MAC scanning.
import HawkGate.Lib.Bytes
import Mathlib.Data.List.TakeWhile

/-!
# C strings

A C string is the list of its characters up to the terminating NUL. The
functions below follow the documented behaviour of the C library in the "C"
locale; `long` and `long long` have 64 bits and `int` has 32.
-/

abbrev CString := List Char

namespace CString

open Bytes

def isSpace (c : Char) : Bool := c = ' ' || ('\t' ≤ c && c ≤ '\r')

/-- An optional sign: whether it was a minus, and the text after it. -/
def splitSign : CString → Bool × CString
  | '-' :: s => (true, s)
  | '+' :: s => (false, s)
  | s => (false, s)

/-! ## Decimal numbers -/

/-- `strtol(s, NULL, 10)`: blanks, a sign and the longest run of digits,
    saturating at the range of `long`; 0 when there are no digits. -/
def strtol10 (s : CString) : Int :=
  let (neg, t) := splitSign (s.dropWhile isSpace)
  let n := Nat.ofDigitChars 10 (t.takeWhile Char.isDigit) 0
  if neg then max (-(n : Int)) (-2 ^ 63) else min (n : Int) (2 ^ 63 - 1)

def atoll (s : CString) : Int64 := Int64.ofInt (strtol10 s)

/-- `atoi` narrows the `long` that `strtol` returns. -/
def atoi (s : CString) : Int32 := Int32.ofInt (strtol10 s)

/-- `%u` of a natural number. -/
def decimal (n : Nat) : CString := Nat.toDigits 10 n

theorem isDigit_of_mem_decimal {n : Nat} {c : Char} (h : c ∈ decimal n) : c.isDigit = true :=
  Nat.isDigit_of_mem_toDigits (by decide) (by decide) h

theorem decimal_ne_nil (n : Nat) : decimal n ≠ [] := Nat.toDigits_ne_nil

/-- A character class that holds no digit does not occur in a decimal number. -/
theorem not_mem_decimal {c : Char} (hc : c.isDigit = false) (n : Nat) : c ∉ decimal n := by
  intro h
  rw [isDigit_of_mem_decimal h] at hc
  cases hc

theorem not_isSpace_of_isDigit {c : Char} (h : c.isDigit = true) : isSpace c = false := by
  simp only [Char.isDigit, Bool.and_eq_true, decide_eq_true_eq] at h
  have h0 : ' ' ≠ c := by
    rintro rfl
    exact absurd h.1 (by decide)
  have h1 : ¬ c ≤ '\r' := by
    intro hle
    have : '0' ≤ '\r' := Char.le_trans h.1 hle
    exact absurd this (by decide)
  simp [isSpace, h0.symm, h1]

theorem splitSign_of_isDigit {c : Char} {s : CString} (h : c.isDigit = true) :
    splitSign (c :: s) = (false, c :: s) := by
  unfold splitSign
  split
  · next heq => obtain ⟨rfl, -⟩ := List.cons.inj heq; exact absurd h (by decide)
  · next heq => obtain ⟨rfl, -⟩ := List.cons.inj heq; exact absurd h (by decide)
  · rfl

/-- A text that is a decimal number and nothing else; leading zeros are allowed. -/
structure DecimalText (t : CString) (n : Nat) : Prop where
  ne_nil : t ≠ []
  digits : ∀ c ∈ t, c.isDigit = true
  value : Nat.ofDigitChars 10 t 0 = n

theorem decimalText_decimal (n : Nat) : DecimalText (decimal n) n where
  ne_nil := decimal_ne_nil n
  digits := fun _ h => isDigit_of_mem_decimal h
  value := Nat.ofDigitChars_ten_toDigits

section
variable {t : CString} {n : Nat} (h : DecimalText t n)
include h

/-- A decimal number begins with a digit. -/
theorem DecimalText.exists_cons : ∃ c u, t = c :: u ∧ c.isDigit = true := by
  obtain ⟨c, u, rfl⟩ := List.exists_cons_of_ne_nil h.ne_nil
  exact ⟨c, u, rfl, h.digits c List.mem_cons_self⟩

theorem DecimalText.dropWhile_isSpace : t.dropWhile isSpace = t := by
  obtain ⟨c, u, rfl, hc⟩ := h.exists_cons
  rw [List.dropWhile_cons_of_neg (by simp [not_isSpace_of_isDigit hc])]

theorem DecimalText.splitSign_eq : splitSign t = (false, t) := by
  obtain ⟨c, u, rfl, hc⟩ := h.exists_cons
  exact splitSign_of_isDigit hc

end

/-- A text that is a whole number: blanks, a sign and a numeral. -/
def IntegerText (numeral : CString → Nat → Prop) (s : CString) (z : Int) : Prop :=
  ∃ neg t n, splitSign (s.dropWhile isSpace) = (neg, t) ∧ numeral t n ∧
    z = if neg then -(n : Int) else n

/-- A number is no empty text. -/
theorem IntegerText.ne_nil {numeral : CString → Nat → Prop} (hnil : ∀ n, ¬ numeral [] n)
    {s : CString} {z : Int} (h : IntegerText numeral s z) : s ≠ [] := by
  obtain ⟨neg, t, n, hsplit, ht, -⟩ := h
  rintro rfl
  obtain ⟨-, rfl⟩ := Prod.mk.inj hsplit
  exact hnil n ht

/-- A numeral by itself is a number. -/
theorem DecimalText.integerText {t : CString} {n : Nat} (h : DecimalText t n) :
    IntegerText DecimalText t n := by
  refine ⟨false, t, n, ?_, h, rfl⟩
  rw [h.dropWhile_isSpace, h.splitSign_eq]

/-- A decimal number is read as its value, up to the range of `long`. -/
theorem IntegerText.strtol10_eq {s : CString} {z : Int} (h : IntegerText DecimalText s z) :
    strtol10 s = max (-2 ^ 63) (min z (2 ^ 63 - 1)) := by
  obtain ⟨neg, t, n, hsplit, ht, rfl⟩ := h
  have htake : t.takeWhile Char.isDigit = t := List.takeWhile_eq_self_iff.mpr ht.digits
  simp only [strtol10, hsplit, htake, ht.value]
  cases neg with
  | false =>
    simp only [Bool.false_eq_true, if_false]
    omega
  | true =>
    simp only [if_true]
    omega

/-- A decimal number in the range of `int` is what `atoi` returns. -/
theorem IntegerText.toInt_atoi {s : CString} {z : Int} (h : IntegerText DecimalText s z)
    (hlo : -2 ^ 31 ≤ z) (hhi : z < 2 ^ 31) : (atoi s).toInt = z := by
  rw [atoi, h.strtol10_eq, Int32.toInt_ofInt_of_le]
  · omega
  · omega
  · omega

/-- What `atoll` returns for a decimal number. -/
theorem IntegerText.toInt_atoll {s : CString} {z : Int} (h : IntegerText DecimalText s z) :
    (atoll s).toInt = max (-2 ^ 63) (min z (2 ^ 63 - 1)) := by
  rw [atoll, h.strtol10_eq, Int64.toInt_ofInt_of_le]
  · omega
  · omega

/-- A `long long` as an unsigned number. -/
theorem toNat_toUInt64 (x : Int64) : (x.toUInt64.toNat : Int) = x.toInt % 2 ^ 64 := by
  change (x.toBitVec.toNat : Int) = x.toBitVec.toInt % 2 ^ 64
  have hlt := x.toBitVec.isLt
  rw [BitVec.toInt_eq_toNat_cond]
  split
  · omega
  · omega

/-- Reading back a printed number below the range of `long`. -/
theorem strtol10_decimal {n : Nat} (h : n < 2 ^ 63) : strtol10 (decimal n) = n := by
  rw [(decimalText_decimal n).integerText.strtol10_eq]
  omega

/-! ## Dotted-quad addresses -/

/-- One part of a dotted quad: one to three digits of value at most 255 without
    leading zeros. -/
def parseOctet (s : CString) : Option UInt8 :=
  let n := Nat.ofDigitChars 10 s 0
  if s ≠ [] ∧ s.all Char.isDigit ∧ (s.length = 1 ∨ s.head? ≠ some '0') ∧ n ≤ 255 then
    some (UInt8.ofNat n)
  else none

/-- `inet_pton(AF_INET, s, ·)`; the address is in network byte order. -/
def inetPton (s : CString) : Option UInt32 :=
  match s.splitOn '.' with
  | [a, b, c, d] => do
    let a ← parseOctet a
    let b ← parseOctet b
    let c ← parseOctet c
    let d ← parseOctet d
    return addrOfOctets a b c d
  | _ => none

/-- `inet_ntop(AF_INET, ·)` and `inet_ntoa`. -/
def inetNtop (ip : UInt32) : CString :=
  ['.'].intercalate [decimal (ip.toNat % 256), decimal (ip.toNat / 256 % 256),
    decimal (ip.toNat / 65536 % 256), decimal (ip.toNat / 16777216)]

theorem parseOctet_decimal {n : Nat} (h : n < 256) : parseOctet (decimal n) = some (UInt8.ofNat n) := by
  revert n
  decide +kernel

theorem inetPton_inetNtop (ip : UInt32) : inetPton (inetNtop ip) = some ip := by
  have hip := ip.toNat_lt
  have hsplit : (inetNtop ip).splitOn '.' =
      [decimal (ip.toNat % 256), decimal (ip.toNat / 256 % 256),
        decimal (ip.toNat / 65536 % 256), decimal (ip.toNat / 16777216)] := by
    apply List.splitOn_intercalate
    · intro l hl
      simp only [List.mem_cons, List.not_mem_nil, or_false] at hl
      rcases hl with rfl | rfl | rfl | rfl <;> exact not_mem_decimal (by decide) _
    · simp
  simp only [inetPton, hsplit]
  rw [parseOctet_decimal (by omega), parseOctet_decimal (by omega), parseOctet_decimal (by omega),
    parseOctet_decimal (by omega)]
  show some (addrOfOctets _ _ _ _) = some ip
  congr 1
  apply UInt32.toNat.inj
  simp only [addrOfOctets, UInt8.toNat_ofNat', UInt32.toNat_ofNat']
  omega

theorem inetNtop_eq (ip : UInt32) :
    inetNtop ip = decimal (ip.toNat % 256) ++ '.' :: (decimal (ip.toNat / 256 % 256) ++
      '.' :: (decimal (ip.toNat / 65536 % 256) ++ '.' :: decimal (ip.toNat / 16777216))) := by
  simp [inetNtop, List.intercalate]

theorem length_decimal_le {n : Nat} (h : n < 256) : (decimal n).length ≤ 3 := by
  revert n
  decide +kernel

/-- A printed address and its NUL fit 16 bytes. -/
theorem length_inetNtop_lt (ip : UInt32) : (inetNtop ip).length < 16 := by
  have hip := ip.toNat_lt
  have h0 := length_decimal_le (n := ip.toNat % 256) (by omega)
  have h1 := length_decimal_le (n := ip.toNat / 256 % 256) (by omega)
  have h2 := length_decimal_le (n := ip.toNat / 65536 % 256) (by omega)
  have h3 := length_decimal_le (n := ip.toNat / 16777216) (by omega)
  simp only [inetNtop_eq, List.length_append, List.length_cons]
  omega

/-- The parts of an address are short runs of digits. -/
theorem parseOctet_some {s : CString} {b : UInt8} (h : parseOctet s = some b) :
    (∀ c ∈ s, c.isDigit = true) ∧ s.length ≤ 3 := by
  unfold parseOctet at h
  dsimp only at h
  split at h
  · next hs =>
    obtain ⟨hne, hdigits, hzero, hle⟩ := hs
    have hall : ∀ c ∈ s, c.isDigit = true := by simpa using hdigits
    refine ⟨hall, ?_⟩
    obtain ⟨c, u, rfl⟩ := List.exists_cons_of_ne_nil hne
    rcases hzero with hone | hzero
    · omega
    · -- a first digit other than 0 makes the value at least a power of ten
      have hc := hall c List.mem_cons_self
      simp only [Char.isDigit, Bool.and_eq_true, decide_eq_true_eq] at hc
      have hlo : '0'.toNat ≤ c.toNat := hc.1
      have hne0 : c.toNat ≠ '0'.toNat := by
        intro heq
        exact hzero (by rw [List.head?_cons, Char.toNat_inj.mp heq])
      rw [Nat.ofDigitChars_cons, Nat.ofDigitChars_eq_ofDigitChars_zero] at hle
      have hpow : 10 ^ u.length * 1 ≤ 10 ^ u.length * (10 * 0 + (c.toNat - '0'.toNat)) :=
        Nat.mul_le_mul_left _ (by omega)
      have hlt : 10 ^ u.length < 10 ^ 3 := by omega
      have hlen := (Nat.pow_lt_pow_iff_right (by decide)).mp hlt
      simp only [List.length_cons]
      omega
  · cases h

/-- An address is a text of at most 15 digits and dots. -/
theorem inetPton_some {s : CString} {ip : UInt32} (h : inetPton s = some ip) :
    (∀ c ∈ s, c.isDigit = true ∨ c = '.') ∧ s.length ≤ 15 := by
  unfold inetPton at h
  split at h
  · next a b c d hsplit =>
    obtain ⟨x, ha, h⟩ := Option.bind_eq_some_iff.mp h
    obtain ⟨y, hb, h⟩ := Option.bind_eq_some_iff.mp h
    obtain ⟨z, hc, h⟩ := Option.bind_eq_some_iff.mp h
    obtain ⟨w, hd, -⟩ := Option.bind_eq_some_iff.mp h
    have htext : ['.'].intercalate (s.splitOn '.') = s := List.intercalate_splitOn '.'
    rw [hsplit] at htext
    obtain ⟨hac, hal⟩ := parseOctet_some ha
    obtain ⟨hbc, hbl⟩ := parseOctet_some hb
    obtain ⟨hcc, hcl⟩ := parseOctet_some hc
    obtain ⟨hdc, hdl⟩ := parseOctet_some hd
    have hs : s = a ++ '.' :: (b ++ '.' :: (c ++ '.' :: d)) := by
      rw [← htext]
      simp [List.intercalate]
    constructor
    · intro e he
      rw [hs] at he
      simp only [List.mem_append, List.mem_cons] at he
      rcases he with he | rfl | he | rfl | he | rfl | he
      · exact .inl (hac e he)
      · exact .inr rfl
      · exact .inl (hbc e he)
      · exact .inr rfl
      · exact .inl (hcc e he)
      · exact .inr rfl
      · exact .inl (hdc e he)
    · rw [hs]
      simp only [List.length_append, List.length_cons]
      omega
  · cases h

theorem inetPton_eq_none_of_length {s : CString} (h : 15 < s.length) : inetPton s = none := by
  cases hip : inetPton s with
  | none => rfl
  | some ip =>
    have hlen := (inetPton_some hip).2
    omega

theorem not_mem_inetNtop {c : Char} (hc : c.isDigit = false) (hdot : c ≠ '.') (ip : UInt32) :
    c ∉ inetNtop ip := by
  simp [inetNtop_eq, not_mem_decimal hc, hdot]

/-! ## Hexadecimal scanning -/

def hexVal (c : Char) : Option Nat :=
  if '0' ≤ c ∧ c ≤ '9' then some (c.toNat - '0'.toNat)
  else if 'a' ≤ c ∧ c ≤ 'f' then some (c.toNat - 'a'.toNat + 10)
  else if 'A' ≤ c ∧ c ≤ 'F' then some (c.toNat - 'A'.toNat + 10)
  else none

def ofHexChars (s : CString) : Nat :=
  s.foldl (fun n c => 16 * n + (hexVal c).getD 0) 0

/-- An unsigned value as `strtoul` reads it: saturated, then negated in 64 bits. -/
def ulongOf (neg : Bool) (n : Nat) : Nat :=
  if 2 ^ 64 ≤ n then 2 ^ 64 - 1 else if neg then (2 ^ 64 - n) % 2 ^ 64 else n

/-- Skip an optional `0x`. -/
def skipHexPrefix : CString → CString
  | '0' :: 'x' :: u => u
  | '0' :: 'X' :: u => u
  | u => u

def isHexDigit (c : Char) : Bool := (hexVal c).isSome

def isOctDigit (c : Char) : Bool := '0' ≤ c && c ≤ '7'

/-- `strtoul(s, NULL, 0)`: the base is 16 behind `0x`, 8 behind another leading zero,
    and 10 otherwise. -/
def strtoul0 (s : CString) : Nat :=
  let (neg, t) := splitSign (s.dropWhile isSpace)
  let hex := skipHexPrefix t
  if hex ≠ t ∧ hex.takeWhile isHexDigit ≠ [] then
    ulongOf neg (ofHexChars (hex.takeWhile isHexDigit))
  else if t.head? = some '0' then
    ulongOf neg (Nat.ofDigitChars 8 (t.takeWhile isOctDigit) 0)
  else ulongOf neg (Nat.ofDigitChars 10 (t.takeWhile Char.isDigit) 0)

/-- A numeral of base 16 behind `0x`, of base 8 behind another leading zero, and else of
    base 10. -/
inductive CNumeral : CString → Nat → Prop where
  | hex {x : Char} {t : CString} (hx : x = 'x' ∨ x = 'X') (hne : t ≠ [])
    (digits : ∀ c ∈ t, isHexDigit c = true) : CNumeral ('0' :: x :: t) (ofHexChars t)
  | oct {t : CString} (digits : ∀ c ∈ t, isOctDigit c = true) :
    CNumeral ('0' :: t) (Nat.ofDigitChars 8 ('0' :: t) 0)
  | dec {t : CString} {n : Nat} (text : DecimalText t n) (hne : t.head? ≠ some '0') : CNumeral t n

theorem not_cNumeral_nil (n : Nat) : ¬ CNumeral [] n := by
  intro h
  cases h with
  | dec text hne => exact text.ne_nil rfl

theorem skipHexPrefix_of_head {t : CString} (h : t.head? ≠ some '0') : skipHexPrefix t = t := by
  unfold skipHexPrefix
  split
  · exact absurd rfl h
  · exact absurd rfl h
  · rfl

/-- A numeral behind blanks and a sign is read as a whole. -/
theorem CNumeral.strtoul0_eq {s t : CString} {neg : Bool} {n : Nat} (h : CNumeral t n)
    (hsplit : splitSign (s.dropWhile isSpace) = (neg, t)) : strtoul0 s = ulongOf neg n := by
  rw [strtoul0, hsplit]
  dsimp only
  cases h with
  | @hex x t hx hne digits =>
    have hskip : skipHexPrefix ('0' :: x :: t) = t := by
      rcases hx with rfl | rfl <;> rfl
    have htake : t.takeWhile isHexDigit = t := List.takeWhile_eq_self_iff.mpr digits
    have hlen : t ≠ '0' :: x :: t := by
      intro heq
      have hlength := congrArg List.length heq
      simp only [List.length_cons] at hlength
      omega
    rw [hskip, htake, if_pos ⟨hlen, hne⟩]
  | @oct t digits =>
    have hskip : skipHexPrefix ('0' :: t) = '0' :: t := by
      unfold skipHexPrefix
      split
      · next heq =>
        rw [(List.cons.inj heq).2] at digits
        exact absurd (digits 'x' List.mem_cons_self) (by decide)
      · next heq =>
        rw [(List.cons.inj heq).2] at digits
        exact absurd (digits 'X' List.mem_cons_self) (by decide)
      · rfl
    have htake : ('0' :: t).takeWhile isOctDigit = '0' :: t := by
      refine List.takeWhile_eq_self_iff.mpr fun c hc => ?_
      rcases List.mem_cons.mp hc with rfl | hc
      · decide
      · exact digits c hc
    rw [hskip, htake, if_neg (fun hx => hx.1 rfl), if_pos List.head?_cons]
  | dec text hne =>
    have htake : t.takeWhile Char.isDigit = t := List.takeWhile_eq_self_iff.mpr text.digits
    rw [skipHexPrefix_of_head hne, htake, if_neg (fun hx => hx.1 rfl), if_neg hne, text.value]

/-- A number in the range of `unsigned long` is read as its value. -/
theorem IntegerText.strtoul0_eq {s : CString} {n : Nat} (h : IntegerText CNumeral s n)
    (hn : n < 2 ^ 64) : strtoul0 s = n := by
  obtain ⟨neg, t, m, hsplit, ht, hz⟩ := h
  rw [ht.strtoul0_eq hsplit]
  cases neg with
  | false =>
    have hm : m = n := by
      simp only [Bool.false_eq_true, if_false] at hz
      omega
    rw [ulongOf, if_neg (by omega), hm]
    rfl
  | true =>
    -- a number that is not negative has a minus in front of 0 only
    have hm : m = 0 ∧ n = 0 := by
      simp only [if_true] at hz
      omega
    rw [hm.1, hm.2]
    rfl

/-- The `%x` conversion: blanks, a sign, an optional `0x` and at least one digit.
    Returns the value and the text after it. -/
def scanHex (s : CString) : Option (Nat × CString) :=
  let (neg, t) := splitSign (s.dropWhile isSpace)
  let isHex := fun c => (hexVal c).isSome
  let body := skipHexPrefix t
  if body.takeWhile isHex = [] then none
  else some (ulongOf neg (ofHexChars (body.takeWhile isHex)), body.dropWhile isHex)

/-- `n` bytes by `%hhx`, separated by colons. -/
def scanHexBytes : Nat → CString → Option (List UInt8)
  | 0, _ => some []
  | 1, s => (scanHex s).map fun r => [UInt8.ofNat r.1]
  | n + 2, s =>
    match scanHex s with
    | some (v, ':' :: t) => (scanHexBytes (n + 1) t).map (UInt8.ofNat v :: ·)
    | _ => none

/-- `sscanf(s, "%hhx:%hhx:%hhx:%hhx:%hhx:%hhx", ...) == 6`. -/
def scanMac (s : CString) : Option (Vector UInt8 6) :=
  match scanHexBytes 6 s with
  | some [a, b, c, d, e, f] => some #v[a, b, c, d, e, f]
  | _ => none

/-- `%02x` of one byte. -/
def hexByte (b : UInt8) : CString :=
  [Nat.digitChar (b.toNat / 16), Nat.digitChar (b.toNat % 16)]

/-- A MAC address as colon-separated text. -/
def macText (mac : Vector UInt8 6) : CString :=
  [':'].intercalate (mac.toList.map hexByte)

/-- What scanning needs to know of a printed digit. -/
theorem hexVal_digitChar {n : Nat} (h : n < 16) :
    hexVal (Nat.digitChar n) = some n ∧ isSpace (Nat.digitChar n) = false ∧
      Nat.digitChar n ∉ ['-', '+', 'x', 'X'] := by
  revert n
  decide

theorem splitSign_of_not_sign {c : Char} {s : CString} (hm : c ≠ '-') (hp : c ≠ '+') :
    splitSign (c :: s) = (false, c :: s) := by
  unfold splitSign
  split
  · next heq => exact absurd (List.cons.inj heq).1 hm
  · next heq => exact absurd (List.cons.inj heq).1 hp
  · rfl

/-- Scanning stops behind a printed byte. -/
theorem scanHex_hexByte (b : UInt8) {t : CString} (ht : ∀ c ∈ t.head?, hexVal c = none) :
    scanHex (hexByte b ++ t) = some (b.toNat, t) := by
  have hb := b.toNat_lt
  obtain ⟨hv1, hs1, hc1⟩ := hexVal_digitChar (n := b.toNat / 16) (by omega)
  obtain ⟨hv2, -, hc2⟩ := hexVal_digitChar (n := b.toNat % 16) (by omega)
  simp only [List.mem_cons, List.not_mem_nil, or_false, not_or] at hc1 hc2
  generalize hx1 : Nat.digitChar (b.toNat / 16) = c1 at hv1 hs1 hc1
  generalize hx2 : Nat.digitChar (b.toNat % 16) = c2 at hv2 hc2
  have htext : hexByte b ++ t = c1 :: c2 :: t := by simp [hexByte, hx1, hx2]
  have hdrop : (c1 :: c2 :: t).dropWhile isSpace = c1 :: c2 :: t := by simp [hs1]
  have hrest : t.takeWhile (fun c => (hexVal c).isSome) = [] ∧
      t.dropWhile (fun c => (hexVal c).isSome) = t := by
    cases t with
    | nil => simp
    | cons c t => simp [ht c rfl]
  have hbody : skipHexPrefix (c1 :: c2 :: t) = c1 :: c2 :: t := by
    unfold skipHexPrefix
    split
    · next heq => exact absurd (List.cons.inj (List.cons.inj heq).2).1 hc2.2.2.1
    · next heq => exact absurd (List.cons.inj (List.cons.inj heq).2).1 hc2.2.2.2
    · rfl
  have hval : ulongOf false (ofHexChars [c1, c2]) = b.toNat := by
    simp only [ofHexChars, List.foldl_cons, List.foldl_nil, hv1, hv2, Option.getD_some, ulongOf]
    rw [if_neg (by omega), if_neg (by simp)]
    omega
  rw [scanHex, htext, hdrop, splitSign_of_not_sign hc1.1 hc1.2.1]
  dsimp only
  rw [hbody]
  simp [hv1, hv2, hrest, hval]

theorem scanHexBytes_cons {n : Nat} (b : UInt8) (t : CString) :
    scanHexBytes (n + 2) (hexByte b ++ ':' :: t) = (scanHexBytes (n + 1) t).map (b :: ·) := by
  rw [scanHexBytes, scanHex_hexByte b (by simp; decide)]
  simp

/-- A printed MAC address is read back. -/
theorem scanMac_macText (mac : Vector UInt8 6) : scanMac (macText mac) = some mac := by
  obtain ⟨⟨l⟩, hl⟩ := mac
  match l, hl with
  | [a, b, c, d, e, f], _ =>
    have htext : macText ⟨#[a, b, c, d, e, f], rfl⟩ =
        hexByte a ++ ':' :: (hexByte b ++ ':' :: (hexByte c ++ ':' :: (hexByte d ++
          ':' :: (hexByte e ++ ':' :: (hexByte f ++ []))))) := by
      simp [macText, List.intercalate]
    have hlast : scanHexBytes 1 (hexByte f ++ []) = some [f] := by
      rw [scanHexBytes, scanHex_hexByte f (by simp)]
      simp
    rw [htext, scanMac, scanHexBytes_cons, scanHexBytes_cons, scanHexBytes_cons,
      scanHexBytes_cons, scanHexBytes_cons, hlast]
    rfl

theorem length_macText (mac : Vector UInt8 6) : (macText mac).length = 17 := by
  obtain ⟨⟨l⟩, hl⟩ := mac
  match l, hl with
  | [a, b, c, d, e, f], _ => simp [macText, List.intercalate, hexByte]

/-! ## Searching -/

/-- The text after the last occurrence of `c`: `strrchr(s, c) + 1`. -/
def afterLast (c : Char) (s : CString) : Option CString :=
  if c ∈ s then some (s.reverse.takeWhile (· ≠ c)).reverse else none

/-- `strchr(s, c)`: the text before the first `c` and the text after it. -/
def splitFirst (c : Char) (s : CString) : Option (CString × CString) :=
  match s.dropWhile (· ≠ c) with
  | [] => none
  | _ :: t => some (s.takeWhile (· ≠ c), t)

theorem splitFirst_append {c : Char} {s t : CString} (h : c ∉ s) :
    splitFirst c (s ++ c :: t) = some (s, t) := by
  have hs : ∀ a ∈ s, (decide (a ≠ c)) = true := by
    intro a ha
    simpa using fun hac : a = c => h (hac ▸ ha)
  have hdrop : (s ++ c :: t).dropWhile (fun a => decide (a ≠ c)) = c :: t := by
    rw [List.dropWhile_append_of_pos hs, List.dropWhile_cons_of_neg (by simp)]
  have htake : (s ++ c :: t).takeWhile (fun a => decide (a ≠ c)) = s := by
    rw [List.takeWhile_append_of_pos hs, List.takeWhile_cons_of_neg (by simp), List.append_nil]
  simp only [splitFirst, hdrop, htake]

theorem splitFirst_eq_none {c : Char} {s : CString} (h : c ∉ s) : splitFirst c s = none := by
  have hdrop : s.dropWhile (fun a => decide (a ≠ c)) = [] := by
    rw [List.dropWhile_eq_nil_iff]
    intro a ha
    simpa using fun hac : a = c => h (hac ▸ ha)
  simp only [splitFirst, hdrop]

/-- A text is split around the first occurrence. -/
theorem eq_of_splitFirst {c : Char} {s a b : CString} (h : splitFirst c s = some (a, b)) :
    c ∉ a ∧ s = a ++ c :: b := by
  by_cases hc : c ∈ s
  · obtain ⟨u, v, rfl, hu⟩ := List.eq_append_cons_of_mem hc
    rw [splitFirst_append hu] at h
    obtain ⟨rfl, rfl⟩ := Prod.mk.inj (Option.some.inj h)
    exact ⟨hu, rfl⟩
  · rw [splitFirst_eq_none hc] at h
    cases h

/-- What is added at the end goes to the second part. -/
theorem splitFirst_append_right {c : Char} {s a b : CString} (h : splitFirst c s = some (a, b))
    (t : CString) : splitFirst c (s ++ t) = some (a, b ++ t) := by
  obtain ⟨ha, rfl⟩ := eq_of_splitFirst h
  rw [List.append_assoc, List.cons_append, splitFirst_append ha]

theorem splitFirst_subset {c : Char} {s a b : CString} (h : splitFirst c s = some (a, b)) :
    b ⊆ s := by
  obtain ⟨-, rfl⟩ := eq_of_splitFirst h
  exact fun x hx => List.mem_append_right a (List.mem_cons_of_mem c hx)

/-- The parts between separators do not contain the separator. -/
theorem not_mem_of_mem_splitOn {c : Char} {s l : CString} (h : l ∈ s.splitOn c) : c ∉ l := by
  induction s generalizing l with
  | nil =>
    rw [List.splitOn_nil, List.mem_singleton] at h
    rw [h]
    exact List.not_mem_nil
  | cons d s ih =>
    rw [List.splitOn_cons_eq_if_modifyHead] at h
    split at h
    · rcases List.mem_cons.mp h with rfl | h
      · exact List.not_mem_nil
      · exact ih h
    · next hne =>
      cases hs : s.splitOn c with
      | nil => exact absurd hs (List.splitOn_ne_nil c s)
      | cons first parts =>
        rw [hs, List.modifyHead_cons] at h
        rcases List.mem_cons.mp h with rfl | h
        · rw [List.mem_cons, not_or]
          refine ⟨fun heq => hne (beq_iff_eq.mpr heq.symm), ih ?_⟩
          rw [hs]
          exact List.mem_cons_self
        · refine ih ?_
          rw [hs]
          exact List.mem_cons_of_mem first h

/-- A text without `c`, or a part without `c` in front of the first one. -/
theorem not_mem_or_exists_append (c : Char) (s : CString) :
    c ∉ s ∨ ∃ a t, s = a ++ c :: t ∧ c ∉ a := by
  by_cases h : c ∈ s
  · obtain ⟨a, t, rfl, ha⟩ := List.eq_append_cons_of_mem h
    exact .inr ⟨a, t, rfl, ha⟩
  · exact .inl h

end CString
