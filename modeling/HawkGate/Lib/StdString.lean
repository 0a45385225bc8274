-- SUMMARY: The string operations of the C++ library that the daemon uses: searching, trimming, and number conversion.
import HawkGate.Lib.CString
import Mathlib.Data.List.DropRight

/-!
# C++ strings

A `std::string` is the list of its characters; unlike a C string it may hold
NUL characters. Searching for a separator and taking the text on both sides of
it is one operation here.
-/

namespace StdString

open CString

/-- `c_str()` as a C function sees it. -/
def cStr (s : List Char) : CString := s.takeWhile (· ≠ Char.ofNat 0)

/-- The text of an address has no NUL. -/
theorem cStr_inetNtop (ip : UInt32) : cStr (inetNtop ip) = inetNtop ip := by
  rw [cStr, List.takeWhile_eq_self_iff]
  intro c hc
  rw [decide_eq_true_iff]
  rintro rfl
  exact not_mem_inetNtop (by decide) (by decide) ip hc

/-- The texts before and after the first occurrence of `pat`. -/
def cut (pat : List Char) : List Char → Option (List Char × List Char)
  | [] => if pat = [] then some ([], []) else none
  | c :: s =>
    if pat.isPrefixOf (c :: s) then some ([], (c :: s).drop pat.length)
    else (cut pat s).map fun r => (c :: r.1, r.2)

/-- A search goes on where the pattern does not start. -/
theorem cut_cons {pat s : List Char} {c : Char} (h : ¬ pat <+: c :: s) :
    cut pat (c :: s) = (cut pat s).map fun r => (c :: r.1, r.2) := by
  rw [cut, if_neg fun hpre => h (List.isPrefixOf_iff_prefix.mp hpre)]

/-- An occurrence at the start is the first one. -/
theorem cut_of_prefix (pat s : List Char) : cut pat (pat ++ s) = some ([], s) := by
  cases pat with
  | nil =>
    cases s with
    | nil => rfl
    | cons c s => rfl
  | cons c pat =>
    rw [List.cons_append, cut, if_pos, ← List.cons_append,
      List.drop_append_of_le_length le_rfl, List.drop_length, List.nil_append]
    exact List.isPrefixOf_iff_prefix.mpr (List.prefix_append (c :: pat) s)

theorem eq_of_cut {pat s a b : List Char} (h : cut pat s = some (a, b)) : s = a ++ pat ++ b := by
  induction s generalizing a with
  | nil =>
    unfold cut at h
    split at h
    · next hpat =>
      obtain ⟨rfl, rfl⟩ := Prod.mk.inj (Option.some.inj h)
      rw [hpat]
      rfl
    · cases h
  | cons c s ih =>
    unfold cut at h
    split at h
    · next hpre =>
      obtain ⟨rfl, rfl⟩ := Prod.mk.inj (Option.some.inj h)
      exact (List.prefix_iff_eq_append.mp (List.isPrefixOf_iff_prefix.mp hpre)).symm
    · obtain ⟨⟨a', b'⟩, hcut, heq⟩ := Option.map_eq_some_iff.mp h
      obtain ⟨rfl, rfl⟩ := Prod.mk.inj heq
      rw [ih hcut]
      rfl

/-- A search goes on behind a text in which no occurrence starts. -/
theorem cut_append {pat t : List Char} (s : List Char)
    (h : ∀ u ∈ t.tails, u ≠ [] → pat.take u.length ≠ u.take pat.length) :
    cut pat (t ++ s) = (cut pat s).map fun r => (t ++ r.1, r.2) := by
  induction t with
  | nil => simp
  | cons c t ih =>
    have hpre : pat.isPrefixOf (c :: (t ++ s)) = false := by
      rw [Bool.eq_false_iff, ne_eq, List.isPrefixOf_iff_prefix]
      intro hpre
      have hpat : pat.take (c :: t).length <+: (c :: t) ++ s := (List.take_prefix _ _).trans hpre
      have htext : (c :: t).take pat.length <+: (c :: t) ++ s :=
        (List.take_prefix _ _).trans (List.prefix_append _ _)
      have hlen : (pat.take (c :: t).length).length = ((c :: t).take pat.length).length := by
        rw [List.length_take, List.length_take, Nat.min_comm]
      exact h (c :: t) (by simp) (List.cons_ne_nil c t)
        ((List.prefix_of_prefix_length_le hpat htext hlen.le).eq_of_length hlen)
    rw [List.cons_append, cut, hpre, ih fun u hu => h u (by simp [hu])]
    simp [Function.comp_def]

/-- A match stays where it is when text is added at the end. -/
theorem cut_append_right {pat s a b : List Char} (h : cut pat s = some (a, b)) (t : List Char) :
    cut pat (s ++ t) = some (a, b ++ t) := by
  induction s generalizing a with
  | nil =>
    unfold cut at h
    split at h
    · next hpat =>
      obtain ⟨rfl, rfl⟩ := Prod.mk.inj (Option.some.inj h)
      subst hpat
      cases t with
      | nil => rfl
      | cons c t => rfl
    · cases h
  | cons c s ih =>
    unfold cut at h
    rw [List.cons_append, cut]
    split at h
    · next hpre =>
      obtain ⟨rfl, rfl⟩ := Prod.mk.inj (Option.some.inj h)
      have hpat : pat <+: c :: s := List.isPrefixOf_iff_prefix.mp hpre
      have hlong : pat <+: c :: (s ++ t) := hpat.trans (List.prefix_append (c :: s) t)
      rw [if_pos (List.isPrefixOf_iff_prefix.mpr hlong), ← List.cons_append,
        List.drop_append_of_le_length hpat.length_le]
    · next hpre =>
      obtain ⟨⟨a', b'⟩, hcut, heq⟩ := Option.map_eq_some_iff.mp h
      obtain ⟨rfl, rfl⟩ := Prod.mk.inj heq
      rw [ih hcut]
      split
      · next hlong =>
        refine absurd (List.isPrefixOf_iff_prefix.mpr ?_) hpre
        have hlen : pat.length ≤ (c :: s).length := by
          rw [eq_of_cut hcut, List.length_cons, List.length_append, List.length_append]
          omega
        exact List.prefix_of_prefix_length_le (List.isPrefixOf_iff_prefix.mp hlong)
          (List.prefix_append (c :: s) t) hlen
      · rfl

/-- Nothing is found exactly if the pattern does not occur. -/
theorem cut_eq_none_iff {pat s : List Char} : cut pat s = none ↔ ¬ pat <:+: s := by
  constructor
  · rintro hcut ⟨a, b, hs⟩
    induction a generalizing s with
    | nil =>
      subst hs
      cases pat with
      | nil => cases b <;> simp [cut] at hcut
      | cons c pat =>
        rw [List.nil_append, List.cons_append, cut, if_pos] at hcut
        · cases hcut
        · exact List.isPrefixOf_iff_prefix.mpr (List.prefix_append (c :: pat) b)
    | cons c a ih =>
      subst hs
      rw [List.cons_append, List.cons_append, cut] at hcut
      split at hcut
      · cases hcut
      · exact ih (Option.map_eq_none_iff.mp hcut) rfl
  · intro h
    cases hcut : cut pat s with
    | none => rfl
    | some r => exact absurd ⟨r.1, r.2, (eq_of_cut hcut).symm⟩ h

/-- The first match of a pattern behind a text in which none starts. -/
theorem cut_append_self {pat a : List Char} (hpat : pat ≠ []) (h : ¬ pat <:+: a ++ pat.dropLast)
    (b : List Char) : cut pat (a ++ pat ++ b) = some (a, b) := by
  induction a with
  | nil => exact cut_of_prefix pat b
  | cons c a ih =>
    have hpre : ¬ pat <+: c :: (a ++ pat ++ b) := by
      intro hpre
      refine h (List.IsPrefix.isInfix ?_)
      refine List.prefix_of_prefix_length_le hpre ?_ ?_
      · rw [List.append_assoc, ← List.cons_append]
        exact List.prefix_append_right_inj (c :: a) |>.mpr
          ((List.dropLast_prefix pat).trans (List.prefix_append pat b))
      · have hlen := List.length_pos_of_ne_nil hpat
        rw [List.length_append, List.length_dropLast, List.length_cons]
        omega
    rw [List.cons_append, List.cons_append, cut_cons hpre,
      ih fun hin => h (hin.trans (List.suffix_cons c _).isInfix)]
    rfl

/-- No occurrence reaches over a character that the pattern does not have. -/
theorem infix_append_cons {α : Type} {pat a b : List α} {c : α} (hc : c ∉ pat) :
    pat <:+: a ++ c :: b ↔ pat <:+: a ∨ pat <:+: b := by
  have hpre : ∀ t, t <+: c :: b → (∀ x ∈ t, x ∈ pat) → t = [] := by
    intro t ht hsub
    cases t with
    | nil => rfl
    | cons x t =>
      obtain ⟨rfl, -⟩ := List.cons_prefix_cons.mp ht
      exact absurd (hsub x List.mem_cons_self) hc
  constructor
  · rw [List.infix_append_iff, List.infix_cons_iff]
    rintro (ha | (hb | hb) | ⟨u, v, rfl, hu, hv⟩)
    · exact Or.inl ha
    · rw [hpre pat hb fun _ hx => hx]
      exact Or.inl (List.nil_infix)
    · exact Or.inr hb
    · rw [hpre v hv fun x hx => List.mem_append_right u hx, List.append_nil]
      exact Or.inl hu.isInfix
  · rintro (ha | hb)
    · exact ha.trans (List.prefix_append a _).isInfix
    · exact hb.trans ((List.suffix_cons c b).trans (List.suffix_append a _)).isInfix

/-- A search goes on behind a text without a match and a character that the pattern does not
    have. -/
theorem cut_append_cons {pat t : List Char} {c : Char} (hc : c ∉ pat) (ht : ¬ pat <:+: t)
    (s : List Char) :
    cut pat (t ++ c :: s) = (cut pat s).map fun r => (t ++ c :: r.1, r.2) := by
  have hpat : pat ≠ [] := fun hnil => ht (hnil ▸ List.nil_infix)
  induction t with
  | nil =>
    have hpre : ¬ pat <+: c :: s := by
      intro hpre
      cases pat with
      | nil => exact hpat rfl
      | cons d pat =>
        obtain ⟨rfl, -⟩ := List.cons_prefix_cons.mp hpre
        exact hc List.mem_cons_self
    rw [List.nil_append, cut_cons hpre]
    rfl
  | cons d t ih =>
    have hpre : ¬ pat <+: d :: (t ++ c :: s) := by
      rintro ⟨u, hu⟩
      rcases List.append_eq_append_iff.mp (hu.trans (List.cons_append).symm) with
        ⟨v, hv, -⟩ | ⟨v, hv, hcs⟩
      · exact ht (hv ▸ (List.prefix_append pat v).isInfix)
      · cases v with
        | nil =>
          rw [List.append_nil] at hv
          exact ht (hv ▸ List.infix_rfl)
        | cons e v =>
          obtain ⟨rfl, -⟩ := List.cons.inj hcs
          exact hc (hv ▸ List.mem_append_right _ List.mem_cons_self)
    rw [List.cons_append, cut_cons hpre,
      ih fun hin => ht (hin.trans (List.suffix_cons d t).isInfix)]
    simp [Function.comp_def]

/-- The blanks that `trim` removes. -/
def isBlank (c : Char) : Bool := c = ' ' || c = '\t' || c = '\n' || c = '\r'

def trim (s : List Char) : List Char := (s.dropWhile isBlank).rdropWhile isBlank

theorem trim_subset (s : List Char) : trim s ⊆ s :=
  List.Subset.trans (List.rdropWhile_prefix _ _).subset (List.dropWhile_suffix _).subset

/-- What is left of the blanks at the end when only those in front are dropped. -/
theorem exists_dropWhile_blanks (s : List Char) :
    ∃ b, (∀ c ∈ b, isBlank c = true) ∧ s.dropWhile isBlank = trim s ++ b := by
  refine ⟨(s.dropWhile isBlank).rtakeWhile isBlank, fun c hc => List.mem_rtakeWhile_imp hc, ?_⟩
  rw [trim, List.rdropWhile, List.rtakeWhile, ← List.reverse_append,
    List.takeWhile_append_dropWhile, List.reverse_reverse]

/-- A text is what is trimmed of it between blanks. -/
theorem exists_trim (s : List Char) :
    ∃ a b, (∀ c ∈ a, isBlank c = true) ∧ (∀ c ∈ b, isBlank c = true) ∧ s = a ++ (trim s ++ b) := by
  obtain ⟨b, hb, hdrop⟩ := exists_dropWhile_blanks s
  refine ⟨s.takeWhile isBlank, b, fun c hc => List.mem_takeWhile_imp hc, hb, ?_⟩
  rw [← hdrop, List.takeWhile_append_dropWhile]

theorem trim_blanks_append {b : List Char} (hb : ∀ c ∈ b, isBlank c = true) (s : List Char) :
    trim (b ++ s) = trim s := by
  rw [trim, List.dropWhile_append_of_pos hb, trim]

theorem trim_append_blanks {b : List Char} (hb : ∀ c ∈ b, isBlank c = true) (s : List Char) :
    trim (s ++ b) = trim s := by
  have hrev : ∀ c ∈ b.reverse, isBlank c = true := fun c hc => hb c (List.mem_reverse.mp hc)
  rw [trim, trim, List.dropWhile_append]
  split
  · next hs =>
    rw [List.isEmpty_iff.mp hs, List.dropWhile_eq_nil_iff.mpr hb]
  · rw [List.rdropWhile, List.reverse_append, List.dropWhile_append_of_pos hrev, List.rdropWhile]

theorem trim_eq_self {s : List Char} (h : ∀ c ∈ s, isBlank c = false) : trim s = s := by
  have hself : s.dropWhile isBlank = s := by
    cases s with
    | nil => rfl
    | cons c s => exact List.dropWhile_cons_of_neg (by simp [h c List.mem_cons_self])
  rw [trim, hself, List.rdropWhile_eq_self_iff]
  intro hne
  simp [h _ (List.getLast_mem hne)]

/-- What is added to a text from a character on that is not blank stays behind it, with blanks in
    between. -/
theorem exists_trim_append {b : List Char} {x : Char} (hb : ∀ c ∈ b, isBlank c = true)
    (hx : isBlank x = false) (s t : List Char) :
    ∃ gap t', (∀ c ∈ gap, isBlank c = true) ∧
      trim (s ++ b ++ x :: t) = trim s ++ gap ++ x :: t' := by
  obtain ⟨gap, hgap, hdrop⟩ := exists_dropWhile_blanks (s ++ b)
  rw [trim_append_blanks hb] at hdrop
  have hleft : (s ++ b ++ x :: t).dropWhile isBlank = trim s ++ gap ++ x :: t := by
    rw [List.dropWhile_append, List.dropWhile_cons_of_neg (by simp [hx]), hdrop]
    split
    · next hnil => rw [List.isEmpty_iff.mp hnil, List.nil_append]
    · rfl
  have hright : ∀ u, (u ++ x :: t).rdropWhile isBlank = u ++ x :: t.rdropWhile isBlank := by
    intro u
    rw [List.rdropWhile, List.rdropWhile, List.reverse_append, List.reverse_cons,
      List.append_assoc, List.dropWhile_append]
    split
    · next ht => simp [List.isEmpty_iff.mp ht, hx]
    · simp
  exact ⟨gap, t.rdropWhile isBlank, hgap, by rw [trim, hleft, hright]⟩

/-- Trimming removes blanks only. -/
theorem count_trim {c : Char} (hc : isBlank c = false) (s : List Char) :
    (trim s).count c = s.count c := by
  obtain ⟨a, b, ha, hb, heq⟩ := exists_trim s
  have hnot : ∀ t : List Char, (∀ c ∈ t, isBlank c = true) → t.count c = 0 := by
    intro t ht
    refine List.count_eq_zero.mpr fun hmem => ?_
    rw [ht c hmem] at hc
    cases hc
  conv_rhs => rw [heq]
  rw [List.count_append, List.count_append, hnot a ha, hnot b hb, Nat.zero_add, Nat.add_zero]

theorem mem_trim {c : Char} (hc : isBlank c = false) {s : List Char} : c ∈ trim s ↔ c ∈ s := by
  rw [← List.count_pos_iff, ← List.count_pos_iff, count_trim hc]

/-- `tolower` in the "C" locale. -/
def toLower (s : List Char) : List Char := s.map Char.toLower

/-- A character in front of the letters is the lower case of itself only. -/
theorem toLower_eq_iff {c d : Char} (hd : d.toNat < 65) : c.toLower = d ↔ c = d := by
  unfold Char.toLower
  split
  · next h =>
    have hle : 65 ≤ c.toNat := h.1
    have hup : c.toNat ≤ 90 := h.2
    constructor
    · intro heq
      have hval := congrArg Char.toNat heq
      have hlow : (c.val + ('a'.val - 'A'.val)).toNat = c.toNat + 32 := by
        rw [UInt32.toNat_add]
        change (c.toNat + 32) % 2 ^ 32 = c.toNat + 32
        omega
      change (c.val + ('a'.val - 'A'.val)).toNat = d.toNat at hval
      omega
    · rintro rfl
      omega
  · rfl

/-- Such a text occurs in the lower case of a text where it occurs in the text. -/
theorem infix_toLower {pat s : List Char} (h : ∀ c ∈ pat, c.toNat < 65) :
    pat <:+: toLower s ↔ pat <:+: s := by
  rw [toLower, List.infix_map_iff]
  constructor
  · rintro ⟨t, ht, heq⟩
    have hself : t.map Char.toLower = t.map id := by
      refine List.map_congr_left fun c hc => ?_
      have hmem : c.toLower ∈ pat := heq ▸ List.mem_map_of_mem hc
      exact ((toLower_eq_iff (h _ hmem)).mp rfl).symm
    rw [heq, hself, List.map_id]
    exact ht
  · intro hin
    refine ⟨pat, hin, ?_⟩
    have hself : pat.map Char.toLower = pat.map id :=
      List.map_congr_left fun c hc => (toLower_eq_iff (h c hc)).mpr rfl
    rw [hself, List.map_id]

/-! ## Numbers -/

/-- The sign and the digits that `strtoul` converts in base 10, if there are any digits. -/
def leadingNumber (s : CString) : Option (Bool × Nat) :=
  let (neg, t) := splitSign (s.dropWhile isSpace)
  let digits := t.takeWhile Char.isDigit
  if digits = [] then none else some (neg, Nat.ofDigitChars 10 digits 0)

/-- `std::stoul` and `std::stoull`, which have 64 bits both: `none` where they throw. A minus
    sign is accepted and negates modulo 2^64. -/
def stoull (s : List Char) : Option UInt64 :=
  match leadingNumber (cStr s) with
  | none => none
  | some (neg, n) =>
    if 2 ^ 64 ≤ n then none
    else some (if neg then -(UInt64.ofNat n) else UInt64.ofNat n)

/-- A text that begins with a number: blanks, a sign if there is one, and digits, with a tail
    that does not go on with digits. -/
structure NumberText (s blanks sign digits tail : List Char) (n : Nat) : Prop where
  text : s = blanks ++ sign ++ digits ++ tail
  blanks : ∀ c ∈ blanks, isSpace c = true
  sign : sign = [] ∨ sign = ['+'] ∨ sign = ['-']
  digits : DecimalText digits n
  tail : ∀ c ∈ tail.head?, c.isDigit = false

/-- A NUL in a text ends what a C function reads of it. -/
theorem cStr_append {s : List Char} (h : Char.ofNat 0 ∉ s) (t : List Char) :
    cStr (s ++ t) = s ++ cStr t := by
  refine List.takeWhile_append_of_pos fun c hc => ?_
  rw [decide_eq_true_iff]
  rintro rfl
  exact h hc

theorem cStr_append_of_nul {s : List Char} (h : Char.ofNat 0 ∈ s) (t : List Char) :
    cStr (s ++ t) = cStr s := by
  obtain ⟨u, v, rfl, hu⟩ := List.eq_append_cons_of_mem h
  rw [List.append_assoc, cStr_append hu, cStr_append hu, List.cons_append]
  simp [cStr]

theorem cStr_eq_self {s : List Char} (h : Char.ofNat 0 ∉ s) : cStr s = s := by
  simpa [cStr] using cStr_append h []

theorem head?_cStr {s : List Char} {c : Char} (h : c ∈ (cStr s).head?) : c ∈ s.head? := by
  cases s with
  | nil => cases h
  | cons d s =>
    rw [cStr, List.takeWhile_cons] at h
    split at h
    · exact h
    · cases h

section
variable {s blanks sign digits tail : List Char} {n : Nat}

theorem NumberText.not_mem_nul (h : NumberText s blanks sign digits tail n) :
    Char.ofNat 0 ∉ blanks ++ sign ++ digits := by
  rw [List.mem_append, List.mem_append]
  rintro ((hin | hin) | hin)
  · exact absurd (h.blanks _ hin) (by decide)
  · rcases h.sign with rfl | rfl | rfl
    · cases hin
    · exact absurd hin (by decide)
    · exact absurd hin (by decide)
  · exact absurd (h.digits.digits _ hin) (by decide)

/-- The sign of a number is found behind its blanks. -/
theorem splitSign_number (hsign : sign = [] ∨ sign = ['+'] ∨ sign = ['-'])
    (hdigits : DecimalText digits n) (t : List Char) :
    splitSign (sign ++ digits ++ t) = (decide (sign = ['-']), digits ++ t) := by
  rcases hsign with rfl | rfl | rfl
  · obtain ⟨c, u, rfl, hc⟩ := hdigits.exists_cons
    exact splitSign_of_isDigit hc
  · rfl
  · rfl

theorem dropWhile_number (hblanks : ∀ c ∈ blanks, isSpace c = true)
    (hsign : sign = [] ∨ sign = ['+'] ∨ sign = ['-']) (hdigits : DecimalText digits n)
    (t : List Char) :
    (blanks ++ sign ++ digits ++ t).dropWhile isSpace = sign ++ digits ++ t := by
  have hstop : ∃ c u, sign ++ digits ++ t = c :: u ∧ isSpace c = false := by
    rcases hsign with rfl | rfl | rfl
    · obtain ⟨c, u, rfl, hc⟩ := hdigits.exists_cons
      exact ⟨c, u ++ t, rfl, not_isSpace_of_isDigit hc⟩
    · exact ⟨'+', digits ++ t, rfl, by decide⟩
    · exact ⟨'-', digits ++ t, rfl, by decide⟩
  obtain ⟨c, u, heq, hc⟩ := hstop
  rw [List.append_assoc, List.append_assoc, ← List.append_assoc sign, heq,
    List.dropWhile_append_of_pos hblanks, List.dropWhile_cons_of_neg (by simp [hc])]

theorem takeWhile_number (hdigits : DecimalText digits n) {t : List Char}
    (ht : ∀ c ∈ t.head?, c.isDigit = false) : (digits ++ t).takeWhile Char.isDigit = digits := by
  rw [List.takeWhile_append_of_pos hdigits.digits]
  cases t with
  | nil => rw [List.takeWhile_nil, List.append_nil]
  | cons c t => rw [List.takeWhile_cons_of_neg (by simp [ht c rfl]), List.append_nil]

/-- A number is converted up to its tail. -/
theorem NumberText.leadingNumber_eq (h : NumberText s blanks sign digits tail n) :
    leadingNumber (cStr s) = some (decide (sign = ['-']), n) := by
  have htail : ∀ c ∈ (cStr tail).head?, c.isDigit = false := fun c hc => h.tail c (head?_cStr hc)
  rw [h.text, cStr_append h.not_mem_nul, leadingNumber,
    dropWhile_number h.blanks h.sign h.digits, splitSign_number h.sign h.digits]
  dsimp only
  rw [takeWhile_number h.digits htail, if_neg h.digits.ne_nil, h.digits.value]

end

theorem exists_sign (t : CString) :
    ∃ sign : List Char, (sign = [] ∨ sign = ['+'] ∨ sign = ['-']) ∧ t = sign ++ (splitSign t).2 := by
  unfold splitSign
  split
  · exact ⟨['-'], Or.inr (Or.inr rfl), rfl⟩
  · exact ⟨['+'], Or.inr (Or.inl rfl), rfl⟩
  · exact ⟨[], Or.inl rfl, rfl⟩

/-- Where a run of characters of a class ends, none of the class follows. -/
theorem head?_dropWhile {p : Char → Bool} {t : List Char} {c : Char}
    (h : c ∈ (t.dropWhile p).head?) : p c = false := by
  have hnot := List.head?_dropWhile_not p t
  rw [Option.mem_def.mp h] at hnot
  simpa using hnot

/-- Every conversion is one of a text that begins with a number. -/
theorem exists_number {s : List Char} {neg : Bool} {n : Nat}
    (h : leadingNumber (cStr s) = some (neg, n)) :
    ∃ blanks sign digits tail, NumberText s blanks sign digits tail n := by
  obtain ⟨sign, hsign, hrest⟩ := exists_sign ((cStr s).dropWhile isSpace)
  unfold leadingNumber at h
  dsimp only at h
  generalize (splitSign ((cStr s).dropWhile isSpace)).2 = t at h hrest
  by_cases hdigits : t.takeWhile Char.isDigit = []
  · rw [if_pos hdigits] at h
    cases h
  · rw [if_neg hdigits] at h
    obtain ⟨-, rfl⟩ := Prod.mk.inj (Option.some.inj h)
    refine ⟨(cStr s).takeWhile isSpace, sign, t.takeWhile Char.isDigit,
      t.dropWhile Char.isDigit ++ s.dropWhile (· ≠ Char.ofNat 0),
      ?_, fun c hc => List.mem_takeWhile_imp hc, hsign,
      ⟨hdigits, fun c hc => List.mem_takeWhile_imp hc, rfl⟩, ?_⟩
    · have hcStr : cStr s = (cStr s).takeWhile isSpace ++ (sign ++ (t.takeWhile Char.isDigit ++
          t.dropWhile Char.isDigit)) := by
        rw [List.takeWhile_append_dropWhile, ← hrest, List.takeWhile_append_dropWhile]
      calc s = cStr s ++ s.dropWhile (· ≠ Char.ofNat 0) := (List.takeWhile_append_dropWhile).symm
        _ = (cStr s).takeWhile isSpace ++ (sign ++ (t.takeWhile Char.isDigit ++
            t.dropWhile Char.isDigit)) ++ s.dropWhile (· ≠ Char.ofNat 0) :=
          congrArg (· ++ s.dropWhile (· ≠ Char.ofNat 0)) hcStr
        _ = _ := by simp only [List.append_assoc]
    · intro c hc
      rw [List.head?_append, Option.mem_def, Option.or_eq_some_iff] at hc
      rcases hc with hc | ⟨-, hc⟩
      · exact head?_dropWhile hc
      · have hnul := head?_dropWhile hc
        rw [decide_eq_false_iff_not, not_not] at hnul
        rw [hnul]
        decide

/-- A number is read from a text in one way only. -/
theorem NumberText.unique {s b₁ g₁ d₁ t₁ b₂ g₂ d₂ t₂ : List Char} {n₁ n₂ : Nat}
    (h₁ : NumberText s b₁ g₁ d₁ t₁ n₁) (h₂ : NumberText s b₂ g₂ d₂ t₂ n₂) : g₁ = g₂ ∧ t₁ = t₂ := by
  have hdrop : g₁ ++ d₁ ++ t₁ = g₂ ++ d₂ ++ t₂ := by
    rw [← dropWhile_number h₁.blanks h₁.sign h₁.digits, ← h₁.text, h₂.text,
      dropWhile_number h₂.blanks h₂.sign h₂.digits]
  have hsplit := congrArg splitSign hdrop
  rw [splitSign_number h₁.sign h₁.digits, splitSign_number h₂.sign h₂.digits] at hsplit
  have hnum : d₁ ++ t₁ = d₂ ++ t₂ := congrArg Prod.snd hsplit
  have hdigits : d₁ = d₂ := by
    rw [← takeWhile_number h₁.digits h₁.tail, hnum, takeWhile_number h₂.digits h₂.tail]
  rw [List.append_assoc, List.append_assoc, hnum] at hdrop
  rw [hdigits] at hnum
  exact ⟨List.append_cancel_right hdrop, List.append_cancel_left hnum⟩

section
variable {s blanks sign digits tail : List Char} {n : Nat}

/-- What is converted of a number: it must fit, and a minus sign negates it. -/
theorem NumberText.stoull_eq (h : NumberText s blanks sign digits tail n) :
    stoull s = if 2 ^ 64 ≤ n then none
      else some (if sign = ['-'] then -(UInt64.ofNat n) else UInt64.ofNat n) := by
  rw [stoull, h.leadingNumber_eq]
  simp only [decide_eq_true_eq]

end

/-- A decimal number that fits is converted. -/
theorem stoull_decimal {n : Nat} (h : n < 2 ^ 64) :
    stoull (decimal n) = some (UInt64.ofNat n) := by
  have hnum : NumberText (decimal n) [] [] (decimal n) [] n :=
    ⟨by simp, by simp, Or.inl rfl, decimalText_decimal n, by simp⟩
  rw [hnum.stoull_eq, if_neg (by omega), if_neg (by decide)]

theorem isSpace_of_isBlank {c : Char} (h : isBlank c = true) : isSpace c = true := by
  simp only [isBlank, Bool.or_eq_true, decide_eq_true_eq] at h
  rcases h with ((rfl | rfl) | rfl) | rfl
  all_goals decide

theorem splitSign_append {u : CString} (hu : u ≠ []) (t : CString) :
    splitSign (u ++ t) = ((splitSign u).1, (splitSign u).2 ++ t) := by
  cases u with
  | nil => exact absurd rfl hu
  | cons c u =>
    rw [List.cons_append]
    unfold splitSign
    split
    · next heq =>
      obtain ⟨rfl, rfl⟩ := List.cons.inj heq
      rfl
    · next heq =>
      obtain ⟨rfl, rfl⟩ := List.cons.inj heq
      rfl
    · next hminus hplus =>
      split
      · next heq => exact absurd (congrArg (· ++ t) heq) (hminus _)
      · next heq => exact absurd (congrArg (· ++ t) heq) (hplus _)
      · rfl

/-- A number does not change by what follows it behind blanks, if that is neither a sign nor a
    digit. -/
theorem leadingNumber_append {gap : List Char} {x : Char} (hgap : ∀ c ∈ gap, isSpace c = true)
    (hspace : isSpace x = false) (hsign : x ≠ '-' ∧ x ≠ '+') (hdigit : x.isDigit = false)
    (u t : CString) : leadingNumber (u ++ (gap ++ x :: t)) = leadingNumber u := by
  have hstop : (gap ++ x :: t).takeWhile Char.isDigit = [] := by
    cases gap with
    | nil => exact List.takeWhile_cons_of_neg (by simp [hdigit])
    | cons c gap =>
      refine List.takeWhile_cons_of_neg fun hc => ?_
      have hspace := hgap c List.mem_cons_self
      rw [not_isSpace_of_isDigit hc] at hspace
      cases hspace
  unfold leadingNumber
  by_cases hu : u.dropWhile isSpace = []
  · have hsplit : splitSign (x :: t) = (false, x :: t) := by
      unfold splitSign
      split
      · next heq => exact absurd (List.cons.inj heq).1 hsign.1
      · next heq => exact absurd (List.cons.inj heq).1 hsign.2
      · rfl
    rw [List.dropWhile_append, hu, if_pos List.isEmpty_nil, List.dropWhile_append_of_pos hgap,
      List.dropWhile_cons_of_neg (by simp [hspace]), hsplit]
    simp [splitSign, hdigit]
  · have hnot : ¬ (u.dropWhile isSpace).isEmpty = true := fun h => hu (List.isEmpty_iff.mp h)
    rw [List.dropWhile_append, if_neg hnot, splitSign_append hu]
    simp only [List.takeWhile_append, hstop, List.append_nil]
    split
    · next hall => rw [(List.takeWhile_prefix _).eq_of_length hall]
    · rfl

/-- The number that a text states. -/
def statedNumber (s : List Char) : Int :=
  match leadingNumber (cStr s) with
  | none => 0
  | some (neg, n) => if neg then -n else n

/-- A conversion yields the stated number modulo 2^64. -/
theorem toNat_stoull {s : List Char} {x : UInt64} (h : stoull s = some x) :
    (x.toNat : Int) = statedNumber s % 2 ^ 64 := by
  unfold stoull at h
  unfold statedNumber
  cases hn : leadingNumber (cStr s) with
  | none => simp [hn] at h
  | some p =>
    obtain ⟨neg, n⟩ := p
    simp only [hn] at h ⊢
    split at h
    · cases h
    · next hlt =>
      obtain rfl := Option.some.inj h
      cases neg with
      | false =>
        simp only [Bool.false_eq_true, if_false, UInt64.toNat_ofNat']
        omega
      | true =>
        simp only [if_true, UInt64.toNat_neg, UInt64.toNat_ofNat', UInt64.size]
        omega

end StdString
