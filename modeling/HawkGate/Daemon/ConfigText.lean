-- SUMMARY: The text of a configuration file as one writes it, and what its lines mean to the reader.
import HawkGate.Daemon.ConfigUpdates

/-!
# Configuration text

A file states a configuration by one line for each key, in any order, and the
two sections with the lists. Keys and values may have blanks around them, lists
may be cut into lines, and blank lines and comments may stand anywhere.
-/

namespace HawkGate

open CString StdString Fields

/-! ## Words and lists -/

/-- A text with blanks around it. -/
def Padded (s t : List Char) : Prop :=
  ∃ a b, (∀ c ∈ a, isBlank c = true) ∧ (∀ c ∈ b, isBlank c = true) ∧ t = a ++ s ++ b

theorem Padded.trim_eq {s t : List Char} (h : Padded s t) (hs : trim s = s) : trim t = s := by
  obtain ⟨a, b, ha, hb, rfl⟩ := h
  rw [trim_append_blanks hb, trim_blanks_append ha, hs]

/-- Names with commas between them. -/
def NameList (names : List (List Char)) (t : List Char) : Prop :=
  ∃ pieces, List.Forall₂ Padded names pieces ∧ t = [','].intercalate pieces

theorem splitCsv_append (s t : List Char) : splitCsv (s ++ ',' :: t) = splitCsv s ++ splitCsv t := by
  rw [splitCsv, splitCsv, splitCsv, List.splitOn_append_cons_self, List.map_append,
    List.filter_append, List.map_append]

theorem splitCsv_single {s : List Char} (h : ',' ∉ s) :
    splitCsv s = if trim s = [] then [] else [toLower (trim s)] := by
  rw [splitCsv, List.splitOn_eq_singleton h]
  by_cases hs : trim s = []
  · simp [hs]
  · simp [hs]

theorem not_comma_of_blanks {b : List Char} (hb : ∀ c ∈ b, isBlank c = true) : ',' ∉ b :=
  fun h => absurd (hb _ h) (by decide)

theorem splitCsv_blanks_append {b : List Char} (hb : ∀ c ∈ b, isBlank c = true) (s : List Char) :
    splitCsv (b ++ s) = splitCsv s := by
  have hfirst : ∀ u : List Char, ',' ∉ u → splitCsv (b ++ u) = splitCsv u := by
    intro u hu
    have hbu : ',' ∉ b ++ u := by simp [hu, not_comma_of_blanks hb]
    rw [splitCsv_single hbu, splitCsv_single hu, trim_blanks_append hb]
  by_cases hs : ',' ∈ s
  · obtain ⟨u, v, rfl, hu⟩ := List.eq_append_cons_of_mem hs
    rw [← List.append_assoc, splitCsv_append, splitCsv_append, hfirst u hu]
  · exact hfirst s hs

theorem splitCsv_append_blanks {b : List Char} (hb : ∀ c ∈ b, isBlank c = true) (s : List Char) :
    splitCsv (s ++ b) = splitCsv s := by
  have hlast : ∀ u : List Char, ',' ∉ u → splitCsv (u ++ b) = splitCsv u := by
    intro u hu
    have hub : ',' ∉ u ++ b := by simp [hu, not_comma_of_blanks hb]
    rw [splitCsv_single hub, splitCsv_single hu, trim_append_blanks hb]
  by_cases hs : ',' ∈ s
  · obtain ⟨v, u, hrev, hu⟩ := List.eq_append_cons_of_mem (List.mem_reverse.mpr hs)
    obtain rfl : s = u.reverse ++ ',' :: v.reverse := by
      rw [← List.reverse_reverse s, hrev]
      simp
    rw [List.append_assoc, List.cons_append, splitCsv_append, splitCsv_append,
      hlast _ (by simpa using hu)]
  · exact hlast s hs

/-- Blanks around a list do not matter. -/
theorem splitCsv_trim (s : List Char) : splitCsv (trim s) = splitCsv s := by
  obtain ⟨a, b, ha, hb, heq⟩ := exists_trim s
  conv_rhs => rw [heq, splitCsv_blanks_append ha, splitCsv_append_blanks hb]

/-- A name that is read back from a list. -/
structure ListName (name : List Char) : Prop where
  ne_nil : name ≠ []
  trimmed : trim name = name
  lower : toLower name = name
  comma : ',' ∉ name

instance (name : List Char) : Decidable (ListName name) :=
  decidable_of_iff (name ≠ [] ∧ trim name = name ∧ toLower name = name ∧ ',' ∉ name)
    ⟨fun ⟨hne, htrim, hlower, hcomma⟩ => ⟨hne, htrim, hlower, hcomma⟩,
      fun h => ⟨h.ne_nil, h.trimmed, h.lower, h.comma⟩⟩

theorem splitCsv_padded {name t : List Char} (hname : ListName name) (h : Padded name t) :
    splitCsv t = [name] := by
  have htrim := h.trim_eq hname.trimmed
  obtain ⟨a, b, ha, hb, rfl⟩ := h
  have hcomma : ',' ∉ a ++ name ++ b := by
    simp [hname.comma, not_comma_of_blanks ha, not_comma_of_blanks hb]
  rw [splitCsv_single hcomma, htrim, if_neg hname.ne_nil, hname.lower]

theorem splitCsv_nameList {names : List (List Char)} {t : List Char} (h : NameList names t)
    (hnames : ∀ name ∈ names, ListName name) : splitCsv t = names := by
  obtain ⟨pieces, hpieces, rfl⟩ := h
  induction hpieces with
  | nil => rfl
  | @cons name piece names pieces hpiece hpieces ih =>
    rw [List.forall_mem_cons] at hnames
    have hfirst := splitCsv_padded hnames.1 hpiece
    cases pieces with
    | nil =>
      cases hpieces
      simpa using hfirst
    | cons piece' pieces =>
      have hjoin : [','].intercalate (piece :: piece' :: pieces) =
          piece ++ ',' :: [','].intercalate (piece' :: pieces) := by
        rw [List.intercalate_cons_cons, List.append_assoc]
        rfl
      rw [hjoin, splitCsv_append, hfirst, ih hnames.2]
      rfl

/-! ## Lines -/

/-- A blank line or a comment. -/
def isFiller (line : List Char) : Bool :=
  match line.dropWhile isBlank with
  | [] => true
  | c :: _ => c = '#'

/-- A key, `=` and a value. -/
def Assignment (key value line : List Char) : Prop :=
  ∃ k, Padded key k ∧ line = k ++ '=' :: value

/-- A section's name in brackets. -/
def Header (name line : List Char) : Prop :=
  ∃ n tail, Padded name n ∧ line = '[' :: (n ++ ']' :: tail)

/-- The two sides of a line's first `=`, trimmed, and the names of the right one. -/
def lineFields (line : List Char) : Option (List Char × List Char) :=
  (splitFirst '=' line).map fun r => (trim r.1, trim r.2)

def lineNames (line : List Char) : Option (List Char × List (List Char)) :=
  (splitFirst '=' line).map fun r => (trim r.1, (r.2.splitOn ',').map trim)

theorem padded_trim (t : List Char) : Padded (trim t) t := by
  obtain ⟨a, b, ha, hb, heq⟩ := exists_trim t
  exact ⟨a, b, ha, hb, by rwa [List.append_assoc]⟩

theorem assignment_of_lineFields {key value line : List Char}
    (h : some (key, value) = lineFields line) :
    ∃ v, Padded value v ∧ Assignment key v line := by
  obtain ⟨⟨k, v⟩, hsplit, hfields⟩ := Option.map_eq_some_iff.mp h.symm
  obtain ⟨rfl, rfl⟩ := Prod.mk.inj hfields
  exact ⟨v, padded_trim v, k, padded_trim k, (eq_of_splitFirst hsplit).2⟩

theorem assignment_of_lineNames {key line : List Char} {names : List (List Char)}
    (h : some (key, names) = lineNames line) :
    ∃ v, NameList names v ∧ Assignment key v line := by
  obtain ⟨⟨k, v⟩, hsplit, hfields⟩ := Option.map_eq_some_iff.mp h.symm
  obtain ⟨rfl, rfl⟩ := Prod.mk.inj hfields
  refine ⟨v, ⟨v.splitOn ',', ?_, (List.intercalate_splitOn ',').symm⟩, k, padded_trim k,
    (eq_of_splitFirst hsplit).2⟩
  rw [List.forall₂_map_left_iff]
  exact List.forall₂_same.mpr fun piece _ => padded_trim piece

/-- A word that is read back as a key. -/
structure KeyWord (key : List Char) : Prop where
  trimmed : trim key = key
  equals : '=' ∉ key
  start : ∃ c t, key = c :: t ∧ c ≠ '#' ∧ c ≠ '['

theorem readLine_assignment {key value line : List Char} (hkey : KeyWord key)
    (h : Assignment key value line) : readLine line = .assign key (trim value) := by
  obtain ⟨k, hk, rfl⟩ := h
  have htrim := hk.trim_eq hkey.trimmed
  obtain ⟨a, b, ha, hb, rfl⟩ := hk
  obtain ⟨c, t, rfl, hhash, hopen⟩ := hkey.start
  have hequals : ∀ b : List Char, (∀ c ∈ b, isBlank c = true) → '=' ∉ b :=
    fun b hb hin => absurd (hb _ hin) (by decide)
  have hnot : '=' ∉ a ++ c :: t ++ b := by
    rw [List.mem_append, List.mem_append]
    rintro ((hin | hin) | hin)
    · exact hequals a ha hin
    · exact hkey.equals hin
    · exact hequals b hb hin
  have hstart : ∃ d u, a ++ c :: t ++ b ++ '=' :: value = d :: u ∧ d ≠ '#' ∧ d ≠ '[' := by
    cases a with
    | nil => exact ⟨c, _, rfl, hhash, hopen⟩
    | cons d a =>
      have hd := ha d List.mem_cons_self
      refine ⟨d, _, rfl, ?_, ?_⟩
      · rintro rfl
        exact absurd hd (by decide)
      · rintro rfl
        exact absurd hd (by decide)
  obtain ⟨d, u, heq, hdhash, hdopen⟩ := hstart
  rw [heq, readLine_of_ne hdhash hdopen, ← heq, splitFirst_append hnot]
  simp only [htrim]

theorem lineMeaning_assignment {key value line : List Char} (hkey : KeyWord key)
    (h : Assignment key value line) (sec : List Char) :
    lineMeaning sec line = assignMeaning sec key (trim value) := by
  rw [lineMeaning, readLine_assignment hkey h]

theorem lineMeaning_header {name line : List Char} (hname : trim name = name) (hclose : ']' ∉ name)
    (h : Header name line) (sec : List Char) : lineMeaning sec line = .enters name := by
  obtain ⟨n, tail, hn, rfl⟩ := h
  have htrim := hn.trim_eq hname
  obtain ⟨a, b, ha, hb, rfl⟩ := hn
  have hnot : ']' ∉ a ++ name ++ b := by
    rw [List.mem_append, List.mem_append]
    rintro ((hin | hin) | hin)
    · exact absurd (ha _ hin) (by decide)
    · exact hclose hin
    · exact absurd (hb _ hin) (by decide)
  rw [lineMeaning, readLine, splitFirst_append hnot]
  simp only [htrim]

/-- No key has a `#`. -/
theorem assignMeaning_of_hash {key : List Char} (h : '#' ∈ key) (sec value : List Char) :
    assignMeaning sec key value = .nothing := by
  have hne : ∀ word : List Char, '#' ∉ word → key ≠ word := fun word hword heq => hword (heq ▸ h)
  have hpreauth : preauthList key = none := by
    rw [preauthList, if_neg (hne _ (by decide)), if_neg (hne _ (by decide)),
      if_neg (hne _ (by decide))]
  have hkey : ConfigKey.ofText key = none := by
    rw [ConfigKey.ofText, List.find?_eq_none]
    intro k _
    rw [decide_eq_true_eq]
    refine (hne _ ?_).symm
    cases k <;> decide
  rw [assignMeaning, hpreauth, hkey, if_neg (hne "ip".toList (by decide))]
  simp

/-- A filler is passed over; a comment behind blanks is read as a key if it has a `=`. -/
theorem readLine_filler {line : List Char} (h : isFiller line = true) :
    readLine line = .skip ∨ ∃ key value, readLine line = .assign key value ∧ '#' ∈ key := by
  have hblanks : ∀ c ∈ line.takeWhile isBlank, isBlank c = true :=
    fun c hc => List.mem_takeWhile_imp hc
  have hline : line.takeWhile isBlank ++ line.dropWhile isBlank = line :=
    List.takeWhile_append_dropWhile
  generalize line.takeWhile isBlank = b at hblanks hline
  have hrest : line.dropWhile isBlank = [] ∨ ∃ t, line.dropWhile isBlank = '#' :: t := by
    unfold isFiller at h
    split at h
    · next hnil => exact Or.inl hnil
    · next c t hcons =>
      obtain rfl := of_decide_eq_true h
      exact Or.inr ⟨t, hcons⟩
  generalize line.dropWhile isBlank = rest at hline hrest
  subst hline
  cases b with
  | nil =>
    rcases hrest with rfl | ⟨t, rfl⟩
    · exact Or.inl rfl
    · exact Or.inl rfl
  | cons c b =>
    have hc := hblanks c List.mem_cons_self
    have hhash : c ≠ '#' := fun heq => absurd (heq ▸ hc) (by decide)
    have hopen : c ≠ '[' := fun heq => absurd (heq ▸ hc) (by decide)
    rw [List.cons_append, readLine_of_ne hhash hopen, ← List.cons_append]
    have hequals : '=' ∉ c :: b := fun hin => absurd (hblanks _ hin) (by decide)
    rcases hrest with rfl | ⟨t, rfl⟩
    · rw [List.append_nil, splitFirst_eq_none hequals]
      exact Or.inl rfl
    · cases hsplit : splitFirst '=' (c :: b ++ '#' :: t) with
      | none => exact Or.inl rfl
      | some r =>
        obtain ⟨k, v⟩ := r
        refine Or.inr ⟨_, _, rfl, (mem_trim (by decide)).mpr ?_⟩
        -- the `=` stands behind the `#`
        obtain ⟨-, heq⟩ := eq_of_splitFirst hsplit
        rcases List.append_eq_append_iff.mp heq with ⟨u, hk, hu⟩ | ⟨u, hb, hu⟩
        · cases u with
          | nil => exact absurd (List.cons.inj hu).1 (by decide)
          | cons d u =>
            obtain ⟨rfl, -⟩ := List.cons.inj hu
            rw [hk]
            exact List.mem_append_right _ List.mem_cons_self
        · cases u with
          | nil => exact absurd (List.cons.inj hu).1 (by decide)
          | cons d u =>
            obtain ⟨rfl, -⟩ := List.cons.inj hu
            exact absurd (hb ▸ List.mem_append_right _ List.mem_cons_self) hequals

/-- Blank lines and comments mean nothing. -/
theorem lineMeaning_filler {line : List Char} (h : isFiller line = true) (sec : List Char) :
    lineMeaning sec line = .nothing := by
  rcases readLine_filler h with hskip | ⟨key, value, hassign, hhash⟩
  · rw [lineMeaning, hskip]
  · rw [lineMeaning, hassign]
    exact assignMeaning_of_hash hhash sec value

theorem readUpdates_filter (sec : List Char) (lines : List (List Char)) :
    readUpdates sec lines = readUpdates sec (lines.filter fun line => !isFiller line) := by
  induction lines generalizing sec with
  | nil => rfl
  | cons line lines ih =>
    cases hline : isFiller line with
    | true =>
      rw [readUpdates, lineMeaning_filler hline, List.filter_cons_of_neg (by simp [hline])]
      exact ih sec
    | false =>
      rw [readUpdates, List.filter_cons_of_pos (by simp [hline]), readUpdates]
      cases lineMeaning sec line with
      | refused => rfl
      | nothing => exact ih sec
      | enters name => exact ih name
      | update u => simp only [ih sec]

end HawkGate
