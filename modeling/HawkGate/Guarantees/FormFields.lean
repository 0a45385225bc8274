-- SUMMARY: Which value of a login form the authentication provider is given for a field.
import Mathlib.Data.Bool.AllAny
import HawkGate.Daemon.Portal
import HawkGate.Lib.FormUrlencoded

/-!
# Login forms

`parse_form_field` searches the body for the name and an equals sign, and takes
the text up to the next ampersand. In an encoded form this is the encoded value of
the first field whose encoded name ends with the name. The provider is given the
value that the client meant exactly if that text is its value.
-/

namespace HawkGate

open CString StdString FormUrlencoded

/-! ## A search in a form -/

/-- The encoded value of the first field whose encoded name ends with `key`, nothing if there is
    none. -/
def firstMatch (fields : List FormField) (key : List Char) : List Char :=
  (fields.find? fun f => key.isSuffixOf f.nameText).elim [] FormField.valueText

section
variable {key : List Char}

/-- A name and an equals sign occur in a field at the end of its name only. -/
theorem infix_fieldText_iff (f : FormField) :
    key ++ ['='] <:+: f.text ↔ key <:+ f.nameText := by
  have hname : '=' ∉ f.nameText := f.name_encodes.not_mem (Or.inr rfl)
  have hvalue : '=' ∉ f.valueText := f.value_encodes.not_mem (Or.inr rfl)
  constructor
  · rintro ⟨u, v, huv⟩
    have htext : (u ++ key) ++ '=' :: v = f.nameText ++ '=' :: f.valueText := by
      rw [← FormField.text, ← huv]
      simp only [List.append_assoc, List.cons_append, List.nil_append]
    have hcount := congrArg (List.count '=') htext
    simp only [List.count_append, List.count_cons_self, List.count_eq_zero_of_not_mem hname,
      List.count_eq_zero_of_not_mem hvalue] at hcount
    have hu : '=' ∉ u ++ key := by
      rw [← List.count_eq_zero, List.count_append]
      omega
    have hsplit := splitFirst_append (t := v) hu
    rw [htext, splitFirst_append hname] at hsplit
    have hnameText : f.nameText = u ++ key := congrArg Prod.fst (Option.some.inj hsplit)
    exact ⟨u, hnameText.symm⟩
  · rintro ⟨u, hu⟩
    refine ⟨u, f.valueText, ?_⟩
    rw [FormField.text, ← hu]
    simp only [List.append_assoc, List.cons_append, List.nil_append]

/-- The first occurrence in a text that begins with a field whose name ends with the key. -/
theorem cut_fieldText {f : FormField} (h : key <:+ f.nameText) (rest : List Char) :
    ∃ before, cut (key ++ ['=']) (f.text ++ rest) = some (before, f.valueText ++ rest) := by
  obtain ⟨u, hu⟩ := h
  refine ⟨u, ?_⟩
  have hnone : ¬ key ++ ['='] <:+: u ++ (key ++ ['=']).dropLast := by
    rw [List.dropLast_concat, hu]
    intro hin
    exact f.name_encodes.not_mem (c := '=') (Or.inr rfl)
      (hin.subset (List.mem_append_right key (List.mem_singleton.mpr rfl)))
  have hcut := cut_append_self (by simp) hnone (f.valueText ++ rest)
  rw [← hcut, FormField.text, ← hu]
  simp only [List.append_assoc, List.cons_append, List.nil_append]

theorem firstMatch_cons_of_suffix {f : FormField} (h : key <:+ f.nameText)
    (fields : List FormField) : firstMatch (f :: fields) key = f.valueText := by
  rw [firstMatch, List.find?_cons, List.isSuffixOf_iff_suffix.mpr h]
  rfl

theorem firstMatch_cons_of_not_suffix {f : FormField} (h : ¬ key <:+ f.nameText)
    (fields : List FormField) : firstMatch (f :: fields) key = firstMatch fields key := by
  have hnot : key.isSuffixOf f.nameText = false := by
    rw [Bool.eq_false_iff, ne_eq, List.isSuffixOf_iff_suffix]
    exact h
  rw [firstMatch, List.find?_cons, hnot, firstMatch]

theorem parseFormField_of_cut_none {body : List Char} (h : cut (key ++ ['=']) body = none) :
    parseFormField body key = [] := by
  rw [parseFormField, h]

/-- What is found in a form. -/
theorem parseFormField_formText (hamp : '&' ∉ key) (fields : List FormField) :
    parseFormField (formText fields) key = firstMatch fields key := by
  have hpat : '&' ∉ key ++ ['='] := by
    rw [List.mem_append, not_or]
    exact ⟨hamp, by decide⟩
  induction fields with
  | nil =>
    refine parseFormField_of_cut_none (cut_eq_none_iff.mpr fun hin => ?_)
    have hnil : key ++ ['='] = [] := List.infix_nil.mp hin
    exact absurd hnil (by simp)
  | cons f fields ih =>
    by_cases hsuf : key <:+ f.nameText
    · rw [firstMatch_cons_of_suffix hsuf]
      have hvalue : '&' ∉ f.valueText := f.value_encodes.not_mem (Or.inl rfl)
      cases fields with
      | nil =>
        obtain ⟨before, hcut⟩ := cut_fieldText hsuf []
        rw [List.append_nil, List.append_nil] at hcut
        rw [formText_singleton, parseFormField, hcut]
        dsimp only
        rw [splitFirst_eq_none hvalue]
        rfl
      | cons g fields =>
        obtain ⟨before, hcut⟩ := cut_fieldText hsuf ('&' :: formText (g :: fields))
        rw [formText_cons, parseFormField, hcut]
        dsimp only
        rw [splitFirst_append hvalue]
        rfl
    · rw [firstMatch_cons_of_not_suffix hsuf, ← ih]
      have hnot : ¬ key ++ ['='] <:+: f.text := fun hin => hsuf ((infix_fieldText_iff f).mp hin)
      cases fields with
      | nil =>
        rw [formText_singleton, parseFormField_of_cut_none (cut_eq_none_iff.mpr hnot), ih]
        rfl
      | cons g fields =>
        rw [formText_cons, parseFormField, cut_append_cons hpat hnot, parseFormField]
        cases cut (key ++ ['=']) (formText (g :: fields)) with
        | none => rfl
        | some r => rfl

end

/-! ## Credentials -/

/-- The text `v` is the encoded value of the first field whose encoded name ends with `key`; without
    such a field it is empty. -/
def MatchedAs (fields : List FormField) (key v : List Char) : Prop :=
  (∃ before g after, fields = before ++ g :: after ∧ (∀ e ∈ before, ¬ key <:+ e.nameText) ∧
    key <:+ g.nameText ∧ g.valueText = v) ∨
  ((∀ e ∈ fields, ¬ key <:+ e.nameText) ∧ v = [])

theorem firstMatch_eq_iff {fields : List FormField} {key v : List Char} :
    firstMatch fields key = v ↔ MatchedAs fields key v := by
  have hexcl : ∀ before g after, fields = before ++ g :: after →
      (∀ e ∈ before, ¬ key <:+ e.nameText) → key <:+ g.nameText →
      firstMatch fields key = g.valueText := by
    rintro before g after rfl hbefore hg
    induction before with
    | nil => exact firstMatch_cons_of_suffix hg after
    | cons e before ih =>
      rw [List.forall_mem_cons] at hbefore
      rw [List.cons_append, firstMatch_cons_of_not_suffix hbefore.1, ih hbefore.2]
  constructor
  · rintro rfl
    cases hfind : fields.find? fun f => key.isSuffixOf f.nameText with
    | none =>
      refine Or.inr ⟨fun e he hsuf => ?_, by rw [firstMatch, hfind]; rfl⟩
      exact List.find?_eq_none.mp hfind e he (List.isSuffixOf_iff_suffix.mpr hsuf)
    | some g =>
      obtain ⟨hg, before, after, rfl, hbefore⟩ := List.find?_eq_some_iff_append.mp hfind
      refine Or.inl ⟨before, g, after, rfl, fun e he hsuf => ?_,
        List.isSuffixOf_iff_suffix.mp hg, by rw [firstMatch, hfind]; rfl⟩
      have hnot := hbefore e he
      rw [List.isSuffixOf_iff_suffix.mpr hsuf] at hnot
      cases hnot
  · rintro (⟨before, g, after, hfields, hbefore, hg, rfl⟩ | ⟨hnone, rfl⟩)
    · exact hexcl before g after hfields hbefore hg
    · have hfind : (fields.find? fun f => key.isSuffixOf f.nameText) = none :=
        List.find?_eq_none.mpr fun e he hsuf => hnone e he (List.isSuffixOf_iff_suffix.mp hsuf)
      rw [firstMatch, hfind]
      rfl

/-- A form with a username and a password. -/
structure LoginForm where
  fields : List FormField
  names_distinct : (fields.map FormField.name).Nodup
  username : ∃ f ∈ fields, bytesText f.name = "username".toList
  password : ∃ f ∈ fields, bytesText f.name = "password".toList

/-- The provider is given the values of the fields named username and password. -/
def LoginForm.Faithful (form : LoginForm) : Prop :=
  ∀ (req : HttpRequest) (clientIp : List Char), ∀ f ∈ form.fields,
    let creds := loginCredentials { req with body := formText form.fields } clientIp
    (bytesText f.name = "username".toList → creds.username = bytesText f.value) ∧
      (bytesText f.name = "password".toList → creds.password = bytesText f.value)

/-- For both names the first field whose encoded name ends with it is written with the value of the
    field of that name. -/
def LoginForm.Plain (form : LoginForm) : Prop :=
  ∀ key ∈ ["username".toList, "password".toList], ∀ f ∈ form.fields, bytesText f.name = key →
    MatchedAs form.fields key (bytesText f.value)

/-- The provider is given what the client meant exactly for plain forms. -/
theorem LoginForm.faithful_iff (form : LoginForm) : form.Faithful ↔ form.Plain := by
  have huser : ∀ f : FormField, MatchedAs form.fields "username".toList (bytesText f.value) ↔
      parseFormField (formText form.fields) "username".toList = bytesText f.value := by
    intro f
    rw [parseFormField_formText (by decide), firstMatch_eq_iff]
  have hpass : ∀ f : FormField, MatchedAs form.fields "password".toList (bytesText f.value) ↔
      parseFormField (formText form.fields) "password".toList = bytesText f.value := by
    intro f
    rw [parseFormField_formText (by decide), firstMatch_eq_iff]
  constructor
  · intro h key hkey f hf hname
    obtain ⟨hu, hp⟩ := h .init [] f hf
    rw [List.mem_cons, List.mem_singleton] at hkey
    rcases hkey with rfl | rfl
    · exact (huser f).mpr (hu hname)
    · exact (hpass f).mpr (hp hname)
  · intro h req clientIp f hf
    constructor
    · exact fun hname => (huser f).mp (h _ (by simp) f hf hname)
    · exact fun hname => (hpass f).mp (h _ (by simp) f hf hname)

/-- The bytes of an ASCII text. -/
def asciiBytes (s : String) : List UInt8 := s.toList.map Char.toUInt8

/-- A field that is sent as it is. -/
def rawField (name value : String) (hname : ∀ b ∈ asciiBytes name, byteChar b ∉ reserved)
    (hvalue : ∀ b ∈ asciiBytes value, byteChar b ∉ reserved) : FormField where
  name := asciiBytes name
  value := asciiBytes value
  nameText := bytesText (asciiBytes name)
  valueText := bytesText (asciiBytes value)
  name_encodes := encodes_raw hname
  value_encodes := encodes_raw hvalue

/-- The user name `a@b`, sent with its at sign encoded. -/
def mailField : FormField where
  name := asciiBytes "username"
  value := asciiBytes "a@b"
  nameText := "username".toList
  valueText := "a%40b".toList
  name_encodes := encodes_raw (List.all_iff_forall_prop.mp rfl : ∀ b ∈ asciiBytes "username", _)
  value_encodes := .cons (.raw (b := 97) (by decide))
    (.cons (.percent (b := 64) (m := 4) (n := 0) rfl rfl rfl)
      (.cons (.raw (b := 98) (by decide)) .nil))

def mailLogin : LoginForm where
  fields := [mailField, rawField "password" "secret" (List.all_iff_forall_prop.mp rfl)
    (List.all_iff_forall_prop.mp rfl)]
  names_distinct := by decide
  username := ⟨mailField, List.mem_cons_self, by decide⟩
  password := ⟨_, List.mem_cons_of_mem _ List.mem_cons_self, by decide⟩

/-- The provider is asked about `a%40b`. -/
theorem encoded_username_not_decoded : ¬ mailLogin.Faithful := by
  intro h
  have huser := (h .init [] mailField List.mem_cons_self).1 (by decide)
  have hwhat : (loginCredentials { HttpRequest.init with body := formText mailLogin.fields }
      []).username = "a%40b".toList := by decide +kernel
  rw [hwhat] at huser
  exact absurd huser (by decide)

end HawkGate
