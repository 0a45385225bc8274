-- SUMMARY: The format application/x-www-form-urlencoded: what texts encode a list of fields.
import HawkGate.Lib.CString

/-!
# Form encoding

A form is a list of fields, each a name and a value of bytes. A byte is written
as itself unless it is reserved, a blank may be written as a plus sign, and every
byte may be written as a percent sign and two hexadecimal digits. A field is its
name, an equals sign and its value; fields are joined by ampersands.
-/

namespace FormUrlencoded

open CString

/-- The character that stands for a byte in a text. -/
def byteChar (b : UInt8) : Char := Char.ofNat b.toNat

def bytesText (bs : List UInt8) : List Char := bs.map byteChar

/-- The characters with a meaning of their own. -/
def reserved : List Char := ['%', '+', '&', '=']

/-- A text that stands for one byte. -/
inductive EncodesByte (b : UInt8) : List Char → Prop where
  | raw (h : byteChar b ∉ reserved) : EncodesByte b [byteChar b]
  | plus (h : b = 32) : EncodesByte b ['+']
  | percent {hi lo : Char} {m n : Nat} (hhi : hexVal hi = some m) (hlo : hexVal lo = some n)
      (h : 16 * m + n = b.toNat) : EncodesByte b ['%', hi, lo]

/-- A text that stands for a byte string. -/
inductive Encodes : List UInt8 → List Char → Prop where
  | nil : Encodes [] []
  | cons {b : UInt8} {bs : List UInt8} {s t : List Char} (hb : EncodesByte b s)
      (hbs : Encodes bs t) : Encodes (b :: bs) (s ++ t)

/-- A field and the texts that it is written with. -/
structure FormField where
  name : List UInt8
  value : List UInt8
  nameText : List Char
  valueText : List Char
  name_encodes : Encodes name nameText
  value_encodes : Encodes value valueText

def FormField.text (f : FormField) : List Char := f.nameText ++ '=' :: f.valueText

/-- The fields as they are sent. -/
def formText (fields : List FormField) : List Char :=
  List.intercalate ['&'] (fields.map FormField.text)

/-- Bytes that are written as themselves. -/
theorem encodes_raw {bs : List UInt8} (h : ∀ b ∈ bs, byteChar b ∉ reserved) :
    Encodes bs (bytesText bs) := by
  induction bs with
  | nil => exact .nil
  | cons b bs ih =>
    rw [List.forall_mem_cons] at h
    exact .cons (.raw h.1) (ih h.2)

/-- A separator does not occur inside an encoded text. -/
theorem EncodesByte.not_mem {b : UInt8} {s : List Char} (h : EncodesByte b s) {c : Char}
    (hc : c = '&' ∨ c = '=') : c ∉ s := by
  have hreserved : c ∈ reserved := by
    rcases hc with rfl | rfl
    · decide
    · decide
  have hhex : hexVal c = none := by
    rcases hc with rfl | rfl
    · decide
    · decide
  cases h with
  | raw hraw =>
    rw [List.mem_singleton]
    rintro rfl
    exact hraw hreserved
  | plus _ =>
    rcases hc with rfl | rfl
    · decide
    · decide
  | percent hhi hlo _ =>
    rw [List.mem_cons, List.mem_cons, List.mem_singleton]
    rintro (rfl | rfl | rfl)
    · rcases hc with hc | hc
      · exact absurd hc (by decide)
      · exact absurd hc (by decide)
    · rw [hhex] at hhi
      cases hhi
    · rw [hhex] at hlo
      cases hlo

theorem Encodes.not_mem {bs : List UInt8} {s : List Char} (h : Encodes bs s) {c : Char}
    (hc : c = '&' ∨ c = '=') : c ∉ s := by
  induction h with
  | nil => exact List.not_mem_nil
  | cons hb _ ih =>
    rw [List.mem_append, not_or]
    exact ⟨hb.not_mem hc, ih⟩

theorem formText_singleton (f : FormField) : formText [f] = f.text := by
  simp [formText]

theorem formText_cons (f g : FormField) (fields : List FormField) :
    formText (f :: g :: fields) = f.text ++ '&' :: formText (g :: fields) := by
  simp [formText, List.intercalate]

end FormUrlencoded
