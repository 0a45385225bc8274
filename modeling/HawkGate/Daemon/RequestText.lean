-- SUMMARY: The text of an HTTP request as lines of fields, and the parser's way through it.
import HawkGate.Daemon.HttpParser

/-!
# Request text

A request is a request line, field lines and an empty line, with anything behind
it. What the parser makes of the head depends on the fields only; what it makes
of the rest depends on the length it has read there.
-/

namespace HawkGate

open CString StdString

/-! ## Lines -/

/-- The first line of a text; a carriage return at its end belongs to it. -/
theorem cut_line {line : List Char} (h : ¬ crlf <:+: line) (rest : List Char) :
    cut crlf (line ++ crlf ++ rest) = some (line, rest) := by
  have hlast : ¬ crlf <:+ line ++ ['\r'] := by
    rintro ⟨t, ht⟩
    have hget := congrArg List.getLast? ht
    rw [List.getLast?_append, List.getLast?_concat] at hget
    simp [crlf] at hget
  refine cut_append_self (List.cons_ne_nil _ _) ?_ rest
  change ¬ crlf <:+: line ++ ['\r']
  rw [List.infix_concat_iff]
  rintro (hsuf | hin)
  · exact hlast hsuf
  · exact h hin

/-- The name of a field and the text behind its colon. -/
abbrev Field := List Char × List Char

def Field.line (f : Field) : List Char := f.1 ++ ':' :: f.2

/-- A field that is read back from its line. -/
structure Field.Proper (f : Field) : Prop where
  colon : ':' ∉ f.1
  name : ¬ crlf <:+: f.1
  text : ¬ crlf <:+: f.2

theorem Field.Proper.line_crlf {f : Field} (h : f.Proper) : ¬ crlf <:+: f.line := by
  rw [Field.line, infix_append_cons (by decide)]
  rintro (hin | hin)
  · exact h.name hin
  · exact h.text hin

theorem Field.line_ne_nil (f : Field) : f.line ≠ [] := by
  simp [Field.line]

/-- The lines of the fields and the empty line. -/
def fieldLines (fields : List Field) : List Char :=
  fields.flatMap (fun f => f.line ++ crlf) ++ crlf

theorem fieldLines_cons (f : Field) (fields : List Field) (rest : List Char) :
    fieldLines (f :: fields) ++ rest = f.line ++ crlf ++ (fieldLines fields ++ rest) := by
  simp only [fieldLines, List.flatMap_cons, List.append_assoc]

/-! ## What the parser makes of a field -/

theorem HttpRequest.header_setHeader (req : HttpRequest) (key value name : List Char) :
    (req.setHeader key value).header name = if name = key then some value else req.header name := by
  rw [HttpRequest.setHeader, HttpRequest.header, HttpRequest.header, List.lookup_cons]
  by_cases h : name = key
  · rw [if_pos h, beq_iff_eq.mpr h]
  · rw [if_neg h, beq_eq_false_iff_ne.mpr h]
    dsimp only
    induction req.headers with
    | nil => rfl
    | cons f headers ih =>
      by_cases hf : f.1 = key
      · have hne : (name == f.1) = false := beq_eq_false_iff_ne.mpr (hf ▸ h)
        rw [List.filter_cons_of_neg (by simpa using hf), ih, List.lookup_cons, hne]
      · rw [List.filter_cons_of_pos (by simpa using hf), List.lookup_cons, List.lookup_cons, ih]

/-- The request after a field, if the field is no malformed length. -/
def HttpRequest.setField (req : HttpRequest) (f : Field) : Option HttpRequest :=
  let req := req.setHeader f.1 (headerValue f.2)
  if f.1 = "Content-Length".toList then
    (stoull (headerValue f.2)).map fun n => { req with contentLength := n }
  else some req

/-- The request after all fields, if the parser gets that far. -/
def HttpRequest.setFields (req : HttpRequest) (fields : List Field) : Option HttpRequest :=
  fields.foldlM HttpRequest.setField req

theorem HttpRequest.setFields_cons (req : HttpRequest) (f : Field) (fields : List Field) :
    req.setFields (f :: fields) = (req.setField f).bind fun req => req.setFields fields :=
  List.foldlM_cons

/-- The length that a field leaves behind a length `n`. -/
def Field.length (n : UInt64) (f : Field) : Option UInt64 :=
  if f.1 = "Content-Length".toList then stoull (headerValue f.2) else some n

/-- The length that the fields state for a request: the last one counts, and all are read. -/
def lengthOf (n : UInt64) (fields : List Field) : Option UInt64 := fields.foldlM Field.length n

/-- The request with all fields in its header map. -/
def HttpRequest.withFields (req : HttpRequest) (fields : List Field) : HttpRequest :=
  fields.foldl (fun req f => req.setHeader f.1 (headerValue f.2)) req

theorem HttpRequest.setField_eq (req : HttpRequest) (f : Field) :
    req.setField f = (f.length req.contentLength).map fun n =>
      { req.setHeader f.1 (headerValue f.2) with contentLength := n } := by
  unfold HttpRequest.setField Field.length
  by_cases hkey : f.1 = "Content-Length".toList
  · rw [if_pos hkey, if_pos hkey]
  · rw [if_neg hkey, if_neg hkey]
    rfl

/-- The header map does not depend on the length. -/
theorem HttpRequest.withFields_contentLength (req : HttpRequest) (n : UInt64)
    (fields : List Field) :
    HttpRequest.withFields { req with contentLength := n } fields =
      { req.withFields fields with contentLength := n } := by
  induction fields generalizing req with
  | nil => rfl
  | cons f fields ih => exact ih (req.setHeader f.1 (headerValue f.2))

/-- All fields are set if all lengths are good. -/
theorem HttpRequest.setFields_eq (req : HttpRequest) (fields : List Field) :
    req.setFields fields = (lengthOf req.contentLength fields).map fun n =>
      { req.withFields fields with contentLength := n } := by
  induction fields generalizing req with
  | nil => rfl
  | cons f fields ih =>
    rw [HttpRequest.setFields_cons, HttpRequest.setField_eq, lengthOf, List.foldlM_cons]
    cases hn : f.length req.contentLength with
    | none => rfl
    | some n =>
      rw [Option.map_some, Option.bind_some, ih, HttpRequest.withFields_contentLength]
      rfl

/-- The fields of a request only touch its header map. -/
theorem HttpRequest.withFields_eq (req : HttpRequest) (fields : List Field) :
    req.withFields fields = { req with headers := (req.withFields fields).headers } := by
  induction fields generalizing req with
  | nil => rfl
  | cons f fields ih =>
    rw [HttpRequest.withFields, List.foldl_cons]
    exact ih (req.setHeader f.1 (headerValue f.2))

/-- Headers with distinct new names are added as they come. -/
theorem HttpRequest.headers_withFields {req : HttpRequest} {fields : List Field}
    (hnodup : (fields.map Prod.fst).Nodup)
    (hnew : ∀ f ∈ fields, ∀ h ∈ req.headers, h.1 ≠ f.1) :
    (req.withFields fields).headers =
      (fields.map fun f => (f.1, headerValue f.2)).reverse ++ req.headers := by
  induction fields generalizing req with
  | nil => rfl
  | cons f fields ih =>
    obtain ⟨hfresh, hrest⟩ := List.nodup_cons.mp hnodup
    have hkeep : req.headers.filter (·.1 ≠ f.1) = req.headers :=
      List.filter_eq_self.mpr fun h hh => by simpa using hnew f List.mem_cons_self h hh
    have hset : (req.setHeader f.1 (headerValue f.2)).headers =
        (f.1, headerValue f.2) :: req.headers := by
      rw [HttpRequest.setHeader, hkeep]
    rw [HttpRequest.withFields, List.foldl_cons, ← HttpRequest.withFields, ih hrest, hset]
    · simp
    · intro f' hf' h hh
      rw [hset] at hh
      rcases List.mem_cons.mp hh with rfl | hh
      · intro heq
        exact hfresh (List.mem_map.mpr ⟨f', hf', heq.symm⟩)
      · exact hnew f' (List.mem_cons_of_mem f hf') h hh

/-- Fields of other names state no length. -/
theorem lengthOf_of_forall_ne {fields : List Field}
    (h : ∀ f ∈ fields, f.1 ≠ "Content-Length".toList) (n : UInt64) : lengthOf n fields = some n := by
  induction fields with
  | nil => rfl
  | cons f fields ih =>
    rw [lengthOf, List.foldlM_cons, Field.length, if_neg (h f List.mem_cons_self)]
    exact ih fun f' hf' => h f' (List.mem_cons_of_mem f hf')

theorem lengthOf_append (n : UInt64) (fields more : List Field) :
    lengthOf n (fields ++ more) = (lengthOf n fields).bind fun k => lengthOf k more :=
  List.foldlM_append

/-- The one field that states a length. -/
theorem lengthOf_append_cons {before after : List Field} {f : Field}
    (hbefore : ∀ f ∈ before, f.1 ≠ "Content-Length".toList)
    (hf : f.1 = "Content-Length".toList)
    (hafter : ∀ f ∈ after, f.1 ≠ "Content-Length".toList) (n : UInt64) :
    lengthOf n (before ++ f :: after) = stoull (headerValue f.2) := by
  rw [lengthOf_append, lengthOf_of_forall_ne hbefore, Option.bind_some, lengthOf, List.foldlM_cons,
    Field.length, if_pos hf]
  cases hn : stoull (headerValue f.2) with
  | none => rfl
  | some k => exact lengthOf_of_forall_ne hafter k

namespace HgParser

/-- The way over the request line. -/
theorem parse_requestLine {line method path version : List Char} (hline : ¬ crlf <:+: line)
    (hparts : splitRequestLine line = some (method, path, version)) (req : HttpRequest)
    (rest : List Char) :
    (HgParser.mk .requestLine req (line ++ crlf ++ rest)).parse =
      (HgParser.mk .headers { req with method := method, path := path, version := version }
        rest).parse := by
  have hturn : (HgParser.mk .requestLine req (line ++ crlf ++ rest)).turn =
      (HgParser.mk .headers { req with method := method, path := path, version := version } rest,
        true) := by
    rw [turn]
    dsimp only
    rw [cut_line hline]
    dsimp only
    rw [hparts]
  rw [parse_of_again (congrArg Prod.snd hturn), hturn]

/-- A field line sets its field or ends the loop. -/
theorem readHeader_line {p : HgParser} {f : Field} (h : ':' ∉ f.1) :
    p.readHeader f.line =
      match p.request.setField f with
      | some req => ({ p with request := req }, true)
      | none =>
        ({ p with state := .error, request := p.request.setHeader f.1 (headerValue f.2) }, false) := by
  rw [readHeader, if_neg f.line_ne_nil, Field.line, splitFirst_append h, HttpRequest.setField]
  dsimp only
  by_cases hkey : f.1 = "Content-Length".toList
  · rw [if_pos hkey, if_pos hkey]
    cases stoull (headerValue f.2) with
    | none => rfl
    | some n => rfl
  · rw [if_neg hkey, if_neg hkey]

theorem turn_line {p : HgParser} (hst : p.state = .headers) {line rest : List Char}
    (hline : ¬ crlf <:+: line) (hbuf : p.buffer = line ++ crlf ++ rest) :
    p.turn = { p with buffer := rest }.readHeader line := by
  rw [turn, hst]
  dsimp only
  rw [hbuf, cut_line hline]

/-- The parser behind the empty line. -/
def atBody (req : HttpRequest) (rest : List Char) : HgParser where
  state := if 0 < req.contentLength then .body else .complete
  request := req
  buffer := rest

/-- The line of a field in front of the others. -/
theorem turn_fields {f : Field} (hf : f.Proper) (req : HttpRequest) (fields : List Field)
    (rest : List Char) :
    (HgParser.mk .headers req (fieldLines (f :: fields) ++ rest)).turn =
      (HgParser.mk .headers req (fieldLines fields ++ rest)).readHeader f.line :=
  turn_line rfl hf.line_crlf (fieldLines_cons f fields rest)

theorem parse_fieldLines_nil (req : HttpRequest) (rest : List Char) :
    (HgParser.mk .headers req (fieldLines [] ++ rest)).parse = (atBody req rest).parse := by
  have hturn : (HgParser.mk .headers req (fieldLines [] ++ rest)).turn = (atBody req rest, true) :=
    @turn_line _ rfl [] rest (by decide) rfl
  rw [parse_of_again (congrArg Prod.snd hturn), hturn]

/-- The way through fields with good lengths. -/
theorem parse_fields_of_some {fields : List Field} (h : ∀ f ∈ fields, f.Proper)
    {req req' : HttpRequest} (hset : req.setFields fields = some req') (rest : List Char) :
    (HgParser.mk .headers req (fieldLines fields ++ rest)).parse = (atBody req' rest).parse := by
  induction fields generalizing req with
  | nil =>
    obtain rfl : req = req' := Option.some.inj hset
    exact parse_fieldLines_nil req rest
  | cons f fields ih =>
    rw [HttpRequest.setFields_cons] at hset
    obtain ⟨req₁, hfield, hrest⟩ := Option.bind_eq_some_iff.mp hset
    have hproper := h f List.mem_cons_self
    have hturn := turn_fields hproper req fields rest
    rw [readHeader_line hproper.colon, hfield] at hturn
    rw [parse_of_again (congrArg Prod.snd hturn), hturn]
    exact ih (fun f' hf' => h f' (List.mem_cons_of_mem f hf')) hrest

/-- A malformed length among the fields ends the loop. -/
theorem parse_fields_of_none {fields : List Field} (h : ∀ f ∈ fields, f.Proper) {req : HttpRequest}
    (hset : req.setFields fields = none) (rest : List Char) :
    let p := (HgParser.mk .headers req (fieldLines fields ++ rest)).parse
    p.state = .error ∧ p.request.body = req.body := by
  induction fields generalizing req with
  | nil => cases hset
  | cons f fields ih =>
    have hproper := h f List.mem_cons_self
    have hturn := turn_fields hproper req fields rest
    rw [readHeader_line hproper.colon] at hturn
    rw [HttpRequest.setFields_cons] at hset
    cases hfield : req.setField f with
    | none =>
      rw [hfield] at hturn
      rw [parse_of_stop (congrArg Prod.snd hturn), hturn]
      exact ⟨rfl, rfl⟩
    | some req₁ =>
      rw [hfield] at hturn hset
      have hbody : req₁.body = req.body := by
        rw [HttpRequest.setField_eq] at hfield
        obtain ⟨n, -, rfl⟩ := Option.map_eq_some_iff.mp hfield
        rfl
      rw [parse_of_again (congrArg Prod.snd hturn), hturn, ← hbody]
      exact ih (fun f' hf' => h f' (List.mem_cons_of_mem f hf')) hset

/-- What becomes of the bytes behind the head. -/
theorem parse_atBody {req : HttpRequest} (hbody : req.body = []) (rest : List Char) :
    (atBody req rest).parse =
      if req.contentLength.toNat ≤ rest.length then
        ⟨.complete, { req with body := rest.take req.contentLength.toNat },
          rest.drop req.contentLength.toNat⟩
      else ⟨.body, req, rest⟩ := by
  unfold atBody
  by_cases hpos : 0 < req.contentLength
  · rw [if_pos hpos]
    by_cases hlen : req.contentLength.toNat ≤ rest.length
    · have hturn : (HgParser.mk .body req rest).turn =
          (⟨.complete, { req with body := rest.take req.contentLength.toNat },
            rest.drop req.contentLength.toNat⟩, true) := if_pos hlen
      rw [if_pos hlen, parse_of_again (congrArg Prod.snd hturn), hturn]
      exact parse_of_final (Or.inl rfl)
    · have hturn : (HgParser.mk .body req rest).turn = (⟨.body, req, rest⟩, false) := if_neg hlen
      rw [if_neg hlen, parse_of_stop (congrArg Prod.snd hturn), hturn]
  · have hzero : req.contentLength.toNat = 0 := by
      rw [UInt64.lt_iff_toNat_lt, UInt64.toNat_zero] at hpos
      omega
    rw [if_neg hpos, hzero, if_pos (Nat.zero_le _), List.take_zero, List.drop_zero, ← hbody]
    exact parse_of_final (Or.inl rfl)

end HgParser

/-! ## Whole requests -/

/-- A request line that its parts determine. -/
structure RequestLine where
  method : List Char
  path : List Char
  version : List Char
  method_space : ' ' ∉ method
  method_crlf : ¬ crlf <:+: method
  path_space : ' ' ∉ path
  path_crlf : ¬ crlf <:+: path
  version_crlf : ¬ crlf <:+: version

/-- The request line of a login. -/
def loginLine : RequestLine where
  method := "POST".toList
  path := "/login".toList
  version := "HTTP/1.1".toList
  method_space := by decide
  method_crlf := cut_eq_none_iff.mp rfl
  path_space := by decide
  path_crlf := cut_eq_none_iff.mp rfl
  version_crlf := cut_eq_none_iff.mp rfl

def RequestLine.text (l : RequestLine) : List Char :=
  l.method ++ " ".toList ++ l.path ++ " ".toList ++ l.version

/-- The request after its first line. -/
def RequestLine.request (l : RequestLine) : HttpRequest :=
  ⟨l.method, l.path, [], [], 0, l.version⟩

/-- A request line, field lines, the empty line, and what follows. -/
def requestText (l : RequestLine) (fields : List Field) (rest : List Char) : List Char :=
  l.text ++ crlf ++ (fieldLines fields ++ rest)

theorem RequestLine.text_eq (l : RequestLine) :
    l.text = l.method ++ ' ' :: (l.path ++ ' ' :: l.version) := by
  simp [RequestLine.text]

theorem RequestLine.text_crlf (l : RequestLine) : ¬ crlf <:+: l.text := by
  rw [l.text_eq, infix_append_cons (by decide), infix_append_cons (by decide)]
  rintro (hin | hin | hin)
  · exact l.method_crlf hin
  · exact l.path_crlf hin
  · exact l.version_crlf hin

theorem RequestLine.splitRequestLine_text (l : RequestLine) :
    splitRequestLine l.text = some (l.method, l.path, l.version) := by
  rw [l.text_eq, splitRequestLine, splitFirst_append l.method_space, Option.bind_some,
    splitFirst_append l.path_space]
  rfl

/-- The way over the first line of a fresh parser. -/
theorem feed_requestText (l : RequestLine) (fields : List Field) (rest : List Char) :
    HgParser.init.feed (requestText l fields rest) =
      (HgParser.mk .headers l.request (fieldLines fields ++ rest)).parse :=
  HgParser.parse_requestLine l.text_crlf l.splitRequestLine_text .init _

section
variable (l : RequestLine) {fields : List Field} (hfields : ∀ f ∈ fields, f.Proper)
include hfields

/-- A request with good lengths is complete as soon as its body is. -/
theorem feed_requestText_of_some {n : UInt64} (hlen : lengthOf 0 fields = some n)
    (rest : List Char) :
    HgParser.init.feed (requestText l fields rest) =
      if n.toNat ≤ rest.length then
        ⟨.complete,
          { l.request.withFields fields with contentLength := n, body := rest.take n.toNat },
          rest.drop n.toNat⟩
      else ⟨.body, { l.request.withFields fields with contentLength := n }, rest⟩ := by
  have hset : l.request.setFields fields =
      some { l.request.withFields fields with contentLength := n } := by
    rw [HttpRequest.setFields_eq, RequestLine.request, hlen]
    rfl
  have hbody : (l.request.withFields fields).body = [] := by
    rw [HttpRequest.withFields_eq]
    rfl
  rw [feed_requestText, HgParser.parse_fields_of_some hfields hset]
  exact @HgParser.parse_atBody { l.request.withFields fields with contentLength := n } hbody rest

/-- A malformed length is an error. -/
theorem feed_requestText_of_none (hlen : lengthOf 0 fields = none) (rest : List Char) :
    (HgParser.init.feed (requestText l fields rest)).state = .error ∧
      (HgParser.init.feed (requestText l fields rest)).request.body = [] := by
  have hset : l.request.setFields fields = none := by
    rw [HttpRequest.setFields_eq, RequestLine.request, hlen]
    rfl
  rw [feed_requestText]
  exact HgParser.parse_fields_of_none hfields hset rest

end

end HawkGate
