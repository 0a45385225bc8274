-- SUMMARY: A printed HTTP request is read back field by field, and the parser ends exactly at its last byte.
import HawkGate.Daemon.RequestText
import HawkGate.Guarantees.RequestPieces
import HawkGate.Lib.BoundedMap

/-!
# Printing and parsing requests

A request is printed as its request line, a line for each header, the empty line
and its body. A fresh parser reads it back. Bytes behind the body stay in the
buffer, and no strict prefix of the text ends the request: a parser that has
ended only collects what follows.
-/

namespace HawkGate

open CString StdString

/-- A request whose text determines it. -/
structure PrintableRequest extends RequestLine where
  /-- The names and values of the headers, in the order in which they are printed. -/
  headers : List (List Char × List Char)
  body : List Char
  names_distinct : (headers.map Prod.fst).Nodup
  names_colon : ∀ h ∈ headers, ':' ∉ h.1
  names_crlf : ∀ h ∈ headers, ¬ crlf <:+: h.1
  values_crlf : ∀ h ∈ headers, ¬ crlf <:+: h.2
  contentLength : headers.lookup "Content-Length".toList =
    if body = [] then none else some (decimal body.length)
  /-- The length of a string is a `size_t`. -/
  body_size : body.length < 2 ^ 64

namespace PrintableRequest

def print (r : PrintableRequest) : List Char :=
  r.text ++ "\r\n".toList ++
    r.headers.flatMap (fun h => h.1 ++ ": ".toList ++ h.2 ++ "\r\n".toList) ++
    "\r\n".toList ++ r.body

/-- The parser has ended with the parts of a request, and `extra` left in its buffer. -/
structure Recovered (r : PrintableRequest) (extra : List Char) (p : HgParser) : Prop where
  state : p.state = .complete
  method : p.request.method = r.method
  path : p.request.path = r.path
  version : p.request.version = r.version
  headers : p.request.headers.Perm r.headers
  header : ∀ name, p.request.header name = r.headers.lookup name
  contentLength : p.request.contentLength.toNat = r.body.length
  body : p.request.body = r.body
  buffer : p.buffer = extra

/-- The headers as the fields that the parser sees. -/
def fields (r : PrintableRequest) : List Field := r.headers.map fun h => (h.1, ' ' :: h.2)

section
variable (r : PrintableRequest)

theorem print_eq : r.print = requestText r.toRequestLine r.fields r.body := by
  have hlines : r.headers.flatMap (fun h => h.1 ++ ": ".toList ++ h.2 ++ "\r\n".toList) =
      r.fields.flatMap fun f => f.line ++ crlf := by
    rw [fields, List.flatMap_map]
    refine List.flatMap_congr fun h _ => ?_
    simp [Field.line, crlf]
  rw [print, hlines, requestText, fieldLines]
  simp [crlf]

theorem fields_proper : ∀ f ∈ r.fields, f.Proper := by
  intro f hf
  obtain ⟨h, hh, rfl⟩ := List.mem_map.mp hf
  refine ⟨r.names_colon h hh, r.names_crlf h hh, ?_⟩
  have hcons : crlf <:+: ' ' :: h.2 ↔ crlf <:+: [] ∨ crlf <:+: h.2 :=
    @infix_append_cons _ _ [] h.2 ' ' (by decide)
  rw [hcons]
  rintro (hin | hin)
  · exact absurd hin (by decide)
  · exact r.values_crlf h hh hin

/-! ## The header map and the length -/

theorem fields_map_fst : r.fields.map Prod.fst = r.headers.map Prod.fst := by
  rw [fields, List.map_map]
  rfl

theorem fields_map_value : (r.fields.map fun f => (f.1, headerValue f.2)) = r.headers := by
  rw [fields, List.map_map]
  exact List.map_id r.headers

theorem headers_withFields {req : HttpRequest} (h : req.headers = []) :
    (req.withFields r.fields).headers = r.headers.reverse := by
  rw [HttpRequest.headers_withFields (r.fields_map_fst ▸ r.names_distinct), fields_map_value, h,
    List.append_nil]
  intro f _ hd hh
  rw [h] at hh
  cases hh

theorem lengthOf_fields : lengthOf 0 r.fields = some (UInt64.ofNat r.body.length) := by
  have hother : ∀ hs : List (List Char × List Char), (∀ h ∈ hs, "Content-Length".toList ≠ h.1) →
      ∀ f ∈ hs.map fun h => (h.1, ' ' :: h.2), f.1 ≠ "Content-Length".toList := by
    intro hs hne f hf
    obtain ⟨h, hh, rfl⟩ := List.mem_map.mp hf
    exact (hne h hh).symm
  have hlookup := r.contentLength
  by_cases hbody : r.body = []
  · rw [if_pos hbody, List.lookup_eq_none_iff] at hlookup
    rw [hbody]
    exact lengthOf_of_forall_ne (hother _ fun h hh => by simpa using hlookup h hh) 0
  · rw [if_neg hbody] at hlookup
    obtain ⟨before, after, heq, hbefore⟩ := List.lookup_eq_some_iff.mp hlookup
    have hnodup := r.names_distinct
    rw [heq, List.map_append, List.map_cons] at hnodup
    have hafter : ∀ h ∈ after, "Content-Length".toList ≠ h.1 := by
      intro h hh hname
      have hnot := (List.nodup_cons.mp (hnodup.of_append_right)).1
      exact hnot (List.mem_map.mpr ⟨h, hh, hname.symm⟩)
    rw [fields, heq, List.map_append, List.map_cons,
      lengthOf_append_cons (hother before fun h hh => by simpa using hbefore h hh) rfl
        (hother after hafter)]
    exact stoull_decimal r.body_size

/-! ## The round trip -/

/-- The parser at the end of a printed request, with `extra` behind it. -/
def parsed (extra : List Char) : HgParser where
  state := .complete
  request :=
    ⟨r.method, r.path, r.headers.reverse, r.body, UInt64.ofNat r.body.length, r.version⟩
  buffer := extra

theorem feed_print_eq (extra : List Char) :
    HgParser.init.feed (r.print ++ extra) = r.parsed extra := by
  have htext : r.print ++ extra = requestText r.toRequestLine r.fields (r.body ++ extra) := by
    rw [print_eq, requestText, requestText]
    simp only [List.append_assoc]
  have hlen : (UInt64.ofNat r.body.length).toNat = r.body.length :=
    UInt64.toNat_ofNat_of_lt' r.body_size
  rw [htext, feed_requestText_of_some r.toRequestLine r.fields_proper r.lengthOf_fields,
    HttpRequest.withFields_eq, headers_withFields r rfl]
  simp only [hlen]
  rw [if_pos (by rw [List.length_append]; omega), List.take_left, List.drop_left]
  rfl

/-- No strict prefix of a printed request ends it. -/
theorem not_final_of_prefix {text : List Char} (hpre : text <+: r.print) (hne : text ≠ r.print) :
    ¬ (HgParser.init.feed text).state.Final := by
  intro hfinal
  obtain ⟨more, hmore⟩ := hpre
  have hfeed := HgParser.feed_feed HgParser.init text more
  have hwhole := r.feed_print_eq []
  rw [List.append_nil] at hwhole
  rw [hmore, hwhole, HgParser.feed_of_final hfinal] at hfeed
  have hbuf : (HgParser.init.feed text).buffer ++ more = [] := congrArg HgParser.buffer hfeed
  have hnil : more = [] := (List.append_eq_nil_iff.mp hbuf).2
  rw [hnil, List.append_nil] at hmore
  exact hne hmore

/-- A fresh parser ends a printed request at its last byte, with its parts as they were printed;
    bytes behind it stay in the buffer, and no strict prefix of it is accepted or refused. -/
theorem feed_print (extra : List Char) :
    r.Recovered extra (HgParser.init.feed (r.print ++ extra)) ∧
      ∀ text, text <+: r.print → text ≠ r.print → ¬ (HgParser.init.feed text).state.Final := by
  refine ⟨?_, fun text hpre hne => r.not_final_of_prefix hpre hne⟩
  rw [feed_print_eq]
  refine ⟨rfl, rfl, rfl, rfl, List.reverse_perm _, ?_, UInt64.toNat_ofNat_of_lt' r.body_size, rfl,
    rfl⟩
  intro name
  exact (BoundedMap.lookup_of_perm (List.reverse_perm r.headers).symm r.names_distinct name).symm

end

/-- A login with one form field. -/
def login : PrintableRequest where
  toRequestLine := loginLine
  headers := [("Host".toList, "portal".toList), ("Content-Length".toList, "3".toList)]
  body := "a=b".toList
  names_distinct := by decide
  names_colon := by decide
  names_crlf := List.forall_mem_cons.mpr ⟨cut_eq_none_iff.mp rfl,
    List.forall_mem_singleton.mpr (cut_eq_none_iff.mp rfl)⟩
  values_crlf := List.forall_mem_cons.mpr ⟨cut_eq_none_iff.mp rfl,
    List.forall_mem_singleton.mpr (cut_eq_none_iff.mp rfl)⟩
  contentLength := rfl
  body_size := Nat.lt_of_lt_of_le (m := 4) (by decide) (by norm_num)

theorem feed_print_login : (HgParser.init.feed login.print).state = .complete ∧
    (HgParser.init.feed login.print).request.body = "a=b".toList := by
  obtain ⟨h, -⟩ := feed_print login []
  rw [List.append_nil] at h
  exact ⟨h.state, h.body⟩

end PrintableRequest

end HawkGate
