-- SUMMARY: The HTTP parser does not see how the bytes of a request are cut into reads, and every call of it returns.
import HawkGate.Daemon.HttpParser

/-!
# Requests in pieces

A connection hands the parser whatever a read returned. A turn of the loop that
can be taken is also taken, with the same result, when more bytes follow in the
buffer; a parser that waits or has ended just keeps them. So the parser after
several pieces is the parser after their concatenation.
-/

namespace HawkGate

open StdString

/-- The parser with more bytes in its buffer, before it looks at them. -/
def HgParser.receive (p : HgParser) (data : List Char) : HgParser :=
  { p with buffer := p.buffer ++ data }

/-- The parser after several reads. -/
def HgParser.feedAll (p : HgParser) (pieces : List (List Char)) : HgParser :=
  pieces.foldl HgParser.feed p

/-- The loop of `feed`, turn by turn and without a bound on their number: started from `p` it
    returns with the parser `q`. -/
inductive HgParser.Returns : HgParser → HgParser → Prop where
  | stop {p : HgParser} (h : p.turn.2 = false) : Returns p p.turn.1
  | again {p q : HgParser} (h : p.turn.2 = true) (hq : Returns p.turn.1 q) : Returns p q

namespace HgParser

theorem feed_eq (p : HgParser) (data : List Char) : p.feed data = (p.receive data).parse := rfl

@[simp] theorem receive_state (p : HgParser) (data : List Char) :
    (p.receive data).state = p.state := rfl

@[simp] theorem receive_request (p : HgParser) (data : List Char) :
    (p.receive data).request = p.request := rfl

@[simp] theorem receive_buffer (p : HgParser) (data : List Char) :
    (p.receive data).buffer = p.buffer ++ data := rfl

theorem receive_receive (p : HgParser) (a b : List Char) :
    (p.receive a).receive b = p.receive (a ++ b) := by
  simp only [receive, List.append_assoc]

theorem returns_parse (p : HgParser) : p.Returns p.parse := by
  induction p using parse_induction with
  | stop p h =>
    rw [parse_of_stop h]
    exact .stop h
  | again p h ih =>
    rw [parse_of_again h]
    exact .again h ih

/-! ## A turn with more bytes behind it -/

theorem readHeader_receive (p : HgParser) (line data : List Char) :
    (p.receive data).readHeader line = ((p.readHeader line).1.receive data, (p.readHeader line).2) := by
  unfold readHeader
  by_cases hline : line = []
  · rw [if_pos hline, if_pos hline]
    rfl
  · rw [if_neg hline, if_neg hline]
    cases hsplit : CString.splitFirst ':' line with
    | none => rfl
    | some r =>
      obtain ⟨key, text⟩ := r
      dsimp only
      by_cases hkey : key = "Content-Length".toList
      · rw [if_pos hkey, if_pos hkey]
        cases stoull (headerValue text) with
        | none => rfl
        | some n => rfl
      · rw [if_neg hkey, if_neg hkey]
        rfl

/-- A header line that ends the loop is an error. -/
theorem readHeader_error {p : HgParser} {line : List Char} (h : (p.readHeader line).2 = false) :
    (p.readHeader line).1.state = .error := by
  unfold readHeader at h ⊢
  by_cases hline : line = []
  · rw [if_pos hline] at h
    cases h
  · rw [if_neg hline] at h ⊢
    cases hsplit : CString.splitFirst ':' line with
    | none => rfl
    | some r =>
      obtain ⟨key, text⟩ := r
      simp only [hsplit] at h ⊢
      by_cases hkey : key = "Content-Length".toList
      · rw [if_pos hkey] at h ⊢
        cases hn : stoull (headerValue text) with
        | none => rfl
        | some n =>
          rw [hn] at h
          cases h
      · rw [if_neg hkey] at h
        cases h

/-- A turn that can be taken without the further bytes is the same turn with them. -/
theorem turn_receive_of_again {p : HgParser} (h : p.turn.2 = true) (data : List Char) :
    (p.receive data).turn = (p.turn.1.receive data, true) := by
  unfold turn at h ⊢
  cases hst : p.state with
  | requestLine =>
    simp only [hst, receive_state, receive_buffer, receive_request] at h ⊢
    cases hcut : cut crlf p.buffer with
    | none => simp [hcut] at h
    | some r =>
      obtain ⟨line, rest⟩ := r
      rw [cut_append_right hcut]
      simp only [hcut] at h ⊢
      cases hline : splitRequestLine line with
      | none => simp [hline] at h
      | some parts => rfl
  | headers =>
    simp only [hst, receive_state, receive_buffer] at h ⊢
    cases hcut : cut crlf p.buffer with
    | none => simp [hcut] at h
    | some r =>
      obtain ⟨line, rest⟩ := r
      rw [cut_append_right hcut]
      simp only [hcut] at h ⊢
      have hread := readHeader_receive { p with buffer := rest } line data
      rw [hst] at hread
      rw [← h]
      exact hread
  | body =>
    simp only [hst, receive_state, receive_buffer, receive_request] at h ⊢
    by_cases hlen : p.request.contentLength.toNat ≤ p.buffer.length
    · have hlong : p.request.contentLength.toNat ≤ (p.buffer ++ data).length := by
        rw [List.length_append]
        omega
      simp only [if_pos hlen, if_pos hlong, List.take_append_of_le_length hlen,
        List.drop_append_of_le_length hlen]
      rfl
    · rw [if_neg hlen] at h
      cases h
  | complete =>
    rw [hst] at h
    cases h
  | error =>
    rw [hst] at h
    cases h

/-- Where the loop stops it waits for bytes, or it has reached an error that it reaches with
    further bytes, too. -/
theorem turn_of_stop {p : HgParser} (h : p.turn.2 = false) :
    p.turn.1 = p ∨ ∀ data, (p.receive data).turn = (p.turn.1.receive data, false) ∧
      p.turn.1.state = .error := by
  unfold turn at h ⊢
  cases hst : p.state with
  | requestLine =>
    simp only [hst, receive_state, receive_buffer, receive_request] at h ⊢
    cases hcut : cut crlf p.buffer with
    | none => exact Or.inl rfl
    | some r =>
      obtain ⟨line, rest⟩ := r
      simp only [hcut] at h ⊢
      cases hline : splitRequestLine line with
      | none =>
        refine Or.inr fun data => ⟨?_, rfl⟩
        rw [cut_append_right hcut]
        simp only [hline]
        rfl
      | some parts => simp [hline] at h
  | headers =>
    simp only [hst, receive_state, receive_buffer] at h ⊢
    cases hcut : cut crlf p.buffer with
    | none => exact Or.inl rfl
    | some r =>
      obtain ⟨line, rest⟩ := r
      simp only [hcut] at h ⊢
      refine Or.inr fun data => ⟨?_, readHeader_error h⟩
      rw [cut_append_right hcut]
      have hread := readHeader_receive { p with buffer := rest } line data
      rw [hst] at hread
      rw [← h]
      exact hread
  | body =>
    simp only [hst] at h ⊢
    by_cases hlen : p.request.contentLength.toNat ≤ p.buffer.length
    · rw [if_pos hlen] at h
      cases h
    · rw [if_neg hlen]
      exact Or.inl rfl
  | complete => exact Or.inl rfl
  | error => exact Or.inl rfl

/-! ## The loop with more bytes behind it -/

/-- Bytes that arrive after the loop give the same parser as bytes that were there before it. -/
theorem parse_receive (p : HgParser) (data : List Char) :
    (p.parse.receive data).parse = (p.receive data).parse := by
  induction p using parse_induction with
  | stop p h =>
    rw [parse_of_stop h]
    rcases turn_of_stop h with heq | herr
    · rw [heq]
    · obtain ⟨hturn, hst⟩ := herr data
      rw [parse_of_stop (p := p.receive data) (congrArg Prod.snd hturn), hturn]
      exact parse_of_final (Or.inr hst)
  | again p h ih =>
    have hturn := turn_receive_of_again h data
    rw [parse_of_again h, ih, parse_of_again (p := p.receive data) (congrArg Prod.snd hturn), hturn]

theorem feed_feed (p : HgParser) (a b : List Char) : (p.feed a).feed b = p.feed (a ++ b) := by
  rw [feed_eq, feed_eq, feed_eq, parse_receive, receive_receive]

/-- A parser in a final state keeps what it has and all further bytes. -/
theorem feed_of_final {p : HgParser} (h : p.state.Final) (data : List Char) :
    p.feed data = p.receive data := by
  rw [feed_eq]
  exact parse_of_final h

theorem feedAll_cons (p : HgParser) (piece : List Char) (pieces : List (List Char)) :
    p.feedAll (piece :: pieces) = p.feed (piece ++ pieces.flatten) := by
  unfold feedAll
  rw [List.foldl_cons]
  induction pieces generalizing piece with
  | nil => rw [List.foldl_nil, List.flatten_nil, List.append_nil]
  | cons next pieces ih => rw [List.foldl_cons, feed_feed, ih, List.flatten_cons, List.append_assoc]

/-! ## Between two calls -/

theorem waits_init : HgParser.init.Waits := rfl

/-- The parser that a call leaves behind waits. -/
theorem waits_parse (p : HgParser) : p.parse.Waits := by
  induction p using parse_induction with
  | stop p h =>
    rw [parse_of_stop h]
    rcases turn_of_stop h with heq | herr
    · rw [heq]
      exact Prod.ext heq h
    · exact waits_of_final (Or.inr (herr []).2)
  | again p h ih =>
    rw [parse_of_again h]
    exact ih

theorem waits_feedAll {p : HgParser} (h : p.Waits) (pieces : List (List Char)) :
    (p.feedAll pieces).Waits := by
  cases pieces with
  | nil => exact h
  | cons piece pieces =>
    rw [feedAll_cons]
    exact waits_parse _

/-- An empty read changes nothing. -/
theorem feed_nil {p : HgParser} (h : p.Waits) : p.feed [] = p := by
  have hsame : p.receive [] = p := by
    rw [receive, List.append_nil]
  rw [feed_eq, hsame, parse_of_stop (congrArg Prod.snd h), h]

/-- Cutting the bytes of a request differently makes no difference, whatever the parser and the
    bytes are, and every call returns. Between two calls the bytes may also be cut into no piece
    at all. -/
theorem feedAll_eq_feed :
    (∀ (p : HgParser) (piece : List Char) (pieces : List (List Char)),
      p.feedAll (piece :: pieces) = p.feed (piece :: pieces).flatten) ∧
    (∀ before pieces : List (List Char),
      (init.feedAll before).feedAll pieces = (init.feedAll before).feed pieces.flatten) ∧
    ∀ (p : HgParser) (data : List Char), (p.receive data).Returns (p.feed data) := by
  refine ⟨feedAll_cons, ?_, fun p data => returns_parse _⟩
  intro before pieces
  cases pieces with
  | nil => exact (feed_nil (waits_feedAll waits_init before)).symm
  | cons piece pieces => exact feedAll_cons _ piece pieces

end HgParser

end HawkGate
