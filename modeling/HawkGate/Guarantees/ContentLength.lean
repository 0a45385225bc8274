-- SUMMARY: Which Content-Length values the parser accepts: a well-formed one always, and some others.
import HawkGate.Daemon.RequestText
import HawkGate.Guarantees.RequestPieces
import HawkGate.Lib.Transition
import HawkGate.Lib.BoundedMap

/-!
# Content-Length

The parser converts a Content-Length value with `std::stoul`, which reads a sign,
stops at the first character that is no digit, and sees nothing behind a NUL. A
value is read exactly or refused unless it is lenient in one of these ways. A run
of the parser is a sequence of reads and turns of its loop.
-/

namespace HawkGate

open CString StdString Transition

/-! ## Values -/

/-- A well-formed length: a decimal number of type `size_t`, with blanks around it. -/
def LengthText (v : List Char) (n : Nat) : Prop :=
  ∃ before digits after, v = before ++ digits ++ after ∧ (∀ c ∈ before, isSpace c = true) ∧
    DecimalText digits n ∧ (∀ c ∈ after, isSpace c = true) ∧ n < 2 ^ 64

/-- A value that begins with a number of type `size_t` but has a sign in front of it or something
    else than blanks behind it. -/
def LenientText (v : List Char) : Prop :=
  ∃ blanks sign digits tail n, NumberText v blanks sign digits tail n ∧ n < 2 ^ 64 ∧
    (sign ≠ [] ∨ ∃ c ∈ tail, isSpace c = false)

theorem LengthText.number {v : List Char} {n : Nat} (h : LengthText v n) :
    ∃ blanks digits tail, NumberText v blanks [] digits tail n ∧ ∀ c ∈ tail, isSpace c = true := by
  obtain ⟨before, digits, after, hv, hbefore, hdigits, hafter, -⟩ := h
  refine ⟨before, digits, after, ⟨by rw [hv, List.append_nil], hbefore, Or.inl rfl, hdigits, ?_⟩,
    hafter⟩
  intro c hc
  by_contra hdigit
  have hspace := hafter c (List.mem_of_mem_head? hc)
  rw [not_isSpace_of_isDigit (by simpa using hdigit)] at hspace
  cases hspace

/-- A well-formed length is converted to the number that it denotes. -/
theorem LengthText.stoull_eq {v : List Char} {n : Nat} (h : LengthText v n) :
    stoull v = some (UInt64.ofNat n) := by
  obtain ⟨blanks, digits, tail, hnum, -⟩ := h.number
  obtain ⟨-, -, -, -, -, -, -, hlt⟩ := h
  rw [hnum.stoull_eq, if_neg (by omega), if_neg (by simp)]

/-- What is converted is a well-formed length or lenient. -/
theorem lengthText_of_stoull {v : List Char} {x : UInt64} (h : stoull v = some x)
    (hlen : ¬ LenientText v) : LengthText v x.toNat := by
  cases hlead : leadingNumber (cStr v) with
  | none =>
    rw [stoull, hlead] at h
    cases h
  | some r =>
    obtain ⟨neg, n⟩ := r
    obtain ⟨blanks, sign, digits, tail, hnum⟩ := exists_number hlead
    rw [hnum.stoull_eq] at h
    by_cases hlt : 2 ^ 64 ≤ n
    · rw [if_pos hlt] at h
      cases h
    · have hsign : sign = [] := by
        by_contra hsign
        exact hlen ⟨blanks, sign, digits, tail, n, hnum, by omega, Or.inl hsign⟩
      have htail : ∀ c ∈ tail, isSpace c = true := by
        intro c hc
        by_contra hspace
        exact hlen ⟨blanks, sign, digits, tail, n, hnum, by omega,
          Or.inr ⟨c, hc, by simpa using hspace⟩⟩
      subst hsign
      rw [if_neg hlt, if_neg (by simp)] at h
      obtain rfl := Option.some.inj h
      have hn : (UInt64.ofNat n).toNat = n := UInt64.toNat_ofNat_of_lt' (Nat.lt_of_not_le hlt)
      rw [hn]
      exact ⟨blanks, digits, tail, by rw [hnum.text, List.append_nil], hnum.blanks, hnum.digits,
        htail, by omega⟩

/-- A lenient value is converted although it is not well formed. -/
theorem LenientText.accepted {v : List Char} (h : LenientText v) :
    (∃ x, stoull v = some x) ∧ ∀ n, ¬ LengthText v n := by
  obtain ⟨blanks, sign, digits, tail, n, hnum, hlt, hloose⟩ := h
  constructor
  · rw [hnum.stoull_eq, if_neg (by omega)]
    exact ⟨_, rfl⟩
  · intro m hm
    obtain ⟨blanks', digits', tail', hnum', htail⟩ := hm.number
    obtain ⟨hsign, rfl⟩ := hnum.unique hnum'
    rcases hloose with hne | ⟨c, hc, hspace⟩
    · exact hne hsign
    · rw [htail c hc] at hspace
      cases hspace

/-! ## Runs -/

/-- Bytes arrive, or the loop takes a turn. -/
inductive ParserEvent where
  | received (data : List Char)
  | turn

def HgParser.step (p : HgParser) : ParserEvent → HgParser
  | .received data => p.receive data
  | .turn => p.turn.1

/-- The value of the Content-Length header that the next turn reads. -/
def HgParser.lengthHeader (p : HgParser) : Option (List Char) :=
  if p.state = .headers then
    (cut crlf p.buffer).bind fun r => (splitFirst ':' r.1).bind fun f =>
      if f.1 = "Content-Length".toList then some (headerValue f.2) else none
  else none

/-- The next turn takes the number of a well-formed length, and refuses any other value. -/
def HgParser.LengthExact (p : HgParser) : Prop :=
  ∀ v, p.lengthHeader = some v →
    (∃ n, LengthText v n ∧ p.turn.2 = true ∧ p.turn.1.request.contentLength.toNat = n) ∨
      ((∀ n, ¬ LengthText v n) ∧ p.turn.1.state = .error)

/-- The length of the body is the number that the client's header states. -/
def HgParser.LengthStated (p : HgParser) : Prop :=
  p.state ≠ .error →
    (p.request.header "Content-Length".toList = none ∧ p.request.contentLength = 0) ∨
      ∃ v, p.request.header "Content-Length".toList = some v ∧
        LengthText v p.request.contentLength.toNat

namespace HgParser

/-- A call of `feed` is a run: its bytes arrive, and the loop takes all its turns. -/
theorem run_feed (p : HgParser) (data : List Char) :
    ∃ n, run HgParser.step p (.received data :: List.replicate n .turn) = p.feed data := by
  rw [feed_eq]
  change ∃ n, run HgParser.step (p.receive data) (List.replicate n .turn) = _
  induction p.receive data using parse_induction with
  | stop p h =>
    refine ⟨1, ?_⟩
    rw [parse_of_stop h]
    rfl
  | again p h ih =>
    obtain ⟨n, hn⟩ := ih
    refine ⟨n + 1, ?_⟩
    rw [List.replicate_succ, run_cons, parse_of_again h, ← hn]
    rfl

/-! ## Turns -/

/-- The turn that reads a length. -/
theorem turn_of_lengthHeader {p : HgParser} {v : List Char} (h : p.lengthHeader = some v) :
    (stoull v = none → p.turn.1.state = .error) ∧
      ∀ x, stoull v = some x → p.turn.2 = true ∧ p.turn.1.state = .headers ∧
        p.turn.1.request.contentLength = x ∧
        p.turn.1.request.header "Content-Length".toList = some v := by
  unfold lengthHeader at h
  split at h
  · next hst =>
    obtain ⟨⟨line, rest⟩, hcut, hline⟩ := Option.bind_eq_some_iff.mp h
    obtain ⟨⟨key, text⟩, hsplit, hkey⟩ := Option.bind_eq_some_iff.mp hline
    dsimp only at hsplit hkey
    by_cases hname : key = "Content-Length".toList
    · rw [if_pos hname] at hkey
      obtain rfl := Option.some.inj hkey
      have hne : line ≠ [] := by
        rintro rfl
        cases hsplit
      have hturn : p.turn = { p with buffer := rest }.readHeader line := by
        rw [turn, hst]
        dsimp only
        rw [hcut]
      rw [hturn, readHeader, if_neg hne, hsplit]
      dsimp only
      rw [if_pos hname]
      constructor
      · intro hnone
        rw [hnone]
      · intro x hx
        rw [hx]
        refine ⟨rfl, hst, rfl, ?_⟩
        change (p.request.setHeader key (headerValue text)).header _ = _
        rw [HttpRequest.header_setHeader, if_pos hname.symm]
    · rw [if_neg hname] at hkey
      cases hkey
  · cases h

/-- A header line of another name leaves the length alone. -/
theorem readHeader_of_ne {p : HgParser} {line : List Char}
    (h : ∀ f, splitFirst ':' line = some f → f.1 ≠ "Content-Length".toList) :
    (p.readHeader line).1.request.contentLength = p.request.contentLength ∧
      (p.readHeader line).1.request.header "Content-Length".toList =
        p.request.header "Content-Length".toList := by
  unfold readHeader
  by_cases hline : line = []
  · rw [if_pos hline]
    exact ⟨rfl, rfl⟩
  · rw [if_neg hline]
    cases hsplit : splitFirst ':' line with
    | none => exact ⟨rfl, rfl⟩
    | some f =>
      obtain ⟨key, text⟩ := f
      have hkey : key ≠ "Content-Length".toList := h _ hsplit
      dsimp only
      rw [if_neg hkey]
      refine ⟨rfl, ?_⟩
      change (p.request.setHeader key (headerValue text)).header _ = _
      rw [HttpRequest.header_setHeader, if_neg hkey.symm]

/-- A turn that reads no length leaves the length alone. -/
theorem turn_of_no_length {p : HgParser} (h : p.lengthHeader = none) :
    p.turn.1.request.contentLength = p.request.contentLength ∧
      p.turn.1.request.header "Content-Length".toList =
        p.request.header "Content-Length".toList := by
  unfold lengthHeader at h
  unfold turn
  cases hst : p.state with
  | requestLine =>
    dsimp only
    cases cut crlf p.buffer with
    | none => exact ⟨rfl, rfl⟩
    | some r =>
      dsimp only
      cases splitRequestLine r.1 with
      | none => exact ⟨rfl, rfl⟩
      | some parts => exact ⟨rfl, rfl⟩
  | headers =>
    rw [if_pos hst] at h
    dsimp only
    cases hcut : cut crlf p.buffer with
    | none => exact ⟨rfl, rfl⟩
    | some r =>
      obtain ⟨line, rest⟩ := r
      rw [hcut, Option.bind_some] at h
      refine readHeader_of_ne (p := ⟨.headers, p.request, rest⟩) fun f hf hkey => ?_
      rw [hf, Option.bind_some, if_pos hkey] at h
      cases h
  | body =>
    dsimp only
    by_cases hlen : p.request.contentLength.toNat ≤ p.buffer.length
    · rw [if_pos hlen]
      exact ⟨rfl, rfl⟩
    · rw [if_neg hlen]
      exact ⟨rfl, rfl⟩
  | complete => exact ⟨rfl, rfl⟩
  | error => exact ⟨rfl, rfl⟩

/-- The next turn reads no lenient value. -/
def NoLenient (p : HgParser) : Prop := ∀ v, p.lengthHeader = some v → ¬ LenientText v

theorem lengthExact_iff (p : HgParser) : p.LengthExact ↔ p.NoLenient := by
  constructor
  · intro hexact v hv hlen
    obtain ⟨⟨x, hx⟩, hnot⟩ := hlen.accepted
    rcases hexact v hv with ⟨n, hn, -⟩ | ⟨-, herr⟩
    · exact hnot n hn
    · obtain ⟨-, hst, -⟩ := (turn_of_lengthHeader hv).2 x hx
      rw [hst] at herr
      cases herr
  · intro hstrict v hv
    obtain ⟨hnone, hsome⟩ := turn_of_lengthHeader hv
    cases hx : stoull v with
    | none =>
      refine Or.inr ⟨fun n hn => ?_, hnone hx⟩
      rw [hn.stoull_eq] at hx
      cases hx
    | some x =>
      obtain ⟨hgo, -, hlen, -⟩ := hsome x hx
      exact Or.inl ⟨x.toNat, lengthText_of_stoull hx (hstrict v hv), hgo, by rw [hlen]⟩

/-- An error is never left. -/
theorem state_of_error {p : HgParser} (h : p.turn.1.state ≠ .error) : p.state ≠ .error := by
  intro hst
  rw [waits_of_final (Or.inr hst)] at h
  exact h hst

theorem lengthStated_step {p : HgParser} (h : p.LengthStated) (hstrict : p.NoLenient)
    (e : ParserEvent) : (p.step e).LengthStated := by
  cases e with
  | received data => exact h
  | turn =>
    intro hst
    change p.turn.1.state ≠ .error at hst
    change (p.turn.1.request.header _ = none ∧ p.turn.1.request.contentLength = 0) ∨
      ∃ v, p.turn.1.request.header _ = some v ∧ LengthText v p.turn.1.request.contentLength.toNat
    cases hv : p.lengthHeader with
    | none =>
      obtain ⟨hlen, hheader⟩ := turn_of_no_length hv
      rw [hlen, hheader]
      exact h (state_of_error hst)
    | some v =>
      obtain ⟨hnone, hsome⟩ := turn_of_lengthHeader hv
      cases hx : stoull v with
      | none => exact absurd (hnone hx) hst
      | some x =>
        obtain ⟨-, -, hlen, hheader⟩ := hsome x hx
        rw [hlen]
        exact Or.inr ⟨v, hheader, lengthText_of_stoull hx (hstrict v hv)⟩

/-- In a run of reads and turns, every length that the parser takes is the number of a well-formed
    header, and it refuses every other value, exactly if no lenient value comes up. -/
theorem always_length_iff (es : List ParserEvent) :
    Always HgParser.step (fun p _ => p.LengthExact ∧ p.LengthStated) .init es ↔
      Always HgParser.step (fun p _ => p.NoLenient) .init es := by
  have hinit : HgParser.init.LengthStated := fun _ => Or.inl ⟨rfl, rfl⟩
  rw [always_and, always_iff fun p _ => p.lengthExact_iff]
  constructor
  · exact And.left
  · intro hstrict
    exact ⟨hstrict, always_of_inv (fun p e h hp => lengthStated_step h hp e) (fun p e h _ => h)
      hinit hstrict⟩

/-- A negative length is taken for a number of 64 bits. -/
theorem negative_length : ¬ Always HgParser.step (fun p _ => p.LengthExact ∧ p.LengthStated) .init
    [.received "POST /login HTTP/1.1\r\nContent-Length: -1\r\n\r\n".toList, .turn, .turn] := by
  rintro ⟨-, -, ⟨hexact, -⟩, -⟩
  have hlen : LenientText "-1".toList :=
    ⟨[], ['-'], ['1'], [], 1, ⟨rfl, by simp, Or.inr (Or.inr rfl), ⟨by simp, by simp, rfl⟩, by simp⟩,
      by norm_num, Or.inl (by simp)⟩
  exact (lengthExact_iff _).mp hexact "-1".toList (by decide) hlen

end HgParser

end HawkGate
