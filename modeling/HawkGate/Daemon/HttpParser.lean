-- SUMMARY: The incremental HTTP request parser, `HgParser::feed`, as a loop of turns over its buffer.
import HawkGate.Lib.StdString

/-!
# HTTP parser

`hg_parser.cpp`. The parser keeps the bytes it has not used yet in a buffer and
works through it in turns: each turn completes a line or the body, or ends the
call. Characters stand for bytes.
-/

namespace HawkGate

open CString StdString

inductive ParseState where
  | requestLine | headers | body | complete | error
  deriving DecidableEq

structure HttpRequest where
  method : List Char
  path : List Char
  /-- A key occurs at most once. -/
  headers : List (List Char × List Char)
  body : List Char
  contentLength : UInt64
  version : List Char
  deriving DecidableEq

def HttpRequest.init : HttpRequest := ⟨[], [], [], [], 0, []⟩

/-- `headers.find(key)`. -/
def HttpRequest.header (req : HttpRequest) (key : List Char) : Option (List Char) :=
  req.headers.lookup key

/-- `headers[key] = value`. -/
def HttpRequest.setHeader (req : HttpRequest) (key value : List Char) : HttpRequest :=
  { req with headers := (key, value) :: req.headers.filter (·.1 ≠ key) }

structure HgParser where
  state : ParseState
  request : HttpRequest
  buffer : List Char
  deriving DecidableEq

def HgParser.init : HgParser := ⟨.requestLine, .init, []⟩

def crlf : List Char := ['\r', '\n']

/-- The method, path and version of a request line: the texts around its first two spaces. -/
def splitRequestLine (line : List Char) : Option (List Char × List Char × List Char) :=
  (splitFirst ' ' line).bind fun r => (splitFirst ' ' r.2).map fun r' => (r.1, r'.1, r'.2)

/-- A header value without the space behind the colon. -/
def headerValue (s : List Char) : List Char :=
  match s with
  | ' ' :: s => s
  | s => s

/-- The parser after a header line, and whether the loop goes on. -/
def HgParser.readHeader (p : HgParser) (line : List Char) : HgParser × Bool :=
  if line = [] then
    ({ p with state := if 0 < p.request.contentLength then .body else .complete }, true)
  else
    match splitFirst ':' line with
    | none => ({ p with state := .error }, false)
    | some (key, text) =>
      let value := headerValue text
      let p := { p with request := p.request.setHeader key value }
      if key = "Content-Length".toList then
        match stoull value with
        | none => ({ p with state := .error }, false)
        | some n => ({ p with request := { p.request with contentLength := n } }, true)
      else (p, true)

/-- One turn of the loop of `feed`, and whether the loop goes on. -/
def HgParser.turn (p : HgParser) : HgParser × Bool :=
  match p.state with
  | .requestLine =>
    match cut crlf p.buffer with
    | none => (p, false)
    | some (line, rest) =>
      match splitRequestLine line with
      | none => ({ p with state := .error, buffer := rest }, false)
      | some (method, path, version) =>
        ({ p with
            state := .headers
            request := { p.request with method := method, path := path, version := version }
            buffer := rest }, true)
  | .headers =>
    match cut crlf p.buffer with
    | none => (p, false)
    | some (line, rest) => { p with buffer := rest }.readHeader line
  | .body =>
    if p.request.contentLength.toNat ≤ p.buffer.length then
      ({ p with
          state := .complete
          request := { p.request with body := p.buffer.take p.request.contentLength.toNat }
          buffer := p.buffer.drop p.request.contentLength.toNat }, true)
    else (p, false)
  | .complete | .error => (p, false)

/-- At most `n` turns of the loop. -/
def HgParser.loop : Nat → HgParser → HgParser
  | 0, p => p
  | n + 1, p => if p.turn.2 then loop n p.turn.1 else p.turn.1

/-- How far a state is from the end. -/
def ParseState.rank : ParseState → Nat
  | .requestLine => 3
  | .headers => 2
  | .body => 1
  | .complete | .error => 0

/-- A bound on the number of turns that are left. -/
def HgParser.turnsLeft (p : HgParser) : Nat := p.buffer.length + p.state.rank

/-- The loop of `feed`, with as many turns as it can take. -/
def HgParser.parse (p : HgParser) : HgParser := p.loop (p.turnsLeft + 1)

/-- `HgParser::feed`; the state it returns is that of the parser afterwards. -/
def HgParser.feed (p : HgParser) (data : List Char) : HgParser :=
  { p with buffer := p.buffer ++ data }.parse

/-! ## The loop ends -/

theorem HgParser.readHeader_buffer (p : HgParser) (line : List Char) :
    (p.readHeader line).1.buffer = p.buffer := by
  unfold HgParser.readHeader
  split
  · rfl
  · split
    · rfl
    · dsimp only
      split
      · split
        · rfl
        · rfl
      · rfl

/-- A header line leads to the next one, to the body, or to the end. -/
theorem HgParser.readHeader_state {p : HgParser} (h : p.state = .headers) (line : List Char) :
    (p.readHeader line).1.state ≠ .requestLine := by
  unfold HgParser.readHeader
  split
  · dsimp only
    split
    · simp
    · simp
  · split
    · simp
    · dsimp only
      split
      · split
        · simp
        · simp [h]
      · simp [h]

theorem length_of_cut {buffer line rest : List Char} (h : cut crlf buffer = some (line, rest)) :
    rest.length + 2 ≤ buffer.length := by
  rw [eq_of_cut h, List.length_append, List.length_append]
  have hcrlf : crlf.length = 2 := rfl
  omega

theorem rank_le_two {st : ParseState} (h : st ≠ .requestLine) : st.rank ≤ 2 := by
  cases st with
  | requestLine => exact absurd rfl h
  | headers | body | complete | error => decide

/-- A turn after which the loop goes on uses up part of the buffer or gets to a later state. -/
theorem HgParser.turnsLeft_turn {p : HgParser} (h : p.turn.2 = true) :
    p.turn.1.turnsLeft < p.turnsLeft := by
  unfold HgParser.turn at h ⊢
  cases hst : p.state with
  | requestLine =>
    simp only [hst] at h ⊢
    cases hcut : cut crlf p.buffer with
    | none => simp [hcut] at h
    | some r =>
      obtain ⟨line, rest⟩ := r
      simp only [hcut] at h ⊢
      have hlen := length_of_cut hcut
      cases hline : splitRequestLine line with
      | none => simp [hline] at h
      | some parts =>
        simp only [HgParser.turnsLeft, hst, ParseState.rank]
        omega
  | headers =>
    simp only [hst] at h ⊢
    cases hcut : cut crlf p.buffer with
    | none => simp [hcut] at h
    | some r =>
      obtain ⟨line, rest⟩ := r
      have hlen := length_of_cut hcut
      have hrank := rank_le_two
        (HgParser.readHeader_state (p := { p with buffer := rest }) hst line)
      simp only [hst] at hrank
      simp only [HgParser.turnsLeft, HgParser.readHeader_buffer, hst, ParseState.rank.eq_2]
      omega
  | body =>
    simp only [hst] at h ⊢
    split at h
    · next hlen =>
      rw [if_pos hlen]
      simp only [HgParser.turnsLeft, hst, ParseState.rank, List.length_drop]
      omega
    · cases h
  | complete =>
    rw [hst] at h
    cases h
  | error =>
    rw [hst] at h
    cases h

/-- More turns than are left make no difference. -/
theorem HgParser.loop_of_turnsLeft_lt {n : Nat} {p : HgParser} (h : p.turnsLeft < n) :
    p.loop n = p.parse := by
  unfold HgParser.parse
  induction n using Nat.strong_induction_on generalizing p with
  | _ n ih =>
    cases n with
    | zero => omega
    | succ n =>
      rw [HgParser.loop, HgParser.loop]
      split
      · next hturn =>
        have hlt := HgParser.turnsLeft_turn hturn
        rw [ih n (Nat.lt_succ_self n) (by omega)]
        rw [ih p.turnsLeft h hlt]
      · rfl

/-- The loop goes on as long as its turns say. -/
theorem HgParser.parse_eq (p : HgParser) :
    p.parse = if p.turn.2 then p.turn.1.parse else p.turn.1 := by
  rw [HgParser.parse, HgParser.loop]
  split
  · next hturn => exact HgParser.loop_of_turnsLeft_lt (HgParser.turnsLeft_turn hturn)
  · rfl

/-! ## Where it ends -/

/-- A state in which nothing is parsed any more. -/
def ParseState.Final (st : ParseState) : Prop := st = .complete ∨ st = .error

namespace HgParser

/-- A property that holds where the loop stops and is carried back over each turn holds of every
    parser. -/
theorem parse_induction {P : HgParser → Prop} (stop : ∀ p, p.turn.2 = false → P p)
    (again : ∀ p, p.turn.2 = true → P p.turn.1 → P p) (p : HgParser) : P p := by
  induction hn : p.turnsLeft using Nat.strong_induction_on generalizing p with
  | _ n ih =>
    cases hturn : p.turn.2 with
    | false => exact stop p hturn
    | true => exact again p hturn (ih _ (hn ▸ turnsLeft_turn hturn) _ rfl)

theorem parse_of_stop {p : HgParser} (h : p.turn.2 = false) : p.parse = p.turn.1 := by
  rw [parse_eq, h]
  rfl

theorem parse_of_again {p : HgParser} (h : p.turn.2 = true) : p.parse = p.turn.1.parse := by
  rw [parse_eq, h]
  rfl

/-- The parser has nothing to do until more bytes arrive. -/
def Waits (p : HgParser) : Prop := p.turn = (p, false)

theorem waits_of_final {p : HgParser} (h : p.state.Final) : p.Waits := by
  unfold Waits turn
  rcases h with h | h
  · rw [h]
  · rw [h]

theorem parse_of_final {p : HgParser} (h : p.state.Final) : p.parse = p := by
  have hturn := waits_of_final h
  rw [parse_of_stop (congrArg Prod.snd hturn), hturn]

end HgParser

end HawkGate
