-- SUMMARY: While the event loop waits, every open connection that it will not hear of waits for its client.
import HawkGate.Guarantees.EdgeReadiness
import HawkGate.Guarantees.ResponseFraming

/-!
# Quiescence

Edge-triggered servers fail by forgetting a connection: it could go on, but
nothing will ever report it again. Here whatever the loop leaves without an edge
is left to the client. A connection that is read lacks a part of its request, one
that is written has a part of its response left and no space for it.
-/

namespace HawkGate

open CString Transition

variable {ncpu : Nat}

/-! ## The property -/

/-- The bytes so far are the beginning of a request. -/
def HgParser.Unfinished (p : HgParser) : Prop := p.state ≠ .complete ∧ p.state ≠ .error

/-- It is the client's turn: it has to send the rest of its request, or to take what it has of its
    response before the rest can be sent. -/
inductive ClientsTurn (d : Descriptor) (sock : Socket) : Prop where
  | sending (unanswered : sock.routed = []) (silent : sock.written = [])
      (unfinished : (sock.received.foldl HgParser.feed .init).Unfinished)
      (empty : d.ready .input = false)
  | receiving (r : Routing) (answered : sock.routed = [r])
      (part : sock.written <+: r.response) (rest : sock.written ≠ r.response)
      (full : d.ready .output = false)

/-- Where the next `epoll_wait` will report nothing, nothing can be done before a client does
    something. -/
structure NobodyForgotten (s : ServerHost ncpu) : Prop where
  accepted : (s.descriptors s.listenFd).edge = false →
    (s.descriptors s.listenFd).ready .input = false
  clients : ∀ fd sock, (s.descriptors fd).socket = some sock → (s.descriptors fd).edge = false →
    ClientsTurn (s.descriptors fd) sock

/-- The kernel keeps to its part, and `accept` fails only because it would block. -/
def LoopTurn (s : ServerHost ncpu) (t : ServerTurn ncpu) : Prop :=
  (KernelTurn s t ∧ ReportsReady s t) ∧ AcceptDrained s t

instance (s : ServerHost ncpu) (t : ServerTurn ncpu) : Decidable (LoopTurn s t) :=
  inferInstanceAs (Decidable (_ ∧ _))

deriving instance DecidableEq for LoopPoint

/-! ## Unfinished connections -/

/-- The connection has something left to read or to write. -/
def HgConnection.Unfinished (c : HgConnection) : Prop :=
  match c.state with
  | .reading => c.parser.Unfinished
  | .writing => c.writeOffset < c.writeBuf.length
  | .closed => False

/-- No connection of the table is done. -/
def AllUnfinished (s : ServerHost ncpu) : Prop :=
  ∀ fd c, s.connections fd = some c → c.Unfinished

theorem HgConnection.unfinished_init (fd : Fd) (ip : List Char) (port : UInt16) :
    (HgConnection.init fd ip port).Unfinished := ⟨nofun, nofun⟩

/-- A loop that goes on, or that blocked, has not seen the end of the request. -/
theorem HgConnection.onReadable_unfinished {c : HgConnection} (h : c.parser.Unfinished)
    (r : ReadResult) (hreading : (c.onReadable r).1.state = .reading) :
    (c.onReadable r).1.Unfinished := by
  unfold HgConnection.Unfinished
  rw [hreading]
  dsimp only
  cases r with
  | eof => cases hreading
  | failed e =>
    rw [onReadable] at hreading ⊢
    split at hreading
    · next hblocks => simpa only [hblocks, if_true] using h
    · cases hreading
  | data bytes =>
    rw [onReadable] at hreading ⊢
    cases hparser : (c.parser.feed bytes).state with
    | complete => simp [hparser] at hreading
    | error => simp [hparser] at hreading
    | requestLine | headers | body => simp [hparser, HgParser.Unfinished]

section
variable {s : ServerHost ncpu} {fd : Fd} {c : HgConnection}

theorem AllUnfinished.serve (h : AllUnfinished s) (hc : c.Unfinished) (d : Descriptor)
    (p : LoopPoint) : AllUnfinished (s.serve fd c d p) := by
  intro k ck (hk : Function.update s.connections fd (some c) k = some ck)
  by_cases hkfd : k = fd
  · rw [hkfd, Function.update_self] at hk
    exact Option.some.inj hk ▸ hc
  · rw [Function.update_of_ne hkfd] at hk
    exact h k ck hk

theorem AllUnfinished.drop (h : AllUnfinished s) (sock : Socket) (p : LoopPoint) :
    AllUnfinished (s.drop fd sock p) := by
  intro k ck (hk : Function.update s.connections fd none k = some ck)
  by_cases hkfd : k = fd
  · rw [hkfd, Function.update_self] at hk
    cases hk
  · rw [Function.update_of_ne hkfd] at hk
    exact h k ck hk

end

/-! ## Turns -/

section
variable {s : ServerHost ncpu} {fd : Fd} {rest : List EpollEvent} {c : HgConnection}

/-- No response is empty. -/
theorem route_ne_nil {text : List Char} {cfg : HgConfig} (hcfg : loadConfig text = some cfg)
    (provider : AuthProvider) (req : HttpRequest) (clientIp : List Char) (clientPort : UInt16)
    (env : DaemonEnv) (maps : HgMaps ncpu) :
    ((route cfg provider req clientIp clientPort).run env maps).1 ≠ [] := by
  have hframed : Framed ((route cfg provider req clientIp clientPort).run env maps).1 :=
    (route_ensures_framed (portalIp_of_loadConfig hcfg) provider req clientIp clientPort).run _ _
  obtain ⟨status, fields, body, hframe⟩ := hframed
  intro hnil
  obtain ⟨head, hcut⟩ := hframe.first_empty_line
  rw [hnil] at hcut
  cases hcut

theorem readTurn_unfinished {text : List Char} {cfg : HgConfig} (hcfg : loadConfig text = some cfg)
    (provider : AuthProvider) (h : ServerInv s) (hall : AllUnfinished s)
    (hpoint : s.point = .reading fd rest) (hc : s.connections fd = some c) (r : ReadResult)
    (env : DaemonEnv) : AllUnfinished (s.readTurn cfg provider env fd rest c r) := by
  obtain ⟨-, sock, hserves⟩ := h.serves hc
  obtain ⟨-, hstate⟩ := h.reading hpoint hc
  have hparser : c.parser.Unfinished := by
    have hunfinished := hall fd c hc
    rwa [HgConnection.Unfinished, hstate] at hunfinished
  have hreading := HgConnection.onReadable_unfinished hparser r
  rw [ServerHost.readTurn_eq cfg provider env rest hserves.own hserves.socket r]
  have hout := readOutcome c r
  generalize c.onReadable r = x at hout hreading
  cases hout with
  | more hopen => exact hall.serve (hreading hstate) _ _
  | blocked hblocked =>
    have hserve : AllUnfinished (s.serve fd _
        (ServerHost.readDescriptor (s.descriptors fd) r) (.batch rest)) :=
      hall.serve (hreading hstate) _ _
    simpa only [Bool.false_eq_true, if_false, hstate] using hserve
  | complete hcomplete =>
    simp only [Bool.false_eq_true, if_false]
    have hresponse := route_ne_nil hcfg provider (r.chunks.foldl HgParser.feed c.parser).request
      c.clientIp c.clientPort env s.maps
    generalize (route cfg provider _ c.clientIp c.clientPort).run env s.maps = answer
      at hresponse ⊢
    intro k ck hk
    exact hall.serve (c := HgConnection.queueResponse _ answer.1) (List.length_pos_iff.mpr hresponse)
      .unused .waiting k ck hk
  | ended hopen hdata =>
    simp only [Bool.false_eq_true, if_false]
    exact hall.drop _ _

theorem writeTurn_unfinished (h : ServerInv s) (hall : AllUnfinished s)
    (hpoint : s.point = .writing fd rest) (hc : s.connections fd = some c) (r : WriteResult) :
    AllUnfinished (s.writeTurn fd rest c r) := by
  obtain ⟨-, sock, hserves⟩ := h.serves hc
  obtain ⟨-, hstate⟩ := h.writing hpoint hc
  have hlt : c.writeOffset < c.writeBuf.length := by
    have hunfinished := hall fd c hc
    rwa [HgConnection.Unfinished, hstate] at hunfinished
  rw [ServerHost.writeTurn_eq rest hserves.own hserves.socket r]
  have hout := writeOutcome c r
  generalize c.onWritable r = x at hout
  cases hout with
  | more hlt =>
    refine hall.serve ?_ _ _
    simpa only [HgConnection.Unfinished, hstate] using hlt
  | blocked hblocked =>
    simp only [Bool.false_eq_true, if_false, hstate]
    refine hall.serve ?_ _ _
    -- a call that blocks writes nothing
    cases r with
    | failed e => simpa only [HgConnection.Unfinished, WriteResult.count, Nat.add_zero] using hlt
    | written n => cases hblocked
  | finished n hr hend =>
    simp only [Bool.false_eq_true, if_false]
    exact hall.drop _ _
  | failed e hr he =>
    simp only [Bool.false_eq_true, if_false]
    exact hall.drop _ _

/-- No turn leaves a connection in the table that is done. -/
theorem step_unfinished {text : List Char} {cfg : HgConfig} (hcfg : loadConfig text = some cfg)
    (provider : AuthProvider) (h : ServerInv s) (hall : AllUnfinished s) {t : ServerTurn ncpu}
    (hkernel : KernelTurn s t) : AllUnfinished (s.step cfg provider t) := by
  cases t with
  | stop | others | arrive => exact hall
  | epollWait r =>
    unfold ServerHost.step
    cases hpoint : s.point with
    | waiting =>
      cases r with
      | ok evs => exact hall
      | error e =>
        dsimp only
        split
        · exact hall
        · exact hall
    | batch | accepting | reading | writing | stopped => exact hall
  | next =>
    unfold ServerHost.step
    cases hpoint : s.point with
    | batch evs =>
      cases evs with
      | nil => exact hall
      | cons ev rest =>
        dsimp only
        unfold ServerHost.dispatch
        split
        · exact hall
        · cases hc : s.connections ev.fd with
          | none => exact hall
          | some c =>
            obtain ⟨-, sock, hserves⟩ := h.serves hc
            dsimp only
            split
            · exact hall
            · split
              · rw [ServerHost.startWritable_eq rest hc hserves.own hserves.socket]
                split
                · exact hall
                · exact hall.drop _ _
              · exact hall
    | waiting | accepting | reading | writing | stopped => exact hall
  | accept r =>
    unfold ServerHost.step
    cases hpoint : s.point with
    | accepting rest =>
      cases r with
      | failed e => exact hall
      | connected fd ip port fcntlOk addOk =>
        dsimp only
        rw [ServerHost.acceptTurn_connected_eq rest (h.free hkernel)]
        split
        · exact hall.serve (HgConnection.unfinished_init fd (inetNtop ip) port) _ _
        · exact hall.drop _ _
    | waiting | batch | reading | writing | stopped => exact hall
  | read r env =>
    unfold ServerHost.step
    cases hpoint : s.point with
    | reading fd rest =>
      obtain ⟨c, hc⟩ := h.exists_reading hpoint
      simpa [hc] using readTurn_unfinished hcfg provider h hall hpoint hc r env
    | waiting | batch | accepting | writing | stopped => exact hall
  | write r =>
    unfold ServerHost.step
    cases hpoint : s.point with
    | writing fd rest =>
      obtain ⟨c, hc⟩ := h.exists_writing hpoint
      simpa [hc] using writeTurn_unfinished h hall hpoint hc r
    | waiting | batch | accepting | reading | stopped => exact hall

end

/-! ## Runs -/

/-- Without an edge a descriptor is not ready for what it is registered for. -/
theorem NoLostEdge.not_ready {s : ServerHost ncpu} (h : NoLostEdge s) (hpoint : s.point = .waiting)
    {fd : Fd} (hedge : (s.descriptors fd).edge = false) {i : Interest}
    (hi : (s.descriptors fd).interest = some i) : (s.descriptors fd).ready i = false := by
  have hquiet : (s.descriptors fd).Quiet := by
    refine (h fd).resolve_left ?_
    rw [hpoint]
    exact id
  cases hready : (s.descriptors fd).ready i with
  | false => rfl
  | true => exact absurd (hedge.symm.trans (hquiet i hi hready)) nofun

/-- While the loop waits, it is the turn of the clients. -/
theorem nobodyForgotten_of_waiting {s : ServerHost ncpu} (h : ServerInv s) (hedge : NoLostEdge s)
    (hall : AllUnfinished s) (hpoint : s.point = .waiting) : NobodyForgotten s where
  accepted hnone := hedge.not_ready hpoint hnone h.listening.2.2
  clients fd sock hsock hnone := by
    obtain ⟨-, c, hc, hserves⟩ := h.entry hsock
    have hunfinished := hall fd c hc
    cases hserves.phase with
    | reading hstate hinterest hrouted hwritten =>
      rw [HgConnection.Unfinished, hstate] at hunfinished
      exact .sending hrouted hwritten (hserves.parser ▸ hunfinished)
        (hedge.not_ready hpoint hnone hinterest)
    | writing hstate hinterest hcomplete hrouted hwritten =>
      rw [HgConnection.Unfinished, hstate] at hunfinished
      have hlength : sock.written.length < c.writeBuf.length := by
        rw [hwritten, List.length_take]
        omega
      refine .receiving _ hrouted (hwritten ▸ List.take_prefix _ _) ?_
        (hedge.not_ready hpoint hnone hinterest)
      exact fun heq => absurd (congrArg List.length heq) hlength.ne

/-- A client connects and sends the first part of a request. -/
def firstPart : List (ServerTurn 1) :=
  let env := DaemonEnv.good ⟨0, 0⟩ fun _ => none
  [.arrive 3 .input, .epollWait (.ok [⟨3, true, false⟩]), .next,
    .accept (.connected 7 (Bytes.addrOfOctets 192 168 99 82) 40000 true true),
    .accept (.failed .again), .next, .arrive 7 .input,
    .epollWait (.ok [⟨7, true, false⟩]), .next, .read (.data "GET /por".toList) env,
    .read (.failed .again) env, .next]

end HawkGate
