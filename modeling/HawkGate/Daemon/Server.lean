-- SUMMARY: The HTTP server: its connections and event loop against a kernel, one system call at a time.
import HawkGate.Daemon.Portal
import Mathlib.Logic.Function.Basic

/-!
# HTTP server

`hg_connection.cpp` and `hg_server.cpp` from the end of `init` on. A turn is one
system call of the event loop with the kernel's answer, or something that happens
in between. The kernel's descriptors carry what was done on each accepted
connection. A change or removal of an epoll registration succeeds.
-/

namespace HawkGate

open CString

variable {ncpu : Nat}

abbrev Fd := Nat

inductive Errno where
  | again | wouldBlock | intr | connAborted | mFile
  | other (code : Nat)
  deriving DecidableEq

/-- `errno == EAGAIN || errno == EWOULDBLOCK`. -/
def Errno.blocks : Errno → Bool
  | .again | .wouldBlock => true
  | _ => false

/-! ## Connections -/

inductive ConnectionState where
  | reading | writing | closed
  deriving DecidableEq

structure HgConnection where
  fd : Fd
  writeBuf : List Char
  clientIp : List Char
  clientPort : UInt16
  parser : HgParser
  state : ConnectionState
  writeOffset : Nat

def HgConnection.init (fd : Fd) (ip : List Char) (port : UInt16) : HgConnection where
  fd := fd
  writeBuf := []
  clientIp := ip
  clientPort := port
  parser := .init
  state := .reading
  writeOffset := 0

inductive ReadResult where
  | eof
  | failed (e : Errno)
  | data (bytes : List Char)

/-- The bytes that a call of `read` returns. -/
def ReadResult.chunks : ReadResult → List (List Char)
  | .data bytes => [bytes]
  | .eof | .failed _ => []

def ReadResult.blocked : ReadResult → Bool
  | .failed e => e.blocks
  | .eof | .data _ => false

/-- One turn of the loop of `on_readable`, and whether the loop goes on. -/
def HgConnection.onReadable (c : HgConnection) : ReadResult → HgConnection × Bool
  | .eof => ({ c with state := .closed }, false)
  | .failed e => if e.blocks then (c, false) else ({ c with state := .closed }, false)
  | .data bytes =>
    let c := { c with parser := c.parser.feed bytes }
    match c.parser.state with
    | .complete => ({ c with state := .writing }, false)
    | .error => ({ c with state := .closed }, false)
    | .requestLine | .headers | .body => (c, true)

/-- The condition of the loop of `on_writable`, and its end. -/
def HgConnection.checkWritten (c : HgConnection) : HgConnection × Bool :=
  if c.writeOffset < c.writeBuf.length then (c, true) else ({ c with state := .closed }, false)

inductive WriteResult where
  | failed (e : Errno)
  | written (n : Nat)

def WriteResult.blocked : WriteResult → Bool
  | .failed e => e.blocks
  | .written _ => false

def WriteResult.count : WriteResult → Nat
  | .failed _ => 0
  | .written n => n

/-- One turn of the loop of `on_writable` with the check that follows it. -/
def HgConnection.onWritable (c : HgConnection) : WriteResult → HgConnection × Bool
  | .failed e => if e.blocks then (c, false) else ({ c with state := .closed }, false)
  | .written n => { c with writeOffset := c.writeOffset + n }.checkWritten

def HgConnection.queueResponse (c : HgConnection) (response : List Char) : HgConnection :=
  { c with writeBuf := response, writeOffset := 0, state := .writing }

/-! ## The kernel -/

/-- A call of `route` and its response. -/
structure Routing where
  parser : HgParser
  clientIp : List Char
  clientPort : UInt16
  response : List Char

/-- An accepted connection with what the server did on it. -/
structure Socket where
  clientIp : IpAddr
  clientPort : UInt16
  received : List (List Char)
  routed : List Routing
  written : List Char

def Socket.init (ip : IpAddr) (port : UInt16) : Socket := ⟨ip, port, [], [], []⟩

def Socket.receive (sock : Socket) (chunks : List (List Char)) : Socket :=
  { sock with received := sock.received ++ chunks }

def Socket.route (sock : Socket) (r : Routing) : Socket := { sock with routed := sock.routed ++ [r] }

def Socket.write (sock : Socket) (bytes : List Char) : Socket :=
  { sock with written := sock.written ++ bytes }

/-- What a descriptor is registered for, edge-triggered. -/
inductive Interest where
  | input | output
  deriving DecidableEq

structure Descriptor where
  socket : Option Socket
  interest : Option Interest
  /-- Connections, bytes or space that no call has found used up since. -/
  ready : Interest → Bool
  /-- The next `epoll_wait` reports the descriptor. -/
  edge : Bool

def Descriptor.unused : Descriptor := ⟨none, none, fun _ => false, false⟩

/-- Something arrives; it is an edge if the descriptor is registered for it. -/
def Descriptor.arrive (d : Descriptor) (i : Interest) : Descriptor :=
  { d with ready := Function.update d.ready i true, edge := d.edge || d.interest = some i }

/-- `epoll_ctl` with `EPOLLET`; what is ready already is an edge. -/
def Descriptor.register (d : Descriptor) (i : Interest) : Descriptor :=
  { d with interest := some i, edge := d.ready i }

/-- The outcome of a call: one that would block shows that nothing is ready any more. -/
def Descriptor.attempt (d : Descriptor) (i : Interest) (blocked : Bool) : Descriptor :=
  if blocked then { d with ready := Function.update d.ready i false } else d

/-- Record something on the socket. -/
def Descriptor.onSocket (d : Descriptor) (f : Socket → Socket) : Descriptor :=
  { d with socket := d.socket.map f }

structure EpollEvent where
  fd : Fd
  /-- `EPOLLIN` -/
  input : Bool
  /-- `EPOLLOUT` -/
  output : Bool
  deriving DecidableEq

def EpollEvent.reports (ev : EpollEvent) : Interest → Bool
  | .input => ev.input
  | .output => ev.output

/-! ## The server -/

/-- Where the event loop is: in `epoll_wait`, between two events of a batch, or in front of a
    call of a handler, with the events that are left. -/
inductive LoopPoint where
  | waiting
  | batch (rest : List EpollEvent)
  | accepting (rest : List EpollEvent)
  | reading (fd : Fd) (rest : List EpollEvent)
  | writing (fd : Fd) (rest : List EpollEvent)
  | stopped

structure ServerHost (ncpu : Nat) where
  running : Bool
  listenFd : Fd
  connections : Fd → Option HgConnection
  point : LoopPoint
  maps : HgMaps ncpu
  descriptors : Fd → Descriptor
  /-- The sockets that were closed, in order. -/
  closed : List Socket
  /-- Calls of `close` on a descriptor that is no open socket. -/
  strayCloses : Nat

/-- The server after `init`. -/
def ServerHost.start (listenFd : Fd) (maps : HgMaps ncpu) : ServerHost ncpu where
  running := true
  listenFd := listenFd
  connections := fun _ => none
  point := .waiting
  maps := maps
  descriptors := Function.update (fun _ => .unused) listenFd (Descriptor.unused.register .input)
  closed := []
  strayCloses := 0

inductive AcceptResult where
  | failed (e : Errno)
  /-- A connection, and whether `fcntl` and `epoll_ctl` succeed for it. -/
  | connected (fd : Fd) (ip : IpAddr) (port : UInt16) (fcntlOk addOk : Bool)

inductive ServerTurn (ncpu : Nat) where
  | stop
  /-- Packets and other commands change the maps. -/
  | others (maps : HgMaps ncpu)
  | arrive (fd : Fd) (i : Interest)
  | epollWait (r : Except Errno (List EpollEvent))
  /-- The loop over the batch takes its next event. -/
  | next
  | accept (r : AcceptResult)
  /-- The environment is that of the request, if one is complete. -/
  | read (r : ReadResult) (env : DaemonEnv)
  | write (r : WriteResult)

namespace ServerHost

variable (s : ServerHost ncpu)

def setConnection (fd : Fd) (c : Option HgConnection) : ServerHost ncpu :=
  { s with connections := Function.update s.connections fd c }

def onDescriptor (fd : Fd) (f : Descriptor → Descriptor) : ServerHost ncpu :=
  { s with descriptors := Function.update s.descriptors fd (f (s.descriptors fd)) }

/-- `close(fd)`. -/
def close (fd : Fd) : ServerHost ncpu :=
  match (s.descriptors fd).socket with
  | none => { s with strayCloses := s.strayCloses + 1 }
  | some sock =>
    { s with
      descriptors := Function.update s.descriptors fd .unused
      closed := s.closed ++ [sock] }

def removeConnection (fd : Fd) : ServerHost ncpu :=
  let s := s.onDescriptor fd fun d => { d with interest := none }
  match s.connections fd with
  | none => s
  | some c => (s.setConnection fd none).close c.fd

/-- The head of the loop in `run`. -/
def loopHead : ServerHost ncpu := { s with point := if s.running then .waiting else .stopped }

/-- A new connection of `accept_connections`; a table entry that it replaces closes its own
    descriptor. -/
def addConnection (fd : Fd) (ip : IpAddr) (port : UInt16) : ServerHost ncpu :=
  let t := (s.onDescriptor fd fun d => d.register .input).setConnection fd
    (some (.init fd (inetNtop ip) port))
  match s.connections fd with
  | none => t
  | some old => t.close old.fd

/-- One turn of the loop of `accept_connections`, with the events that are left. -/
def acceptTurn (rest : List EpollEvent) : AcceptResult → ServerHost ncpu
  | .failed e =>
    { s.onDescriptor s.listenFd fun d => d.attempt .input e.blocks with point := .batch rest }
  | .connected fd ip port fcntlOk addOk =>
    let s := s.onDescriptor fd fun _ => { Descriptor.unused with socket := some (.init ip port) }
    if fcntlOk && addOk then s.addConnection fd ip port else s.close fd

variable (cfg : HgConfig) (provider : AuthProvider)

/-- The part of `handle_readable` behind `on_readable`. -/
def finishReadable (env : DaemonEnv) (fd : Fd) (c : HgConnection) : ServerHost ncpu :=
  match c.state with
  | .writing =>
    let r := (route cfg provider c.parser.request c.clientIp c.clientPort).run env s.maps
    let s := s.onDescriptor c.fd fun d =>
      d.onSocket fun sock => sock.route ⟨c.parser, c.clientIp, c.clientPort, r.1⟩
    let s := s.setConnection fd (some (c.queueResponse r.1))
    { s.onDescriptor fd fun d => d.register .output with maps := r.2 }
  | .closed => s.removeConnection fd
  | .reading => s

/-- The part of `handle_writable` behind `on_writable`. -/
def finishWritable (fd : Fd) (c : HgConnection) : ServerHost ncpu :=
  match c.state with
  | .closed => s.removeConnection fd
  | .reading | .writing => s

/-- One turn of the loop of `on_readable` with what follows it in `handle_readable`. -/
def readTurn (env : DaemonEnv) (fd : Fd) (rest : List EpollEvent) (c : HgConnection)
    (r : ReadResult) : ServerHost ncpu :=
  let s := s.onDescriptor c.fd fun d =>
    (d.attempt .input r.blocked).onSocket fun sock => sock.receive r.chunks
  let (c, goesOn) := c.onReadable r
  let s := s.setConnection fd (some c)
  if goesOn then s else { s.finishReadable cfg provider env fd c with point := .batch rest }

/-- One turn of the loop of `on_writable` with what follows it in `handle_writable`. -/
def writeTurn (fd : Fd) (rest : List EpollEvent) (c : HgConnection) (r : WriteResult) :
    ServerHost ncpu :=
  let s := s.onDescriptor c.fd fun d =>
    (d.attempt .output r.blocked).onSocket fun sock =>
      sock.write ((c.writeBuf.drop c.writeOffset).take r.count)
  let (c, goesOn) := c.onWritable r
  let s := s.setConnection fd (some c)
  if goesOn then s else { s.finishWritable fd c with point := .batch rest }

/-- `handle_writable` up to its first call. -/
def startWritable (fd : Fd) (rest : List EpollEvent) (c : HgConnection) : ServerHost ncpu :=
  let (c, goesOn) := c.checkWritten
  let s := s.setConnection fd (some c)
  if goesOn then { s with point := .writing fd rest }
  else { s.finishWritable fd c with point := .batch rest }

/-- The body of the loop over the batch, up to the first call of the handler. -/
def dispatch (ev : EpollEvent) (rest : List EpollEvent) : ServerHost ncpu :=
  if ev.fd = s.listenFd then { s with point := .accepting rest }
  else
    match s.connections ev.fd with
    | none => { s with point := .batch rest }
    | some c =>
      if ev.input then { s with point := .reading ev.fd rest }
      else if ev.output then s.startWritable ev.fd rest c
      else { s with point := .batch rest }

/-- Events that the kernel delivers have no edge left. -/
def report (evs : List EpollEvent) : ServerHost ncpu :=
  { s with
    descriptors := fun fd =>
      if fd ∈ evs.map EpollEvent.fd then { s.descriptors fd with edge := false }
      else s.descriptors fd
    point := .batch evs }

end ServerHost

/-- One turn; a call that the event loop does not make has no effect. -/
def ServerHost.step (cfg : HgConfig) (provider : AuthProvider) (s : ServerHost ncpu) :
    ServerTurn ncpu → ServerHost ncpu
  | .stop => { s with running := false }
  | .others maps => { s with maps := maps }
  | .arrive fd i => s.onDescriptor fd fun d => d.arrive i
  | .epollWait r =>
    match s.point, r with
    | .waiting, .ok evs => s.report evs
    | .waiting, .error e => if e = .intr then s.loopHead else { s with point := .stopped }
    | _, _ => s
  | .next =>
    match s.point with
    | .batch [] => s.loopHead
    | .batch (ev :: rest) => s.dispatch ev rest
    | _ => s
  | .accept r =>
    match s.point with
    | .accepting rest => s.acceptTurn rest r
    | _ => s
  | .read r env =>
    match s.point with
    | .reading fd rest =>
      match s.connections fd with
      | none => s
      | some c => s.readTurn cfg provider env fd rest c r
    | _ => s
  | .write r =>
    match s.point with
    | .writing fd rest =>
      match s.connections fd with
      | none => s
      | some c => s.writeTurn fd rest c r
    | _ => s

/-! ## What a handler does -/

section
variable (d : Descriptor) (i : Interest)

@[simp] theorem Descriptor.arrive_socket : (d.arrive i).socket = d.socket := rfl

@[simp] theorem Descriptor.arrive_interest : (d.arrive i).interest = d.interest := rfl

@[simp] theorem Descriptor.register_socket : (d.register i).socket = d.socket := rfl

@[simp] theorem Descriptor.register_interest : (d.register i).interest = some i := rfl

@[simp] theorem Descriptor.attempt_socket (blocked : Bool) :
    (d.attempt i blocked).socket = d.socket := by
  cases blocked <;> rfl

@[simp] theorem Descriptor.attempt_interest (blocked : Bool) :
    (d.attempt i blocked).interest = d.interest := by
  cases blocked <;> rfl

@[simp] theorem Descriptor.onSocket_socket (f : Socket → Socket) :
    (d.onSocket f).socket = d.socket.map f := rfl

@[simp] theorem Descriptor.onSocket_interest (f : Socket → Socket) :
    (d.onSocket f).interest = d.interest := rfl

end

/-- What a turn of the loop of `on_readable` comes to. -/
inductive ReadOutcome (c : HgConnection) (r : ReadResult) : HgConnection × Bool → Prop where
  | more (open_ : r.blocked = false) :
      ReadOutcome c r ({ c with parser := r.chunks.foldl HgParser.feed c.parser }, true)
  | blocked (h : r.blocked = true) :
      ReadOutcome c r ({ c with parser := r.chunks.foldl HgParser.feed c.parser }, false)
  | complete (h : (r.chunks.foldl HgParser.feed c.parser).state = .complete) :
      ReadOutcome c r
        ({ c with parser := r.chunks.foldl HgParser.feed c.parser, state := .writing }, false)
  | ended (h : r.blocked = false)
      (hdata : ∀ bytes, r = .data bytes → (c.parser.feed bytes).state = .error) :
      ReadOutcome c r
        ({ c with parser := r.chunks.foldl HgParser.feed c.parser, state := .closed }, false)

theorem readOutcome (c : HgConnection) (r : ReadResult) : ReadOutcome c r (c.onReadable r) := by
  cases r with
  | eof => exact .ended rfl nofun
  | failed e =>
    cases he : e.blocks with
    | true =>
      have h : c.onReadable (.failed e) = (c, false) := by simp [HgConnection.onReadable, he]
      exact h ▸ .blocked he
    | false =>
      have h : c.onReadable (.failed e) = ({ c with state := .closed }, false) := by
        simp [HgConnection.onReadable, he]
      exact h ▸ .ended he nofun
  | data bytes =>
    cases hst : (c.parser.feed bytes).state with
    | complete =>
      have h : c.onReadable (.data bytes) =
          ({ c with parser := c.parser.feed bytes, state := .writing }, false) := by
        simp [HgConnection.onReadable, hst]
      exact h ▸ .complete hst
    | error =>
      have h : c.onReadable (.data bytes) =
          ({ c with parser := c.parser.feed bytes, state := .closed }, false) := by
        simp [HgConnection.onReadable, hst]
      exact h ▸ .ended rfl fun b hb => by
        obtain rfl := ReadResult.data.inj hb
        exact hst
    | requestLine | headers | body =>
      have h : c.onReadable (.data bytes) = ({ c with parser := c.parser.feed bytes }, true) := by
        simp [HgConnection.onReadable, hst]
      exact h ▸ .more rfl

theorem HgConnection.onReadable_fd (c : HgConnection) (r : ReadResult) :
    (c.onReadable r).1.fd = c.fd := by
  have h := readOutcome c r
  generalize c.onReadable r = x at h
  cases h with
  | more | blocked | complete | ended => rfl

/-- What a turn of the loop of `on_writable` comes to. -/
inductive WriteOutcome (c : HgConnection) (r : WriteResult) : HgConnection × Bool → Prop where
  | more (h : c.writeOffset + r.count < c.writeBuf.length) :
      WriteOutcome c r ({ c with writeOffset := c.writeOffset + r.count }, true)
  | blocked (h : r.blocked = true) :
      WriteOutcome c r ({ c with writeOffset := c.writeOffset + r.count }, false)
  | finished (n : Nat) (hr : r = .written n) (h : c.writeBuf.length ≤ c.writeOffset + n) :
      WriteOutcome c r ({ c with writeOffset := c.writeOffset + n, state := .closed }, false)
  | failed (e : Errno) (hr : r = .failed e) (h : e.blocks = false) :
      WriteOutcome c r ({ c with state := .closed }, false)

theorem writeOutcome (c : HgConnection) (r : WriteResult) : WriteOutcome c r (c.onWritable r) := by
  cases r with
  | failed e =>
    cases he : e.blocks with
    | true =>
      have h : c.onWritable (.failed e) = (c, false) := by simp [HgConnection.onWritable, he]
      exact h ▸ .blocked he
    | false =>
      have h : c.onWritable (.failed e) = ({ c with state := .closed }, false) := by
        simp [HgConnection.onWritable, he]
      exact h ▸ .failed e rfl he
  | written n =>
    by_cases hlt : c.writeOffset + n < c.writeBuf.length
    · have h : c.onWritable (.written n) = ({ c with writeOffset := c.writeOffset + n }, true) := by
        simp [HgConnection.onWritable, HgConnection.checkWritten, hlt]
      exact h ▸ .more hlt
    · have h : c.onWritable (.written n) =
          ({ c with writeOffset := c.writeOffset + n, state := .closed }, false) := by
        simp [HgConnection.onWritable, HgConnection.checkWritten, hlt]
      exact h ▸ .finished n rfl (by omega)

theorem HgConnection.onWritable_fd (c : HgConnection) (r : WriteResult) :
    (c.onWritable r).1.fd = c.fd := by
  have h := writeOutcome c r
  generalize c.onWritable r = x at h
  cases h with
  | more | blocked | finished | failed => rfl

namespace ServerHost

variable {s : ServerHost ncpu} {fd : Fd}

/-- What a change of a descriptor keeps, it keeps of every descriptor. -/
theorem onDescriptor_apply {α : Type} (g : Descriptor → α) {f : Descriptor → Descriptor}
    (hf : ∀ d, g (f d) = g d) (fd k : Fd) :
    g ((s.onDescriptor fd f).descriptors k) = g (s.descriptors k) := by
  simp only [onDescriptor]
  by_cases hk : k = fd
  · rw [hk, Function.update_self, hf]
  · rw [Function.update_of_ne hk]

/-- A report keeps what the edge does not matter for. -/
theorem report_apply {α : Type} (g : Descriptor → α)
    (hg : ∀ d : Descriptor, g { d with edge := false } = g d) (evs : List EpollEvent) (k : Fd) :
    g ((s.report evs).descriptors k) = g (s.descriptors k) := by
  simp only [report]
  split
  · exact hg _
  · rfl

/-- The connection of a descriptor goes on in a new state. -/
def serve (s : ServerHost ncpu) (fd : Fd) (c : HgConnection) (d : Descriptor) (p : LoopPoint) :
    ServerHost ncpu :=
  { s with
    connections := Function.update s.connections fd (some c)
    descriptors := Function.update s.descriptors fd d
    point := p }

/-- The connection of a descriptor is gone, with its socket closed as it is at the end. -/
def drop (s : ServerHost ncpu) (fd : Fd) (sock : Socket) (p : LoopPoint) : ServerHost ncpu :=
  { s with
    connections := Function.update s.connections fd none
    descriptors := Function.update s.descriptors fd .unused
    closed := s.closed ++ [sock]
    point := p }

theorem removeConnection_eq (c : HgConnection) (sock : Socket) (hc : s.connections fd = some c)
    (hown : c.fd = fd) (hsock : (s.descriptors fd).socket = some sock) :
    s.removeConnection fd = s.drop fd sock s.point := by
  subst hown
  simp [removeConnection, onDescriptor, setConnection, close, hc, hsock, drop]

/-- The descriptor of a connection after a read. -/
def readDescriptor (d : Descriptor) (r : ReadResult) : Descriptor :=
  (d.attempt .input r.blocked).onSocket fun sock => sock.receive r.chunks

theorem readTurn_eq (cfg : HgConfig) (provider : AuthProvider) (env : DaemonEnv)
    (rest : List EpollEvent) {c : HgConnection} {sock : Socket} (hown : c.fd = fd)
    (hsock : (s.descriptors fd).socket = some sock) (r : ReadResult) :
    s.readTurn cfg provider env fd rest c r =
      let c' := (c.onReadable r).1
      let d := readDescriptor (s.descriptors fd) r
      if (c.onReadable r).2 then s.serve fd c' d s.point
      else
        match c'.state with
        | .reading => s.serve fd c' d (.batch rest)
        | .writing =>
          let r := (route cfg provider c'.parser.request c'.clientIp c'.clientPort).run env s.maps
          let d := d.onSocket fun sock => sock.route ⟨c'.parser, c'.clientIp, c'.clientPort, r.1⟩
          { s.serve fd (c'.queueResponse r.1) (d.register .output) (.batch rest) with maps := r.2 }
        | .closed => s.drop fd (sock.receive r.chunks) (.batch rest) := by
  have hown' := c.onReadable_fd r
  unfold readTurn
  generalize c.onReadable r = x at hown'
  obtain ⟨c', goesOn⟩ := x
  dsimp only at hown' ⊢
  subst hown
  cases goesOn with
  | true => rfl
  | false =>
    simp only [Bool.false_eq_true, if_false, finishReadable]
    cases hst : c'.state with
    | reading => rfl
    | writing =>
      simp only [onDescriptor, setConnection, serve, hown', Function.update_self,
        Function.update_idem, readDescriptor]
    | closed =>
      rw [removeConnection_eq c' (sock.receive r.chunks)
        (by simp [setConnection]) hown' (by simp [setConnection, onDescriptor, hsock])]
      simp [drop, setConnection, onDescriptor]

/-- The descriptor of a connection after a write of a part of the buffer. -/
def writeDescriptor (d : Descriptor) (c : HgConnection) (r : WriteResult) : Descriptor :=
  (d.attempt .output r.blocked).onSocket fun sock =>
    sock.write ((c.writeBuf.drop c.writeOffset).take r.count)

theorem writeTurn_eq (rest : List EpollEvent) {c : HgConnection} {sock : Socket} (hown : c.fd = fd)
    (hsock : (s.descriptors fd).socket = some sock) (r : WriteResult) :
    s.writeTurn fd rest c r =
      let c' := (c.onWritable r).1
      let d := writeDescriptor (s.descriptors fd) c r
      if (c.onWritable r).2 then s.serve fd c' d s.point
      else
        match c'.state with
        | .reading | .writing => s.serve fd c' d (.batch rest)
        | .closed =>
          s.drop fd (sock.write ((c.writeBuf.drop c.writeOffset).take r.count)) (.batch rest) := by
  have hown' := c.onWritable_fd r
  unfold writeTurn
  generalize c.onWritable r = x at hown'
  obtain ⟨c', goesOn⟩ := x
  dsimp only at hown' ⊢
  subst hown
  cases goesOn with
  | true => rfl
  | false =>
    simp only [Bool.false_eq_true, if_false, finishWritable]
    cases hst : c'.state with
    | reading => rfl
    | writing => rfl
    | closed =>
      rw [removeConnection_eq c'
        (sock.write ((c.writeBuf.drop c.writeOffset).take r.count))
        (by simp [setConnection]) hown' (by simp [setConnection, onDescriptor, hsock])]
      simp [drop, setConnection, onDescriptor]

/-- The handler of a writable descriptor enters its loop, or finds the response written. -/
theorem startWritable_eq (rest : List EpollEvent) {c : HgConnection} {sock : Socket}
    (hc : s.connections fd = some c) (hown : c.fd = fd)
    (hsock : (s.descriptors fd).socket = some sock) :
    s.startWritable fd rest c =
      if c.writeOffset < c.writeBuf.length then { s with point := .writing fd rest }
      else s.drop fd sock (.batch rest) := by
  by_cases hlt : c.writeOffset < c.writeBuf.length
  · have hkeep : Function.update s.connections fd (some c) = s.connections := by
      rw [← hc, Function.update_eq_self]
    simp [startWritable, HgConnection.checkWritten, hlt, setConnection, hkeep]
  · have hremove : (s.setConnection fd (some { c with state := .closed })).removeConnection fd =
        s.drop fd sock s.point := by
      refine (removeConnection_eq { c with state := .closed } sock ?_ hown ?_).trans ?_
      · simp [setConnection]
      · exact hsock
      · simp [drop, setConnection]
    simp only [startWritable, HgConnection.checkWritten, hlt, if_false, Bool.false_eq_true,
      finishWritable, hremove]
    rfl

/-- A new connection is served, or closed again if its set-up fails. -/
theorem acceptTurn_connected_eq (rest : List EpollEvent) (hfree : s.connections fd = none)
    (ip : IpAddr) (port : UInt16) (fcntlOk addOk : Bool) :
    s.acceptTurn rest (.connected fd ip port fcntlOk addOk) =
      if fcntlOk && addOk then
        s.serve fd (.init fd (inetNtop ip) port)
          ({ Descriptor.unused with socket := some (.init ip port) }.register .input) s.point
      else s.drop fd (.init ip port) s.point := by
  have hkeep : Function.update s.connections fd none = s.connections := by
    rw [← hfree, Function.update_eq_self]
  cases hok : fcntlOk && addOk with
  | true => simp [acceptTurn, hok, addConnection, onDescriptor, setConnection, hfree, serve]
  | false => simp [acceptTurn, hok, onDescriptor, close, drop, hkeep]

end ServerHost

end HawkGate
