-- SUMMARY: What holds of every accepted HTTP connection, over any events, chunks and partial writes.
import HawkGate.Daemon.Server
import HawkGate.Lib.Transition

/-!
# Connection safety

An accepted connection is routed at most once, with its complete request; the
bytes written to it are a prefix of that one response; and its descriptor is
closed once, when the response is out or the connection has failed. The invariant
ties each table entry to the socket and the registration of its descriptor.
-/

namespace HawkGate

open CString Transition

variable {ncpu : Nat}

/-! ## The property -/

/-- The event reports only what the descriptor is registered for. -/
def EventOk (d : Descriptor) (ev : EpollEvent) : Prop :=
  ∃ i ∈ d.interest, (ev.input = true → i = .input) ∧ (ev.output = true → i = .output)

instance (d : Descriptor) (ev : EpollEvent) : Decidable (EventOk d ev) :=
  inferInstanceAs (Decidable (∃ i ∈ d.interest, _))

/-- A batch reports each descriptor at most once. -/
def Conforms (descriptors : Fd → Descriptor) (evs : List EpollEvent) : Prop :=
  (evs.map EpollEvent.fd).Nodup ∧ ∀ ev ∈ evs, EventOk (descriptors ev.fd) ev

instance (descriptors : Fd → Descriptor) (evs : List EpollEvent) :
    Decidable (Conforms descriptors evs) := inferInstanceAs (Decidable (_ ∧ _))

/-- The kernel reports descriptors for what they are registered for, each at most once in a
    batch, and hands out descriptors that are not open. -/
def KernelTurn (s : ServerHost ncpu) : ServerTurn ncpu → Prop
  | .epollWait (.ok evs) => Conforms s.descriptors evs
  | .accept (.connected fd _ _ _ _) => (s.descriptors fd).socket.isSome = false ∧ fd ≠ s.listenFd
  | _ => True

instance (s : ServerHost ncpu) : (t : ServerTurn ncpu) → Decidable (KernelTurn s t)
  | .epollWait (.ok evs) => inferInstanceAs (Decidable (Conforms s.descriptors evs))
  | .accept (.connected ..) => inferInstanceAs (Decidable (_ ∧ _))
  | .epollWait (.error _) | .accept (.failed _) | .stop | .others _ | .arrive .. | .next | .read ..
  | .write _ => inferInstanceAs (Decidable True)

/-- The connection was routed at most once, with the complete request that was received on it,
    and what was written to it is a prefix of the response. -/
structure SocketSafe (sock : Socket) : Prop where
  once : sock.routed.length ≤ 1
  complete : ∀ r ∈ sock.routed, r.parser = sock.received.foldl HgParser.feed .init ∧
    r.parser.state = .complete ∧ r.clientIp = inetNtop sock.clientIp ∧
    r.clientPort = sock.clientPort
  written : sock.written <+: sock.routed.flatMap Routing.response

/-- The whole response was written. -/
def Socket.Answered (sock : Socket) : Prop := ∃ r, sock.routed = [r] ∧ sock.written = r.response

/-- The later socket is the same connection, with nothing taken back. -/
structure Socket.Extends (sock sock' : Socket) : Prop where
  clientIp : sock'.clientIp = sock.clientIp
  clientPort : sock'.clientPort = sock.clientPort
  received : sock.received <+: sock'.received
  routed : sock.routed <+: sock'.routed
  written : sock.written <+: sock'.written

/-- Why a connection may end: end of input, a parse error, an I/O error, or its whole response. -/
def EndsWith (sock : Socket) : ServerTurn ncpu → Prop
  | .read .eof _ => True
  | .read (.failed e) _ => e.blocks = false
  | .read (.data _) _ => (sock.received.foldl HgParser.feed .init).state = .error
  | .write (.failed e) => e.blocks = false
  | .write (.written _) | .next => sock.Answered
  | _ => False

/-- Every accepted connection is safe; the table holds the open ones, each under its own
    descriptor, and nothing else was closed. -/
structure ConnectionSafe (s : ServerHost ncpu) : Prop where
  openSafe : ∀ fd sock, (s.descriptors fd).socket = some sock → SocketSafe sock
  closedSafe : ∀ sock ∈ s.closed, SocketSafe sock
  table : ∀ fd, (s.connections fd).isSome = (s.descriptors fd).socket.isSome
  own : ∀ fd c, s.connections fd = some c → c.fd = fd
  noStray : s.strayCloses = 0

/-- In a step from `s` to `s'` a connection of the table stays, or it ends for a reason and its
    descriptor is closed. -/
structure TableStep (t : ServerTurn ncpu) (s s' : ServerHost ncpu) : Prop where
  sockets : ∀ fd sock, (s.descriptors fd).socket = some sock →
    (∃ sock', (s'.descriptors fd).socket = some sock' ∧ sock.Extends sock') ∨
    ((s'.descriptors fd).socket = none ∧ s'.connections fd = none ∧
      ∃ sock', s'.closed = s.closed ++ [sock'] ∧ sock.Extends sock' ∧ EndsWith sock' t)
  closed : s.closed <+: s'.closed

/-! ## The invariant -/

/-- A connection is being read, or its response is being written; its descriptor is registered
    accordingly. -/
inductive Phase (c : HgConnection) (d : Descriptor) (sock : Socket) : Prop where
  | reading (state : c.state = .reading) (interest : d.interest = some .input)
      (routed : sock.routed = []) (written : sock.written = [])
  | writing (state : c.state = .writing) (interest : d.interest = some .output)
      (complete : c.parser.state = .complete)
      (routed : sock.routed = [⟨c.parser, c.clientIp, c.clientPort, c.writeBuf⟩])
      (written : sock.written = c.writeBuf.take c.writeOffset)

/-- A connection agrees with the socket and the registration of its descriptor. -/
structure Serves (fd : Fd) (c : HgConnection) (d : Descriptor) (sock : Socket) : Prop where
  socket : d.socket = some sock
  own : c.fd = fd
  clientIp : c.clientIp = inetNtop sock.clientIp
  clientPort : c.clientPort = sock.clientPort
  parser : c.parser = sock.received.foldl HgParser.feed .init
  phase : Phase c d sock

/-- A table entry serves the socket of its descriptor; without an entry nothing is open. -/
def SlotOk (fd : Fd) (d : Descriptor) : Option HgConnection → Prop
  | none => d.socket = none ∧ d.interest = none
  | some c => ∃ sock, Serves fd c d sock

/-- What holds at a point of the event loop: the events that are left conform and are about
    other descriptors than the one in hand, whose connection is in the phase of the handler. -/
def PointOk (s : ServerHost ncpu) : Prop :=
  match s.point with
  | .waiting | .stopped => True
  | .batch rest => Conforms s.descriptors rest
  | .accepting rest => Conforms s.descriptors rest ∧ ∀ ev ∈ rest, ev.fd ≠ s.listenFd
  | .reading fd rest => (Conforms s.descriptors rest ∧ ∀ ev ∈ rest, ev.fd ≠ fd) ∧
      ∃ c, s.connections fd = some c ∧ c.state = .reading
  | .writing fd rest => (Conforms s.descriptors rest ∧ ∀ ev ∈ rest, ev.fd ≠ fd) ∧
      ∃ c, s.connections fd = some c ∧ c.state = .writing

structure ServerInv (s : ServerHost ncpu) : Prop where
  listening : s.connections s.listenFd = none ∧ (s.descriptors s.listenFd).socket = none ∧
    (s.descriptors s.listenFd).interest = some .input
  slots : ∀ fd, fd ≠ s.listenFd → SlotOk fd (s.descriptors fd) (s.connections fd)
  closed : ∀ sock ∈ s.closed, SocketSafe sock
  noStray : s.strayCloses = 0
  point : PointOk s

/-- What the state of a connection says about its socket and registration. -/
theorem Phase.of_reading {c : HgConnection} {d : Descriptor} {sock : Socket} (h : Phase c d sock)
    (hstate : c.state = .reading) :
    d.interest = some .input ∧ sock.routed = [] ∧ sock.written = [] := by
  cases h with
  | reading _ interest routed written => exact ⟨interest, routed, written⟩
  | writing state =>
    rw [hstate] at state
    cases state

theorem Phase.of_writing {c : HgConnection} {d : Descriptor} {sock : Socket} (h : Phase c d sock)
    (hstate : c.state = .writing) :
    d.interest = some .output ∧ c.parser.state = .complete ∧
      sock.routed = [⟨c.parser, c.clientIp, c.clientPort, c.writeBuf⟩] ∧
      sock.written = c.writeBuf.take c.writeOffset := by
  cases h with
  | reading state =>
    rw [hstate] at state
    cases state
  | writing _ interest complete routed written => exact ⟨interest, complete, routed, written⟩

/-- The registration tells the state. -/
theorem Phase.state_eq {c : HgConnection} {d : Descriptor} {sock : Socket} (h : Phase c d sock) :
    c.state = if d.interest = some .input then .reading else .writing := by
  cases h with
  | reading state interest => rw [interest, if_pos rfl, state]
  | writing state interest => rw [interest, if_neg nofun, state]

theorem Serves.socketSafe {fd : Fd} {c : HgConnection} {d : Descriptor} {sock : Socket}
    (h : Serves fd c d sock) : SocketSafe sock := by
  cases h.phase with
  | reading _ _ routed written => exact ⟨by simp [routed], by simp [routed], by simp [written]⟩
  | writing _ _ complete routed written =>
    refine ⟨by simp [routed], ?_, ?_⟩
    · intro r hr
      rw [routed, List.mem_singleton] at hr
      subst hr
      exact ⟨h.parser, complete, h.clientIp, h.clientPort⟩
    · rw [routed, written]
      simpa using List.take_prefix _ _

namespace ServerInv

variable {s : ServerHost ncpu} {fd : Fd}

/-- A table entry serves an open socket, and not the listening one. -/
theorem serves (h : ServerInv s) {c : HgConnection} (hc : s.connections fd = some c) :
    fd ≠ s.listenFd ∧ ∃ sock, Serves fd c (s.descriptors fd) sock := by
  have hfd : fd ≠ s.listenFd := by
    rintro rfl
    rw [h.listening.1] at hc
    cases hc
  have hslot := h.slots fd hfd
  rw [hc] at hslot
  exact ⟨hfd, hslot⟩

/-- An open socket has its table entry. -/
theorem entry (h : ServerInv s) {sock : Socket} (hsock : (s.descriptors fd).socket = some sock) :
    fd ≠ s.listenFd ∧ ∃ c, s.connections fd = some c ∧ Serves fd c (s.descriptors fd) sock := by
  have hfd : fd ≠ s.listenFd := by
    rintro rfl
    rw [h.listening.2.1] at hsock
    cases hsock
  cases hc : s.connections fd with
  | none =>
    have hslot := h.slots fd hfd
    rw [hc] at hslot
    rw [hslot.1] at hsock
    cases hsock
  | some c =>
    obtain ⟨-, sock', hserves⟩ := h.serves hc
    obtain rfl := Option.some.inj (hserves.socket.symm.trans hsock)
    exact ⟨hfd, c, rfl, hserves⟩

/-- The table has no entry for a descriptor that is not open. -/
theorem free (h : ServerInv s) {ip : IpAddr} {port : UInt16} {fcntlOk addOk : Bool}
    (hkernel : KernelTurn s (.accept (.connected fd ip port fcntlOk addOk))) :
    s.connections fd = none := by
  cases hc : s.connections fd with
  | none => rfl
  | some c =>
    obtain ⟨-, sock, hserves⟩ := h.serves hc
    have hnone := hkernel.1
    rw [hserves.socket] at hnone
    cases hnone

theorem exists_reading (h : ServerInv s) {rest : List EpollEvent}
    (hpoint : s.point = .reading fd rest) : ∃ c, s.connections fd = some c := by
  have hp := h.point
  rw [PointOk, hpoint] at hp
  exact hp.2.imp fun _ hc => hc.1

theorem exists_writing (h : ServerInv s) {rest : List EpollEvent}
    (hpoint : s.point = .writing fd rest) : ∃ c, s.connections fd = some c := by
  have hp := h.point
  rw [PointOk, hpoint] at hp
  exact hp.2.imp fun _ hc => hc.1

/-- While a descriptor is read, its connection is in the phase of being read. -/
theorem reading (h : ServerInv s) {rest : List EpollEvent} (hpoint : s.point = .reading fd rest)
    {c : HgConnection} (hc : s.connections fd = some c) :
    (Conforms s.descriptors rest ∧ ∀ ev ∈ rest, ev.fd ≠ fd) ∧ c.state = .reading := by
  have hp := h.point
  rw [PointOk, hpoint] at hp
  obtain ⟨hrest, c', hc', hstate⟩ := hp
  obtain rfl := Option.some.inj (hc.symm.trans hc')
  exact ⟨hrest, hstate⟩

/-- While a response is written, its connection is in the phase of being written. -/
theorem writing (h : ServerInv s) {rest : List EpollEvent} (hpoint : s.point = .writing fd rest)
    {c : HgConnection} (hc : s.connections fd = some c) :
    (Conforms s.descriptors rest ∧ ∀ ev ∈ rest, ev.fd ≠ fd) ∧ c.state = .writing := by
  have hp := h.point
  rw [PointOk, hpoint] at hp
  obtain ⟨hrest, c', hc', hstate⟩ := hp
  obtain rfl := Option.some.inj (hc.symm.trans hc')
  exact ⟨hrest, hstate⟩

theorem batch (h : ServerInv s) {evs : List EpollEvent} (hpoint : s.point = .batch evs) :
    Conforms s.descriptors evs := by
  have hp := h.point
  rwa [PointOk, hpoint] at hp

theorem accepting (h : ServerInv s) {rest : List EpollEvent} (hpoint : s.point = .accepting rest) :
    Conforms s.descriptors rest ∧ ∀ ev ∈ rest, ev.fd ≠ s.listenFd := by
  have hp := h.point
  rwa [PointOk, hpoint] at hp

theorem connectionSafe (h : ServerInv s) : ConnectionSafe s where
  openSafe fd sock hsock := by
    obtain ⟨-, c, -, hserves⟩ := h.entry hsock
    exact hserves.socketSafe
  closedSafe := h.closed
  table fd := by
    cases hsock : (s.descriptors fd).socket with
    | some sock =>
      obtain ⟨-, c, hc, -⟩ := h.entry hsock
      rw [hc]
      rfl
    | none =>
      cases hc : s.connections fd with
      | none => rfl
      | some c =>
        obtain ⟨-, sock, hserves⟩ := h.serves hc
        have hsome := hserves.socket
        rw [hsock] at hsome
        cases hsome
  own fd c hc := by
    obtain ⟨-, sock, hserves⟩ := h.serves hc
    exact hserves.own
  noStray := h.noStray

end ServerInv

/-! ## Steps -/

theorem Socket.Extends.refl (sock : Socket) : sock.Extends sock :=
  ⟨rfl, rfl, List.prefix_rfl, List.prefix_rfl, List.prefix_rfl⟩

/-- Events conform as long as the registrations of their descriptors stay. -/
theorem Conforms.congr {ds ds' : Fd → Descriptor} {evs : List EpollEvent} (h : Conforms ds evs)
    (heq : ∀ ev ∈ evs, (ds' ev.fd).interest = (ds ev.fd).interest) : Conforms ds' evs := by
  refine ⟨h.1, fun ev hev => ?_⟩
  unfold EventOk
  rw [heq ev hev]
  exact h.2 ev hev

/-- Events about other descriptors conform whatever becomes of this one. -/
theorem Conforms.update {ds : Fd → Descriptor} {evs : List EpollEvent} (h : Conforms ds evs)
    {fd : Fd} (hfd : ∀ ev ∈ evs, ev.fd ≠ fd) (d : Descriptor) :
    Conforms (Function.update ds fd d) evs :=
  h.congr fun ev hev => by rw [Function.update_of_ne (hfd ev hev)]

/-- The first event of a batch is about another descriptor than the rest. -/
theorem Conforms.cons {ds : Fd → Descriptor} {ev : EpollEvent} {rest : List EpollEvent}
    (h : Conforms ds (ev :: rest)) :
    EventOk (ds ev.fd) ev ∧ Conforms ds rest ∧ ∀ ev' ∈ rest, ev'.fd ≠ ev.fd := by
  obtain ⟨hnodup, hok⟩ := h
  rw [List.map_cons, List.nodup_cons] at hnodup
  refine ⟨hok ev (by simp), ⟨hnodup.2, fun e he => hok e (by simp [he])⟩, fun e he heq => ?_⟩
  exact hnodup.1 (heq ▸ List.mem_map_of_mem he)

theorem SlotOk.congr {fd : Fd} {d d' : Descriptor} {c : Option HgConnection} (h : SlotOk fd d c)
    (hsocket : d'.socket = d.socket) (hinterest : d'.interest = d.interest) : SlotOk fd d' c := by
  cases c with
  | none => exact ⟨hsocket.trans h.1, hinterest.trans h.2⟩
  | some c =>
    obtain ⟨sock, hserves⟩ := h
    refine ⟨sock, { hserves with socket := hsocket.trans hserves.socket, phase := ?_ }⟩
    cases hserves.phase with
    | reading state interest routed written =>
      exact .reading state (hinterest.trans interest) routed written
    | writing state interest complete routed written =>
      exact .writing state (hinterest.trans interest) complete routed written

/-- Connections, sockets and registrations are the same. -/
structure SameTable (s s' : ServerHost ncpu) : Prop where
  listenFd : s'.listenFd = s.listenFd
  connections : s'.connections = s.connections
  socket : ∀ fd, (s'.descriptors fd).socket = (s.descriptors fd).socket
  interest : ∀ fd, (s'.descriptors fd).interest = (s.descriptors fd).interest
  closed : s'.closed = s.closed
  strayCloses : s'.strayCloses = s.strayCloses

/-- A turn that leaves the descriptors alone. -/
theorem SameTable.of_descriptors {s s' : ServerHost ncpu} (hlisten : s'.listenFd = s.listenFd)
    (hconnections : s'.connections = s.connections) (hdescriptors : s'.descriptors = s.descriptors)
    (hclosed : s'.closed = s.closed) (hstray : s'.strayCloses = s.strayCloses) :
    SameTable s s' :=
  ⟨hlisten, hconnections, fun _ => by rw [hdescriptors], fun _ => by rw [hdescriptors], hclosed,
    hstray⟩

/-- The point stays right as long as registrations and connections stay. -/
theorem PointOk.congr {s s' : ServerHost ncpu} (h : PointOk s) (hsame : SameTable s s')
    (hpoint : s'.point = s.point) : PointOk s' := by
  unfold PointOk at h ⊢
  rw [hpoint]
  cases hp : s.point with
  | waiting | stopped => trivial
  | batch rest =>
    rw [hp] at h
    exact h.congr fun ev _ => hsame.interest ev.fd
  | accepting rest =>
    rw [hp] at h
    exact ⟨h.1.congr fun ev _ => hsame.interest ev.fd, hsame.listenFd ▸ h.2⟩
  | reading fd rest | writing fd rest =>
    rw [hp] at h
    exact ⟨⟨h.1.1.congr fun ev _ => hsame.interest ev.fd, h.1.2⟩, hsame.connections ▸ h.2⟩

/-- A step that keeps connections, sockets and registrations keeps the invariant if its point
    is right. -/
theorem ServerInv.congr {s s' : ServerHost ncpu} (h : ServerInv s) (hsame : SameTable s s')
    (hpoint : PointOk s') : ServerInv s' where
  listening := by
    rw [hsame.listenFd, hsame.connections, hsame.socket, hsame.interest]
    exact h.listening
  slots fd hfd := by
    rw [hsame.listenFd] at hfd
    rw [hsame.connections]
    exact (h.slots fd hfd).congr (hsame.socket fd) (hsame.interest fd)
  closed := hsame.closed ▸ h.closed
  noStray := hsame.strayCloses.trans h.noStray
  point := hpoint

/-- The maps do not matter for the invariant. -/
theorem ServerInv.with_maps {s : ServerHost ncpu} (h : ServerInv s) (maps : HgMaps ncpu) :
    ServerInv { s with maps := maps } := by
  have hsame : SameTable s { s with maps := maps } := .of_descriptors rfl rfl rfl rfl rfl
  exact h.congr hsame (h.point.congr hsame rfl)

/-- Changing one slot keeps the others. -/
theorem ServerInv.slots_update {s : ServerHost ncpu} (h : ServerInv s) {fd : Fd}
    {c : Option HgConnection} {d : Descriptor} (hslot : SlotOk fd d c) {k : Fd}
    (hk : k ≠ s.listenFd) :
    SlotOk k (Function.update s.descriptors fd d k) (Function.update s.connections fd c k) := by
  by_cases hkfd : k = fd
  · rw [hkfd, Function.update_self, Function.update_self]
    exact hslot
  · rw [Function.update_of_ne hkfd, Function.update_of_ne hkfd]
    exact h.slots k hk

theorem ServerInv.listening_update {s : ServerHost ncpu} (h : ServerInv s) {fd : Fd}
    (hfd : fd ≠ s.listenFd) (c : Option HgConnection) (d : Descriptor) :
    Function.update s.connections fd c s.listenFd = none ∧
      (Function.update s.descriptors fd d s.listenFd).socket = none ∧
      (Function.update s.descriptors fd d s.listenFd).interest = some .input := by
  rw [Function.update_of_ne hfd.symm, Function.update_of_ne hfd.symm]
  exact h.listening

theorem ServerInv.serve {s : ServerHost ncpu} (h : ServerInv s) {fd : Fd} (hfd : fd ≠ s.listenFd)
    {c : HgConnection} {d : Descriptor} {sock : Socket} (hserves : Serves fd c d sock)
    {p : LoopPoint} (hpoint : PointOk (s.serve fd c d p)) : ServerInv (s.serve fd c d p) where
  listening := h.listening_update hfd (some c) d
  slots _ hk := h.slots_update (c := some c) ⟨sock, hserves⟩ hk
  closed := h.closed
  noStray := h.noStray
  point := hpoint

theorem ServerInv.drop {s : ServerHost ncpu} (h : ServerInv s) {fd : Fd} (hfd : fd ≠ s.listenFd)
    {sock : Socket} (hsafe : SocketSafe sock) {p : LoopPoint}
    (hpoint : PointOk (s.drop fd sock p)) : ServerInv (s.drop fd sock p) where
  listening := h.listening_update hfd none .unused
  slots _ hk := h.slots_update (c := none) ⟨rfl, rfl⟩ hk
  closed sock' hk := by
    rcases List.mem_append.mp hk with hk | hk
    · exact h.closed sock' hk
    · rw [List.mem_singleton] at hk
      exact hk ▸ hsafe
  noStray := h.noStray
  point := hpoint

/-! ### The table -/

section
variable {t : ServerTurn ncpu} {s s' : ServerHost ncpu} {fd : Fd}

/-- A step that keeps the open sockets is fine for the table. -/
theorem tableStep_of_eq
    (h : ∀ fd sock, (s.descriptors fd).socket = some sock →
      (s'.descriptors fd).socket = some sock) (hclosed : s.closed <+: s'.closed) :
    TableStep t s s' :=
  ⟨fun fd sock hsock => Or.inl ⟨sock, h fd sock hsock, .refl sock⟩, hclosed⟩

theorem TableStep.refl (t : ServerTurn ncpu) (s : ServerHost ncpu) : TableStep t s s :=
  tableStep_of_eq (fun _ _ hk => hk) List.prefix_rfl

/-- A turn that keeps connections, sockets and registrations is fine if its point is. -/
theorem ServerInv.turn_congr (h : ServerInv s) (hsame : SameTable s s') (hpoint : PointOk s') :
    ServerInv s' ∧ TableStep t s s' :=
  ⟨h.congr hsame hpoint, tableStep_of_eq (fun fd _ hsock => (hsame.socket fd).trans hsock)
    (hsame.closed ▸ List.prefix_rfl)⟩

variable {c : HgConnection} {d : Descriptor} {p : LoopPoint} {sock sock' : Socket}

/-- A turn that goes on with a connection is fine. -/
theorem ServerInv.turn_serve (h : ServerInv s) (hfd : fd ≠ s.listenFd)
    (hsock : (s.descriptors fd).socket = some sock) (hserves : Serves fd c d sock')
    (hextends : sock.Extends sock') (hpoint : PointOk (s.serve fd c d p)) :
    ServerInv (s.serve fd c d p) ∧ TableStep t s (s.serve fd c d p) := by
  refine ⟨h.serve hfd hserves hpoint, fun k sockk hk => ?_, List.prefix_rfl⟩
  left
  by_cases hkfd : k = fd
  · subst hkfd
    obtain rfl := Option.some.inj (hsock.symm.trans hk)
    exact ⟨sock', by simpa [ServerHost.serve] using hserves.socket, hextends⟩
  · exact ⟨sockk, by simpa [ServerHost.serve, Function.update_of_ne hkfd] using hk, .refl sockk⟩

/-- A turn that closes a connection for a reason is fine. -/
theorem ServerInv.turn_drop (h : ServerInv s) (hfd : fd ≠ s.listenFd)
    (hsock : (s.descriptors fd).socket = some sock) (hsafe : SocketSafe sock')
    (hextends : sock.Extends sock') (hends : EndsWith sock' t)
    (hpoint : PointOk (s.drop fd sock' p)) :
    ServerInv (s.drop fd sock' p) ∧ TableStep t s (s.drop fd sock' p) := by
  refine ⟨h.drop hfd hsafe hpoint, fun k sockk hk => ?_, List.prefix_append _ _⟩
  by_cases hkfd : k = fd
  · subst hkfd
    obtain rfl := Option.some.inj (hsock.symm.trans hk)
    right
    exact ⟨by simp [ServerHost.drop, Descriptor.unused], by simp [ServerHost.drop],
      sock', rfl, hextends, hends⟩
  · left
    exact ⟨sockk, by simpa [ServerHost.drop, Function.update_of_ne hkfd] using hk, .refl sockk⟩

end

/-! ### The handlers -/

theorem Socket.extends_receive (sock : Socket) (chunks : List (List Char)) :
    sock.Extends (sock.receive chunks) :=
  ⟨rfl, rfl, List.prefix_append _ _, List.prefix_rfl, List.prefix_rfl⟩

theorem Socket.extends_write (sock : Socket) (bytes : List Char) :
    sock.Extends (sock.write bytes) :=
  ⟨rfl, rfl, List.prefix_rfl, List.prefix_rfl, List.prefix_append _ _⟩

theorem Socket.extends_receive_route (sock : Socket) (chunks : List (List Char)) (r : Routing) :
    sock.Extends ((sock.receive chunks).route r) :=
  ⟨rfl, rfl, List.prefix_append _ _, List.prefix_append _ _, List.prefix_rfl⟩

section
variable {s : ServerHost ncpu} {fd : Fd} {rest : List EpollEvent} {c : HgConnection} {sock : Socket}

/-- The events that are left conform after a change of another slot. -/
theorem pointOk_serve_batch (h : Conforms s.descriptors rest) (hne : ∀ ev ∈ rest, ev.fd ≠ fd)
    (c : HgConnection) (d : Descriptor) : PointOk (s.serve fd c d (.batch rest)) := h.update hne d

theorem pointOk_drop_batch (h : Conforms s.descriptors rest) (hne : ∀ ev ∈ rest, ev.fd ≠ fd)
    (sock : Socket) : PointOk (s.drop fd sock (.batch rest)) := h.update hne .unused

/-- A connection that is read and has its whole request is served with the response. -/
theorem Serves.answer {d : Descriptor} (h : Serves fd c d sock) (hrouted : sock.routed = [])
    (hwritten : sock.written = []) (hcomplete : c.parser.state = .complete)
    (response : List Char) :
    Serves fd (c.queueResponse response)
      ((d.onSocket fun sock => sock.route ⟨c.parser, c.clientIp, c.clientPort, response⟩).register
        .output)
      (sock.route ⟨c.parser, c.clientIp, c.clientPort, response⟩) where
  socket := congrArg (Option.map _) h.socket
  own := h.own
  clientIp := h.clientIp
  clientPort := h.clientPort
  parser := h.parser
  phase := .writing rfl rfl hcomplete (by rw [Socket.route, hrouted]; rfl)
    (by simpa [HgConnection.queueResponse, Socket.route] using hwritten)

/-- A read keeps the invariant, and ends the connection only for a reason. -/
theorem readTurn_ok (h : ServerInv s) (hpoint : s.point = .reading fd rest)
    (hc : s.connections fd = some c) (cfg : HgConfig) (provider : AuthProvider) (r : ReadResult)
    (env : DaemonEnv) :
    ServerInv (s.readTurn cfg provider env fd rest c r) ∧
      TableStep (.read r env) s (s.readTurn cfg provider env fd rest c r) := by
  obtain ⟨⟨hrest, hne⟩, hstate⟩ := h.reading hpoint hc
  obtain ⟨hfd, sock, hserves⟩ := h.serves hc
  have hsock := hserves.socket
  obtain ⟨hinput, hrouted, hwritten⟩ := hserves.phase.of_reading hstate
  have hparser : r.chunks.foldl HgParser.feed c.parser =
      (sock.receive r.chunks).received.foldl HgParser.feed .init := by
    rw [hserves.parser, Socket.receive, List.foldl_append]
  have hreading : Serves fd { c with parser := r.chunks.foldl HgParser.feed c.parser }
      (ServerHost.readDescriptor (s.descriptors fd) r) (sock.receive r.chunks) :=
    ⟨by simp [ServerHost.readDescriptor, hsock], hserves.own, hserves.clientIp, hserves.clientPort,
      hparser, .reading hstate (by simpa [ServerHost.readDescriptor] using hinput) hrouted hwritten⟩
  have hext := sock.extends_receive r.chunks
  rw [ServerHost.readTurn_eq cfg provider env rest hserves.own hsock r]
  have hout := readOutcome c r
  generalize c.onReadable r = x at hout
  cases hout with
  | more hopen =>
    refine h.turn_serve hfd hsock hreading hext ?_
    rw [PointOk, ServerHost.serve, hpoint]
    exact ⟨⟨hrest.update hne _, hne⟩, _, Function.update_self .., hstate⟩
  | blocked hblocked =>
    simp only [Bool.false_eq_true, if_false, hstate] at hreading ⊢
    exact h.turn_serve hfd hsock hreading hext (pointOk_serve_batch hrest hne _ _)
  | complete hcomplete =>
    simp only [Bool.false_eq_true, if_false]
    generalize (route cfg provider _ c.clientIp c.clientPort).run env s.maps = answer
    have hanswer := hreading.answer hrouted hwritten hcomplete answer.1
    obtain ⟨hinv, htable⟩ := h.turn_serve (t := .read r env) hfd hsock hanswer
      (sock.extends_receive_route _ _) (pointOk_serve_batch hrest hne _ _)
    exact ⟨hinv.with_maps answer.2, htable.sockets, htable.closed⟩
  | ended hopen hdata =>
    simp only [Bool.false_eq_true, if_false]
    refine h.turn_drop hfd hsock hreading.socketSafe hext ?_ (pointOk_drop_batch hrest hne _)
    cases r with
    | eof => trivial
    | failed e => exact hopen
    | data bytes =>
      rw [EndsWith, ← hparser]
      exact hdata bytes rfl

/-- A connection whose response is out up to its offset is answered at the end of the buffer. -/
theorem Serves.answered {d : Descriptor} (h : Serves fd c d sock) (hstate : c.state = .writing)
    (hend : c.writeBuf.length ≤ c.writeOffset) : sock.Answered := by
  obtain ⟨-, -, hrouted, hwritten⟩ := h.phase.of_writing hstate
  exact ⟨_, hrouted, hwritten.trans (List.take_of_length_le hend)⟩

/-- A write keeps the invariant, and ends the connection only for a reason. -/
theorem writeTurn_ok (h : ServerInv s) (hpoint : s.point = .writing fd rest)
    (hc : s.connections fd = some c) (r : WriteResult) :
    ServerInv (s.writeTurn fd rest c r) ∧ TableStep (.write r) s (s.writeTurn fd rest c r) := by
  obtain ⟨⟨hrest, hne⟩, hstate⟩ := h.writing hpoint hc
  obtain ⟨hfd, sock, hserves⟩ := h.serves hc
  have hsock := hserves.socket
  obtain ⟨houtput, hcomplete, hrouted, hwritten⟩ := hserves.phase.of_writing hstate
  have hwriting : Serves fd { c with writeOffset := c.writeOffset + r.count }
      (ServerHost.writeDescriptor (s.descriptors fd) c r)
      (sock.write ((c.writeBuf.drop c.writeOffset).take r.count)) :=
    ⟨by simp [ServerHost.writeDescriptor, hsock], hserves.own, hserves.clientIp,
      hserves.clientPort, hserves.parser,
      .writing hstate (by simpa [ServerHost.writeDescriptor] using houtput) hcomplete hrouted
        (by rw [Socket.write, hwritten, ← List.take_add])⟩
  have hext := sock.extends_write ((c.writeBuf.drop c.writeOffset).take r.count)
  rw [ServerHost.writeTurn_eq rest hserves.own hsock r]
  have hout := writeOutcome c r
  generalize c.onWritable r = x at hout
  cases hout with
  | more hlt =>
    refine h.turn_serve hfd hsock hwriting hext ?_
    rw [PointOk, ServerHost.serve, hpoint]
    exact ⟨⟨hrest.update hne _, hne⟩, _, Function.update_self .., hstate⟩
  | blocked hblocked =>
    simp only [Bool.false_eq_true, if_false, hstate] at hwriting ⊢
    exact h.turn_serve hfd hsock hwriting hext (pointOk_serve_batch hrest hne _ _)
  | finished n hr hend =>
    subst hr
    simp only [Bool.false_eq_true, if_false]
    refine h.turn_drop hfd hsock hwriting.socketSafe hext ?_ (pointOk_drop_batch hrest hne _)
    exact hwriting.answered hstate hend
  | failed e hr he =>
    subst hr
    simp only [Bool.false_eq_true, if_false]
    refine h.turn_drop hfd hsock hwriting.socketSafe hext ?_ (pointOk_drop_batch hrest hne _)
    exact he

/-- A new connection keeps the invariant. -/
theorem acceptTurn_ok (h : ServerInv s) (hpoint : s.point = .accepting rest) (r : AcceptResult)
    (hkernel : KernelTurn s (.accept r)) :
    ServerInv (s.acceptTurn rest r) ∧ TableStep (.accept r) s (s.acceptTurn rest r) := by
  obtain ⟨hrest, hne⟩ := h.accepting hpoint
  cases r with
  | failed e =>
    have hsocket := s.onDescriptor_apply Descriptor.socket
      (fun d => d.attempt_socket .input e.blocks) s.listenFd
    have hinterest := s.onDescriptor_apply Descriptor.interest
      (fun d => d.attempt_interest .input e.blocks) s.listenFd
    exact h.turn_congr ⟨rfl, rfl, hsocket, hinterest, rfl, rfl⟩
      (hrest.congr fun ev _ => hinterest ev.fd)
  | connected fd ip port fcntlOk addOk =>
    have hfree := h.free hkernel
    obtain ⟨hnone, hfd⟩ := hkernel
    have hclosed : (s.descriptors fd).socket = none := by simpa using hnone
    have hnefd : ∀ ev ∈ rest, ev.fd ≠ fd := by
      rintro ev hev rfl
      obtain ⟨i, hi, -⟩ := hrest.2 ev hev
      have hslot := h.slots ev.fd hfd
      rw [hfree] at hslot
      rw [hslot.2] at hi
      cases hi
    have hother : ∀ k sock (d : Descriptor), (s.descriptors k).socket = some sock →
        (Function.update s.descriptors fd d k).socket = some sock := by
      intro k sock d hk
      rw [Function.update_of_ne ?_]
      · exact hk
      · rintro rfl
        rw [hclosed] at hk
        cases hk
    rw [ServerHost.acceptTurn_connected_eq rest hfree]
    split
    · have hserves : Serves fd (.init fd (inetNtop ip) port)
          ({ Descriptor.unused with socket := some (.init ip port) }.register .input)
          (.init ip port) :=
        ⟨rfl, rfl, rfl, rfl, rfl, .reading rfl rfl rfl rfl⟩
      refine ⟨h.serve hfd hserves ?_, tableStep_of_eq
        (fun k sock hk => hother k sock _ hk) List.prefix_rfl⟩
      rw [PointOk, ServerHost.serve, hpoint]
      exact ⟨hrest.update hnefd _, hne⟩
    · refine ⟨h.drop hfd ⟨by simp [Socket.init], by simp [Socket.init], List.nil_prefix⟩ ?_,
        tableStep_of_eq (fun k sock hk => hother k sock _ hk) (List.prefix_append _ _)⟩
      rw [PointOk, ServerHost.drop, hpoint]
      exact ⟨hrest.update hnefd _, hne⟩

/-- Taking the next event keeps the invariant. -/
theorem dispatch_ok (h : ServerInv s) {ev : EpollEvent} (hpoint : s.point = .batch (ev :: rest)) :
    ServerInv (s.dispatch ev rest) ∧ TableStep .next s (s.dispatch ev rest) := by
  obtain ⟨⟨i, hi, hreports⟩, hrest, hne⟩ := (h.batch hpoint).cons
  have hmove : ∀ p, PointOk { s with point := p } → ServerInv { s with point := p } ∧
      TableStep .next s { s with point := p } := fun p hp =>
    h.turn_congr (.of_descriptors rfl rfl rfl rfl rfl) hp
  unfold ServerHost.dispatch
  split
  · next hlisten => exact hmove _ ⟨hrest, hlisten ▸ hne⟩
  · cases hc : s.connections ev.fd with
    | none => exact hmove _ hrest
    | some c =>
      obtain ⟨hfd, sock, hserves⟩ := h.serves hc
      dsimp only
      split
      · next hin =>
        obtain rfl := hreports.1 hin
        refine hmove _ ⟨⟨hrest, hne⟩, c, hc, ?_⟩
        exact hserves.phase.state_eq.trans (if_pos hi)
      · split
        · next hout =>
          obtain rfl := hreports.2 hout
          have hinput : (s.descriptors ev.fd).interest ≠ some .input := by
            rw [Option.mem_def.mp hi]
            exact nofun
          have hstate : c.state = .writing := by rw [hserves.phase.state_eq, if_neg hinput]
          rw [ServerHost.startWritable_eq rest hc hserves.own hserves.socket]
          split
          · exact hmove _ ⟨⟨hrest, hne⟩, c, hc, hstate⟩
          · next hend =>
            exact h.turn_drop hfd hserves.socket hserves.socketSafe (.refl sock)
              (hserves.answered hstate (Nat.le_of_not_lt hend)) (pointOk_drop_batch hrest hne _)
        · exact hmove _ hrest

end

/-- Every turn keeps the invariant, and ends a connection only for a reason. -/
theorem step_ok {s : ServerHost ncpu} (h : ServerInv s) (cfg : HgConfig) (provider : AuthProvider)
    (t : ServerTurn ncpu) (hkernel : KernelTurn s t) :
    ServerInv (s.step cfg provider t) ∧ TableStep t s (s.step cfg provider t) := by
  have hkeep : ServerInv s ∧ TableStep t s s := ⟨h, .refl t s⟩
  have hhead : ServerInv s.loopHead ∧ TableStep t s s.loopHead := by
    refine h.turn_congr (.of_descriptors rfl rfl rfl rfl rfl) ?_
    unfold PointOk ServerHost.loopHead
    cases s.running <;> trivial
  cases t with
  | stop =>
    exact h.turn_congr (.of_descriptors rfl rfl rfl rfl rfl) h.point
  | others maps =>
    exact h.turn_congr (.of_descriptors rfl rfl rfl rfl rfl) h.point
  | arrive fd i =>
    have hsocket := s.onDescriptor_apply Descriptor.socket (fun d => d.arrive_socket i) fd
    have hinterest := s.onDescriptor_apply Descriptor.interest (fun d => d.arrive_interest i) fd
    have hsame : SameTable s (s.onDescriptor fd fun d => d.arrive i) :=
      ⟨rfl, rfl, hsocket, hinterest, rfl, rfl⟩
    exact h.turn_congr hsame (h.point.congr hsame rfl)
  | epollWait r =>
    unfold ServerHost.step
    cases hpoint : s.point with
    | waiting =>
      cases r with
      | ok evs =>
        have hsocket := s.report_apply Descriptor.socket (fun _ => rfl) evs
        have hinterest := s.report_apply Descriptor.interest (fun _ => rfl) evs
        exact h.turn_congr ⟨rfl, rfl, hsocket, hinterest, rfl, rfl⟩
          (hkernel.congr fun ev _ => hinterest ev.fd)
      | error e =>
        dsimp only
        split
        · exact hhead
        · exact h.turn_congr (.of_descriptors rfl rfl rfl rfl rfl) trivial
    | batch | accepting | reading | writing | stopped => exact hkeep
  | next =>
    unfold ServerHost.step
    cases hpoint : s.point with
    | batch evs =>
      cases evs with
      | nil => exact hhead
      | cons ev rest => exact dispatch_ok h hpoint
    | waiting | accepting | reading | writing | stopped => exact hkeep
  | accept r =>
    unfold ServerHost.step
    cases hpoint : s.point with
    | accepting rest => exact acceptTurn_ok h hpoint r hkernel
    | waiting | batch | reading | writing | stopped => exact hkeep
  | read r env =>
    unfold ServerHost.step
    cases hpoint : s.point with
    | reading fd rest =>
      cases hc : s.connections fd with
      | none => simpa [hc] using hkeep
      | some c => simpa [hc] using readTurn_ok h hpoint hc cfg provider r env
    | waiting | batch | accepting | writing | stopped => exact hkeep
  | write r =>
    unfold ServerHost.step
    cases hpoint : s.point with
    | writing fd rest =>
      cases hc : s.connections fd with
      | none => simpa [hc] using hkeep
      | some c => simpa [hc] using writeTurn_ok h hpoint hc r
    | waiting | batch | accepting | reading | stopped => exact hkeep

/-! ## Runs -/

theorem serverInv_start (listenFd : Fd) (maps : HgMaps ncpu) :
    ServerInv (.start listenFd maps) where
  listening := by simp [ServerHost.start, Descriptor.unused, Descriptor.register]
  slots fd hfd := by
    have hne : fd ≠ listenFd := hfd
    simp [ServerHost.start, SlotOk, Function.update_of_ne hne, Descriptor.unused]
  closed := by simp [ServerHost.start]
  noStray := rfl
  point := trivial

/-- Over every run in which the kernel keeps to its part, every connection is safe after each
    turn, and each turn ends connections only for a reason and closes just their descriptors. -/
theorem connection_safety (cfg : HgConfig) (provider : AuthProvider) (listenFd : Fd)
    (maps : HgMaps ncpu) (ts : List (ServerTurn ncpu))
    (hkernel : Always (ServerHost.step cfg provider) KernelTurn (.start listenFd maps) ts) :
    Always (ServerHost.step cfg provider)
      (fun s t => ConnectionSafe (s.step cfg provider t) ∧ TableStep t s (s.step cfg provider t))
      (.start listenFd maps) ts := by
  have hinv : ∀ (s : ServerHost ncpu) t, ServerInv s → KernelTurn s t →
      ServerInv (s.step cfg provider t) := fun s t h hk => (step_ok h cfg provider t hk).1
  have hsafe : ∀ (s : ServerHost ncpu) t, ServerInv s → KernelTurn s t →
      ConnectionSafe (s.step cfg provider t) ∧ TableStep t s (s.step cfg provider t) :=
    fun s t h hk => ⟨(hinv s t h hk).connectionSafe, (step_ok h cfg provider t hk).2⟩
  exact always_of_inv hinv hsafe (serverInv_start listenFd maps) hkernel

/-- A request for the portal page that arrives in two parts; the response leaves in two parts. -/
def portalVisit : List (ServerTurn 1) :=
  let env := DaemonEnv.good ⟨0, 0⟩ fun _ => none
  [.epollWait (.ok [⟨3, true, false⟩]), .next,
    .accept (.connected 7 (Bytes.addrOfOctets 192 168 99 82) 40000 true true),
    .accept (.failed .again), .next,
    .epollWait (.ok [⟨7, true, false⟩]), .next, .read (.data "GET /por".toList) env,
    .read (.failed .again) env, .next,
    .epollWait (.ok [⟨7, true, false⟩]), .next,
    .read (.data "tal HTTP/1.1\r\n\r\n".toList) env, .next,
    .epollWait (.ok [⟨7, false, true⟩]), .next, .write (.written 20), .write (.failed .again), .next,
    .epollWait (.ok [⟨7, false, true⟩]), .next, .write (.written 200), .next]

/-- The visit is safe throughout, and ends with the connection closed and answered. -/
theorem connection_safety_portal_visit :
    Always (ServerHost.step .init localAuth)
        (fun s t => ConnectionSafe (s.step .init localAuth t) ∧
          TableStep t s (s.step .init localAuth t))
        (.start 3 (.start 1 .standard 0)) portalVisit ∧
      ((run (ServerHost.step .init localAuth) (.start 3 (.start 1 .standard 0))
        portalVisit).closed.map fun sock => (sock.routed.map Routing.response, sock.written)) =
        [([htmlResponse "<html><body><h2>Portal unavailable</h2></body></html>".toList],
          htmlResponse "<html><body><h2>Portal unavailable</h2></body></html>".toList)] :=
  ⟨connection_safety .init localAuth 3 (.start 1 .standard 0) portalVisit (by decide +kernel),
    by decide +kernel⟩

end HawkGate
