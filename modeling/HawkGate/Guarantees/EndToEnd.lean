-- SUMMARY: From the bytes on a connection to the session in the kernel and back to the bytes of the response.
import HawkGate.Guarantees.ConnectionSafety
import HawkGate.Guarantees.Provenance
import HawkGate.System.Appliance

/-!
# End to end

The server and the gateway under it, in any interleaving. What is written to a
connection is the reply of the party that its own bytes started, and a session
that no command made goes back to the bytes of a login, on a connection from an
address that the client itself has sent a frame from.
-/

namespace HawkGate

open CString StdString Transition

variable {ncpu : Nat}

/-! ## Sockets -/

/-- The property holds of every connection that was ever accepted. -/
structure ServerHost.AllSockets (s : ServerHost ncpu) (P : Socket → Prop) : Prop where
  openAll : ∀ fd sock, (s.descriptors fd).socket = some sock → P sock
  closedAll : ∀ sock ∈ s.closed, P sock

section
variable {s s' : ServerHost ncpu} {P : Socket → Prop} {fd : Fd}

theorem ServerHost.AllSockets.congr (h : s.AllSockets P)
    (hsocket : ∀ fd, (s'.descriptors fd).socket = (s.descriptors fd).socket)
    (hclosed : s'.closed = s.closed) : s'.AllSockets P where
  openAll fd sock hsock := h.openAll fd sock ((hsocket fd).symm.trans hsock)
  closedAll := hclosed ▸ h.closedAll

theorem ServerHost.AllSockets.mono {Q : Socket → Prop} (h : s.AllSockets P)
    (hPQ : ∀ sock, P sock → Q sock) : s.AllSockets Q where
  openAll fd sock hsock := hPQ sock (h.openAll fd sock hsock)
  closedAll sock hsock := hPQ sock (h.closedAll sock hsock)

theorem ServerHost.AllSockets.serve (h : s.AllSockets P) {d : Descriptor}
    (hd : ∀ sock, d.socket = some sock → P sock) (c : HgConnection) (p : LoopPoint) :
    (s.serve fd c d p).AllSockets P where
  openAll k sock (hk : (Function.update s.descriptors fd d k).socket = some sock) := by
    by_cases hkfd : k = fd
    · rw [hkfd, Function.update_self] at hk
      exact hd sock hk
    · rw [Function.update_of_ne hkfd] at hk
      exact h.openAll k sock hk
  closedAll := h.closedAll

theorem ServerHost.AllSockets.drop (h : s.AllSockets P) {sock : Socket} (hsock : P sock)
    (p : LoopPoint) : (s.drop fd sock p).AllSockets P where
  openAll k sockk (hk : (Function.update s.descriptors fd .unused k).socket = some sockk) := by
    by_cases hkfd : k = fd
    · rw [hkfd, Function.update_self] at hk
      cases hk
    · rw [Function.update_of_ne hkfd] at hk
      exact h.openAll k sockk hk
  closedAll sockk hk := by
    rcases List.mem_append.mp hk with hk | hk
    · exact h.closedAll sockk hk
    · exact List.mem_singleton.mp hk ▸ hsock

/-- What depends on the responses only, and holds of a new connection, every turn keeps that
    completes no request. -/
theorem ServerHost.AllSockets.step (hP : ∀ sock sock' : Socket, sock'.routed = sock.routed →
      P sock → P sock') (hnew : ∀ ip port, P (.init ip port)) (h : s.AllSockets P)
    (hinv : ServerInv s) (cfg : HgConfig) (provider : AuthProvider) {t : ServerTurn ncpu}
    (hkernel : KernelTurn s t) (hdone : s.completes t = none) :
    (s.step cfg provider t).AllSockets P := by
  cases t with
  | stop | others => exact h.congr (fun _ => rfl) rfl
  | arrive fd i =>
    exact h.congr (s.onDescriptor_apply Descriptor.socket (fun d => d.arrive_socket i) fd) rfl
  | epollWait r =>
    unfold ServerHost.step
    cases s.point with
    | waiting =>
      cases r with
      | ok evs => exact h.congr (s.report_apply Descriptor.socket (fun _ => rfl) evs) rfl
      | error e =>
        dsimp only
        split
        · exact h.congr (fun _ => rfl) rfl
        · exact h.congr (fun _ => rfl) rfl
    | batch | accepting | reading | writing | stopped => exact h
  | next =>
    unfold ServerHost.step
    cases hpoint : s.point with
    | batch evs =>
      cases evs with
      | nil => exact h.congr (fun _ => rfl) rfl
      | cons ev rest =>
        dsimp only
        unfold dispatch
        split
        · exact h.congr (fun _ => rfl) rfl
        · cases hc : s.connections ev.fd with
          | none => exact h.congr (fun _ => rfl) rfl
          | some c =>
            obtain ⟨-, sock, hserves⟩ := hinv.serves hc
            dsimp only
            split
            · exact h.congr (fun _ => rfl) rfl
            · split
              · rw [startWritable_eq rest hc hserves.own hserves.socket]
                split
                · exact h.congr (fun _ => rfl) rfl
                · exact h.drop (h.openAll _ _ hserves.socket) _
              · exact h.congr (fun _ => rfl) rfl
    | waiting | accepting | reading | writing | stopped => exact h
  | accept r =>
    unfold ServerHost.step
    cases hpoint : s.point with
    | accepting rest =>
      cases r with
      | failed e =>
        exact h.congr (s.onDescriptor_apply Descriptor.socket
          (fun d => d.attempt_socket .input e.blocks) s.listenFd) rfl
      | connected fd ip port fcntlOk addOk =>
        dsimp only
        rw [acceptTurn_connected_eq rest (hinv.free hkernel)]
        split
        · refine h.serve (fun sock hsock => ?_) _ _
          exact Option.some.inj hsock ▸ hnew ip port
        · exact h.drop (hnew ip port) _
    | waiting | batch | reading | writing | stopped => exact h
  | read r env =>
    unfold ServerHost.step
    cases hpoint : s.point with
    | reading fd rest =>
      obtain ⟨c, hc⟩ := hinv.exists_reading hpoint
      obtain ⟨-, sock, hserves⟩ := hinv.serves hc
      obtain ⟨-, hstate⟩ := hinv.reading hpoint hc
      have hsock := h.openAll fd sock hserves.socket
      have hreceive : P (sock.receive r.chunks) := hP sock _ rfl hsock
      have hd : ∀ sock', (readDescriptor (s.descriptors fd) r).socket = some sock' → P sock' := by
        intro sock' hsock'
        simp only [readDescriptor, Descriptor.onSocket_socket, Descriptor.attempt_socket,
          hserves.socket, Option.map_some, Option.some.injEq] at hsock'
        exact hsock' ▸ hreceive
      unfold completes at hdone
      simp only [hpoint, hc, Option.bind_some] at hdone
      simp only [hc]
      rw [readTurn_eq cfg provider env rest hserves.own hserves.socket r]
      have hout := readOutcome c r
      generalize c.onReadable r = x at hout hdone
      cases hout with
      | more hopen => exact h.serve hd _ _
      | blocked hblocked =>
        simp only [Bool.false_eq_true, if_false, hstate]
        exact h.serve hd _ _
      | complete hcomplete => simp at hdone
      | ended hopen hdata =>
        simp only [Bool.false_eq_true, if_false]
        exact h.drop hreceive _
    | waiting | batch | accepting | writing | stopped => exact h
  | write r =>
    unfold ServerHost.step
    cases hpoint : s.point with
    | writing fd rest =>
      obtain ⟨c, hc⟩ := hinv.exists_writing hpoint
      obtain ⟨-, sock, hserves⟩ := hinv.serves hc
      obtain ⟨-, hstate⟩ := hinv.writing hpoint hc
      have hwrite : P (sock.write ((c.writeBuf.drop c.writeOffset).take r.count)) :=
        hP sock _ rfl (h.openAll fd sock hserves.socket)
      have hd : ∀ sock', (writeDescriptor (s.descriptors fd) c r).socket = some sock' →
          P sock' := by
        intro sock' hsock'
        simp only [writeDescriptor, Descriptor.onSocket_socket, Descriptor.attempt_socket,
          hserves.socket, Option.map_some, Option.some.injEq] at hsock'
        exact hsock' ▸ hwrite
      simp only [hc]
      rw [writeTurn_eq rest hserves.own hserves.socket r]
      have hout := writeOutcome c r
      generalize c.onWritable r = x at hout
      cases hout with
      | more hlt => exact h.serve hd _ _
      | blocked hblocked =>
        simp only [Bool.false_eq_true, if_false, hstate]
        exact h.serve hd _ _
      | finished n hr hend =>
        simp only [Bool.false_eq_true, if_false]
        exact h.drop hwrite _
      | failed e hr he =>
        simp only [Bool.false_eq_true, if_false]
        exact h.drop hwrite _
    | waiting | batch | accepting | reading | stopped => exact h

end

/-! ## Responding -/

/-- The connection in hand at a read that completes its request. -/
structure Completed (s : ServerHost ncpu) (fd : Fd) (rest : List EpollEvent) (c c' : HgConnection)
    (sock : Socket) (r : ReadResult) : Prop where
  point : s.point = .reading fd rest
  entry : s.connections fd = some c
  listening : fd ≠ s.listenFd
  serves : Serves fd c (s.descriptors fd) sock
  left : Conforms s.descriptors rest ∧ ∀ ev ∈ rest, ev.fd ≠ fd
  read : c.onReadable r = (c', false)
  reading : c.state = .reading
  after : c' = { c with parser := r.chunks.foldl HgParser.feed c.parser, state := .writing }
  complete : c'.parser.state = .complete

theorem ServerInv.completed {s : ServerHost ncpu} (h : ServerInv s) {t : ServerTurn ncpu}
    {c' : HgConnection} {r : ReadResult} (hdone : s.completes t = some (c', r)) :
    ∃ fd rest c sock, Completed s fd rest c c' sock r := by
  obtain ⟨env, fd, rest, c, rfl, hpoint, hc, hread, hstate'⟩ := ServerHost.completes_eq_some hdone
  obtain ⟨hfd, sock, hserves⟩ := h.serves hc
  obtain ⟨hrest, hstate⟩ := h.reading hpoint hc
  have hout := readOutcome c r
  have hafter : c' = { c with parser := r.chunks.foldl HgParser.feed c.parser, state := .writing } ∧
      c'.parser.state = .complete := by
    rw [hread] at hout
    generalize hx : (c', false) = x at hout
    cases hout with
    | more hopen => cases hx
    | blocked hblocked =>
      cases hx
      exact absurd (hstate.symm.trans hstate') nofun
    | complete hcomplete =>
      cases hx
      exact ⟨rfl, hcomplete⟩
    | ended hopen hdata =>
      cases hx
      cases hstate'
  exact ⟨fd, rest, c, sock, hpoint, hc, hfd, hserves, hrest, hread, hstate, hafter.1, hafter.2⟩

section
variable {s : ServerHost ncpu} {fd : Fd} {rest : List EpollEvent} {c c' : HgConnection}
  {sock : Socket} {r : ReadResult}

/-- The request is that of all bytes so far, and the client is the one of the connection. -/
theorem Completed.request (h : Completed s fd rest c c' sock r) :
    c'.parser = (sock.receive r.chunks).received.foldl HgParser.feed .init ∧
      c'.clientIp = inetNtop sock.clientIp ∧ c'.clientPort = sock.clientPort := by
  rw [h.after]
  refine ⟨?_, h.serves.clientIp, h.serves.clientPort⟩
  rw [Socket.receive, List.foldl_append, ← h.serves.parser]

theorem Completed.respond_eq (h : Completed s fd rest c c' sock r) (text : List Char) :
    s.respond r text =
      s.serve fd (c'.queueResponse text)
        (((ServerHost.readDescriptor (s.descriptors fd) r).onSocket fun sock =>
          sock.route ⟨c'.parser, c'.clientIp, c'.clientPort, text⟩).register .output)
        (.batch rest) := by
  have hown := h.serves.own
  have hown' : c'.fd = fd := by
    have hfd := c.onReadable_fd r
    rw [h.read] at hfd
    exact hfd.trans hown
  subst hown
  simp only [ServerHost.respond, h.point, h.entry, h.read, ServerHost.onDescriptor,
    ServerHost.setConnection, ServerHost.serve, hown', Function.update_self, Function.update_idem,
    ServerHost.readDescriptor]

/-- The response keeps the invariant of the server. -/
theorem Completed.respond_ok (h : Completed s fd rest c c' sock r) (hinv : ServerInv s)
    (text : List Char) : ServerInv (s.respond r text) := by
  obtain ⟨hinput, hrouted, hwritten⟩ := h.serves.phase.of_reading h.reading
  have hreading : Serves fd { c with parser := r.chunks.foldl HgParser.feed c.parser }
      (ServerHost.readDescriptor (s.descriptors fd) r) (sock.receive r.chunks) := by
    refine ⟨by simp [ServerHost.readDescriptor, h.serves.socket], h.serves.own, h.serves.clientIp,
      h.serves.clientPort, ?_, .reading h.reading ?_ hrouted hwritten⟩
    · rw [h.serves.parser, Socket.receive, List.foldl_append]
    · simpa [ServerHost.readDescriptor] using hinput
  have hcomplete : (r.chunks.foldl HgParser.feed c.parser).state = .complete := by
    have hc' := h.complete
    rwa [h.after] at hc'
  have hanswer := hreading.answer hrouted hwritten hcomplete text
  rw [h.respond_eq, h.after]
  exact hinv.serve h.listening hanswer (pointOk_serve_batch h.left.1 h.left.2 _ _)

/-- The response goes to the connection whose request it answers, and to no other. -/
theorem Completed.respond_sockets {P : Socket → Prop} (h : Completed s fd rest c c' sock r)
    (hall : s.AllSockets P) {text : List Char}
    (hP : P ((sock.receive r.chunks).route ⟨c'.parser, c'.clientIp, c'.clientPort, text⟩)) :
    (s.respond r text).AllSockets P := by
  rw [h.respond_eq]
  refine hall.serve (fun sock' hsock' => ?_) _ _
  simp only [ServerHost.readDescriptor, Descriptor.register_socket, Descriptor.onSocket_socket,
    Descriptor.attempt_socket, h.serves.socket, Option.map_some, Option.some.injEq] at hsock'
  exact hsock' ▸ hP

end

/-! ## Parties -/

/-- A party of the gateway that has finished with this reply. -/
def Gateway.Replied (g : Gateway ncpu) (party : Party) (text : List Char) : Prop :=
  ∃ i : Nat, g.running[i]? = some ⟨party, .ret (.response text)⟩

/-- A party keeps its place, and its reply once it has one. -/
theorem Gateway.running_step {g : Gateway ncpu} {i : Nat} {rp : RunningParty ncpu}
    (h : g.running[i]? = some rp) (e : GatewayEvent ncpu) :
    ∃ rp', (g.step e).running[i]? = some rp' ∧ rp'.party = rp.party ∧
      ∀ a, rp.rest = .ret a → rp'.rest = .ret a := by
  have hi : i < g.running.length := (List.getElem?_eq_some_iff.mp h).1
  cases e with
  | start p => exact ⟨rp, (List.getElem?_append_left hi).trans h, rfl, fun _ ha => ha⟩
  | ingress | egress => exact ⟨rp, h, rfl, fun _ ha => ha⟩
  | call j env =>
    rw [Gateway.step]
    cases hj : g.running[j]? with
    | none => exact ⟨rp, h, rfl, fun _ ha => ha⟩
    | some q =>
      by_cases hij : j = i
      · subst hij
        obtain rfl := Option.some.inj (h.symm.trans hj)
        refine ⟨{ rp with rest := (rp.rest.advance (GatewayOp.exec env) g.maps).1 },
          List.getElem?_set_self hi, rfl, fun a ha => ?_⟩
        rw [ha]
        rfl
      · exact ⟨rp, (List.getElem?_set_ne hij).trans h, rfl, fun _ ha => ha⟩

theorem Gateway.Replied.step {g : Gateway ncpu} {party : Party} {text : List Char}
    (h : g.Replied party text) (e : GatewayEvent ncpu) : (g.step e).Replied party text := by
  obtain ⟨i, hi⟩ := h
  obtain ⟨⟨party', rest⟩, hi', hparty, hrest⟩ := Gateway.running_step hi e
  obtain rfl : party' = party := hparty
  obtain rfl : rest = .ret (.response text) := hrest _ rfl
  exact ⟨i, hi'⟩

/-! ## The invariant -/

def Routing.party (a : Routing) (cfg : HgConfig) (provider : AuthProvider) : Party :=
  .request cfg provider a.parser.request a.clientIp a.clientPort

/-- Each response on a connection is the reply of a party. -/
def ServerHost.Answered (s : ServerHost ncpu) (cfg : HgConfig) (provider : AuthProvider)
    (g : Gateway ncpu) : Prop :=
  s.AllSockets fun sock => ∀ a ∈ sock.routed, g.Replied (a.party cfg provider) a.response

/-- The server keeps its invariant, the party that the loop waits for is that of the connection in
    hand, and every response was some party's. -/
structure Appliance.Inv (cfg : HgConfig) (provider : AuthProvider) (st : Appliance ncpu) : Prop where
  server : ServerInv st.server
  routing : ∀ r i, st.routing = some (r, i) → ∃ env c rp,
    st.server.completes (.read r env) = some (c, r) ∧ st.running[i]? = some rp ∧
      rp.party = c.party cfg provider
  answered : st.server.Answered cfg provider st.gateway

/-- The kernel keeps to its part in the turns of the event loop. -/
def Appliance.KernelEvent (st : Appliance ncpu) : ApplianceEvent ncpu → Prop
  | .turn t => KernelTurn st.server t
  | _ => True

instance (st : Appliance ncpu) : (e : ApplianceEvent ncpu) → Decidable (st.KernelEvent e)
  | .turn t => inferInstanceAs (Decidable (KernelTurn st.server t))
  | .respond | .command _ | .call .. | .ingress .. | .egress .. => inferInstanceAs (Decidable True)

section
variable {cfg : HgConfig} {provider : AuthProvider} {st : Appliance ncpu}

theorem Appliance.inv_start (listenFd : Fd) (portal : HgPortalCfg) (ifb : UInt32) :
    Appliance.Inv cfg provider (.start listenFd portal ifb : Appliance ncpu) where
  server := serverInv_start listenFd _
  routing r i h := by cases h
  answered := by
    refine ⟨fun fd sock hsock => ?_, fun sock hsock => by cases hsock⟩
    have hnone : ((ServerHost.start listenFd (.start ncpu portal ifb)).descriptors fd).socket =
        none := by
      by_cases hfd : fd = listenFd
      · simp [ServerHost.start, hfd, Descriptor.unused]
      · simp [ServerHost.start, Function.update_of_ne hfd, Descriptor.unused]
    cases hnone.symm.trans hsock

theorem ServerHost.Answered.step {s : ServerHost ncpu} {g : Gateway ncpu}
    (h : s.Answered cfg provider g) (e : GatewayEvent ncpu) :
    s.Answered cfg provider (g.step e) :=
  h.mono fun _ hsock a ha => (hsock a ha).step e

/-- What the gateway does keeps the invariant. -/
theorem Appliance.Inv.withGateway (h : st.Inv cfg provider) (e : GatewayEvent ncpu) :
    (st.withGateway (st.gateway.step e)).Inv cfg provider where
  server := h.server.with_maps _
  routing r i hrouting := by
    obtain ⟨env, c, rp, hdone, hi, hparty⟩ := h.routing r i hrouting
    obtain ⟨rp', hi', hparty', -⟩ := Gateway.running_step (g := st.gateway) hi e
    exact ⟨env, c, rp', hdone, hi', hparty'.trans hparty⟩
  answered := (h.answered.step e).congr (fun _ => rfl) rfl

theorem Appliance.Inv.turn (h : st.Inv cfg provider) {t : ServerTurn ncpu}
    (hkernel : KernelTurn st.server t) : (st.turn cfg provider t).Inv cfg provider := by
  rw [Appliance.turn]
  split
  · split
    · next houtside =>
      have hserver := (step_ok h.server cfg provider t hkernel).1
      cases t with
      | stop => exact ⟨hserver, h.routing, h.answered.congr (fun _ => rfl) rfl⟩
      | arrive fd i =>
        exact ⟨hserver, h.routing, h.answered.congr
          (st.server.onDescriptor_apply Descriptor.socket (fun d => d.arrive_socket i) fd) rfl⟩
      | others | epollWait | next | accept | read | write => cases houtside
    · exact h
  · next hrouting =>
    split
    · next c r hdone =>
      refine ⟨h.server, ?_, h.answered.step (.start (c.party cfg provider))⟩
      rintro r' i heq
      obtain ⟨env, _, _, _, rfl, -⟩ := ServerHost.completes_eq_some hdone
      cases heq
      exact ⟨env, c, _, hdone, List.getElem?_concat_length, rfl⟩
    · next hdone =>
      split
      · exact h
      · next hothers =>
        have hmaps : (st.server.step cfg provider t).maps = st.server.maps :=
          ServerHost.maps_step cfg provider (by rintro maps rfl; exact hothers rfl) hdone
        have hgateway : ({ st with server := st.server.step cfg provider t } : Appliance ncpu).gateway =
            st.gateway := congrArg (Gateway.mk · st.running) hmaps
        refine ⟨(step_ok h.server cfg provider t hkernel).1, ?_, ?_⟩
        · rintro r' i heq
          cases hrouting.symm.trans heq
        · rw [hgateway]
          refine ServerHost.AllSockets.step ?_ ?_ h.answered h.server cfg provider hkernel hdone
          · intro sock sock' hrouted hsock a ha
            exact hsock a (hrouted ▸ ha)
          · intro ip port a ha
            cases ha

theorem Appliance.Inv.respond (h : st.Inv cfg provider) : st.respond.Inv cfg provider := by
  rw [Appliance.respond]
  split
  · exact h
  · next r i hrouting =>
    split
    · next party text hreply =>
      obtain ⟨env, c', rp, hdone, hi, hparty⟩ := h.routing r i hrouting
      obtain ⟨fd, rest, c, sock, hcompleted⟩ := h.server.completed hdone
      obtain rfl : rp = ⟨party, .ret (.response text)⟩ := Option.some.inj (hi.symm.trans hreply)
      obtain rfl : party = c'.party cfg provider := hparty
      have hgateway : (⟨st.server.respond r text, st.running, none⟩ : Appliance ncpu).gateway =
          st.gateway := congrArg (Gateway.mk · st.running) (Appliance.maps_respond _ _ _)
      refine ⟨hcompleted.respond_ok h.server text, fun _ _ hnone => ?_, ?_⟩
      · cases hnone
      · rw [hgateway]
        refine hcompleted.respond_sockets h.answered fun a ha => ?_
        rcases List.mem_append.mp ha with ha | ha
        · exact h.answered.openAll fd sock hcompleted.serves.socket a ha
        · rw [List.mem_singleton.mp ha]
          exact ⟨i, hi⟩
    · exact h

theorem Appliance.Inv.step (h : st.Inv cfg provider) {e : ApplianceEvent ncpu}
    (hkernel : st.KernelEvent e) : (st.step cfg provider e).Inv cfg provider := by
  cases e with
  | turn t => exact h.turn hkernel
  | respond => exact h.respond
  | command cmd => exact h.withGateway (.start (.hgctl cmd))
  | call i env => exact h.withGateway (.call i env)
  | ingress env skb => exact h.withGateway (.ingress env skb)
  | egress env skb => exact h.withGateway (.egress env skb)

end

theorem Appliance.inv_run {cfg : HgConfig} {provider : AuthProvider} {listenFd : Fd}
    {portal : HgPortalCfg} {ifb : UInt32} {es : List (ApplianceEvent ncpu)}
    (hkernel : Always (Appliance.step cfg provider) Appliance.KernelEvent
      (.start listenFd portal ifb) es) :
    (run (Appliance.step cfg provider) (.start listenFd portal ifb) es).Inv cfg provider :=
  run_of_guarded (fun _ _ h hk => h.step hk) (Appliance.inv_start listenFd portal ifb) hkernel

/-! ## Responses -/

/-- What was written to the connection is the beginning of the reply to the request that was
    received on it, or there is neither. -/
def Appliance.Serves (cfg : HgConfig) (provider : AuthProvider) (st : Appliance ncpu) (sock : Socket) :
    Prop :=
  (sock.routed = [] ∧ sock.written = []) ∨
    ∃ text, (sock.received.foldl HgParser.feed .init).state = .complete ∧
      st.gateway.Replied (.request cfg provider (sock.received.foldl HgParser.feed .init).request
        (inetNtop sock.clientIp) sock.clientPort) text ∧ sock.written <+: text

theorem Appliance.serves_of_safe {cfg : HgConfig} {provider : AuthProvider} {st : Appliance ncpu}
    {sock : Socket} (hsafe : SocketSafe sock)
    (hanswered : ∀ a ∈ sock.routed, st.gateway.Replied (a.party cfg provider) a.response) :
    st.Serves cfg provider sock := by
  have hwritten := hsafe.written
  cases hrouted : sock.routed with
  | nil =>
    rw [hrouted] at hwritten
    exact .inl ⟨hrouted, List.prefix_nil.mp hwritten⟩
  | cons a rest =>
    obtain rfl : rest = [] := by
      have hone := hsafe.once
      rw [hrouted, List.length_cons] at hone
      exact List.length_eq_zero_iff.mp (by omega)
    have hmem : a ∈ sock.routed := hrouted ▸ List.mem_singleton_self a
    obtain ⟨hparser, hcomplete, hip, hport⟩ := hsafe.complete a hmem
    have hreplied := hanswered a hmem
    rw [Routing.party, hparser, hip, hport] at hreplied
    rw [hrouted] at hwritten
    exact .inr ⟨a.response, hparser ▸ hcomplete, hreplied, by simpa using hwritten⟩

/-- Over every run of the server on its gateway, whatever is written to a connection is what the
    calls for its own request came to. -/
theorem responses_are_replies (cfg : HgConfig) (provider : AuthProvider) (listenFd : Fd)
    (portal : HgPortalCfg) (ifb : UInt32) (es : List (ApplianceEvent ncpu))
    (hkernel : Always (Appliance.step cfg provider) Appliance.KernelEvent
      (.start listenFd portal ifb) es) :
    let st := run (Appliance.step cfg provider) (.start listenFd portal ifb) es
    st.server.AllSockets (st.Serves cfg provider) := by
  intro st
  have hinv : st.Inv cfg provider := Appliance.inv_run hkernel
  have hsafe := hinv.server.connectionSafe
  exact ⟨fun fd sock hsock => Appliance.serves_of_safe (hsafe.openSafe fd sock hsock)
      (hinv.answered.openAll fd sock hsock),
    fun sock hsock => Appliance.serves_of_safe (hsafe.closedSafe sock hsock)
      (hinv.answered.closedAll sock hsock)⟩

/-- A client sends a frame, connects and logs in; the first bytes of the response leave. -/
def loginVisit : List (ApplianceEvent 1) :=
  let client := Bytes.addrOfOctets 192 168 99 7
  let frame := tcpFrame (localMac 7) client (Bytes.addrOfOctets 9 9 9 9) 40000 443
  [.ingress (.good ⟨0, Nat.one_pos⟩ 0) ⟨frame, 54⟩,
    .turn (.epollWait (.ok [⟨3, true, false⟩])), .turn .next,
    .turn (.accept (.connected 7 client 40000 true true)), .turn (.accept (.failed .again)),
    .turn .next, .turn (.epollWait (.ok [⟨7, true, false⟩])), .turn .next,
    .turn (.read (.data "POST /login HTTP/1.1\r\n\r\n".toList) (.good ⟨0, 0⟩ fun _ => none))] ++
  List.replicate 21 (.call 0 ⟨.good ⟨0, 0⟩, true, true, fun _ => none⟩) ++
  [.respond, .turn .next, .turn (.epollWait (.ok [⟨7, false, true⟩])), .turn .next,
    .turn (.write (.written 18))]

theorem responses_are_replies_login :
    let st := run (Appliance.step exampleConfig localAuth) (.start 3 .standard 5) loginVisit
    st.server.AllSockets (st.Serves exampleConfig localAuth) ∧
      (st.server.descriptors 7).socket.map Socket.written = some "HTTP/1.1 302 Found".toList :=
  ⟨responses_are_replies exampleConfig localAuth 3 .standard 5 loginVisit (by decide +kernel),
    by decide +kernel⟩

/-! ## Sessions -/

/-- A frame from the MAC with the address as its source went through ingress. -/
def FrameSeen (es : List (ApplianceEvent ncpu)) : Bindings := fun ip m =>
  ∃ env skb, ApplianceEvent.ingress env skb ∈ es ∧ Frame.saddr skb.data = ip ∧
    Frame.hSource skb.data = m

theorem ipMac_exec (env : GatewayEnv) (s : HgMaps ncpu) {β : Type} (op : GatewayOp ncpu β) :
    (op.exec env s).2.ipMac = s.ipMac := by
  cases op with
  | map op => cases op <;> rfl
  | list op => cases op <;> rfl
  | host op => rfl

/-- Only a frame binds an address. -/
theorem frame_of_bound {portal : HgPortalCfg} {ifb : UInt32} {es : List (GatewayEvent ncpu)}
    {ip : IpAddr} {m : HgMacKey}
    (h : (run Gateway.step (.start ncpu portal ifb) es).maps.ipMac.lookup ip = some m) :
    ∃ env skb, GatewayEvent.ingress env skb ∈ es ∧ Frame.saddr skb.data = ip ∧
      Frame.hSource skb.data = m := by
  obtain ⟨pre, e, post, rfl, hbefore, hsince⟩ :=
    exists_cause (P := fun g : Gateway ncpu => g.maps.ipMac.lookup ip = some m)
      (fun h => by cases h) h
  have hafter := hsince [] List.nil_prefix
  rw [run_append, run_cons, run_nil] at hafter
  generalize run Gateway.step (.start ncpu portal ifb) pre = g at hbefore hafter
  cases e with
  | start party => exact absurd hafter hbefore
  | egress env skb =>
    rw [Gateway.step, ipMac_hgTcEgress] at hafter
    exact absurd hafter hbefore
  | call i env =>
    rw [Gateway.step] at hafter
    cases hi : g.running[i]? with
    | none =>
      rw [hi] at hafter
      exact absurd hafter hbefore
    | some rp =>
      obtain ⟨party, rest⟩ := rp
      rw [hi] at hafter
      cases rest with
      | ret a => exact absurd hafter hbefore
      | call op k =>
        dsimp only [Prog.advance] at hafter
        rw [ipMac_exec] at hafter
        exact absurd hafter hbefore
  | ingress env skb =>
    refine ⟨env, skb, List.mem_append_right _ List.mem_cons_self, ?_⟩
    rw [Gateway.step, ipMac_hgTcIngress] at hafter
    by_cases hre : g.maps.Rebinds env skb.data
    · rw [HgMaps.lookup_ipMac_bindFrame_of_rebinds hre] at hafter
      by_cases hip : ip = Frame.saddr skb.data
      · rw [if_pos hip] at hafter
        exact ⟨hip.symm, Option.some.inj hafter⟩
      · rw [if_neg hip] at hafter
        exact absurd hafter hbefore
    · rw [HgMaps.lookup_ipMac_bindFrame_keep hre] at hafter
      exact absurd hafter hbefore

/-- An event of the gateway under a run is the same event of the run, or a completed request. -/
theorem Appliance.of_mem_toGateway {cfg : HgConfig} {provider : AuthProvider} {st : Appliance ncpu}
    {e : ApplianceEvent ncpu} {e' : GatewayEvent ncpu} (h : e' ∈ st.toGateway cfg provider e) :
    (∃ t c r, e = .turn t ∧ st.server.completes t = some (c, r) ∧
        e' = .start (c.party cfg provider)) ∨
      (∃ cmd, e = .command cmd ∧ e' = .start (.hgctl cmd)) ∨
      (∃ i env, e = .call i env ∧ e' = .call i env) ∨
      (∃ env skb, e = .ingress env skb ∧ e' = .ingress env skb) ∨
      ∃ env skb, e = .egress env skb ∧ e' = .egress env skb := by
  cases e with
  | respond => cases h
  | command cmd => exact .inr (.inl ⟨cmd, rfl, List.mem_singleton.mp h⟩)
  | call i env => exact .inr (.inr (.inl ⟨i, env, rfl, List.mem_singleton.mp h⟩))
  | ingress env skb => exact .inr (.inr (.inr (.inl ⟨env, skb, rfl, List.mem_singleton.mp h⟩)))
  | egress env skb => exact .inr (.inr (.inr (.inr ⟨env, skb, rfl, List.mem_singleton.mp h⟩)))
  | turn t =>
    rw [toGateway] at h
    cases hrouting : st.routing with
    | some x =>
      rw [hrouting] at h
      cases h
    | none =>
      rw [hrouting] at h
      obtain ⟨⟨c, r⟩, hdone, heq⟩ := Option.map_eq_some_iff.mp (Option.mem_toList.mp h)
      exact .inl ⟨t, c, r, rfl, hdone, heq.symm⟩

/-- With this read a login that the provider accepts is complete on a connection from the
    address. -/
structure LoginArrives (provider : AuthProvider) (s : ServerHost ncpu) (r : ReadResult)
    (ip : IpAddr) (req : HttpRequest) : Prop where
  connection : ∃ fd rest sock, s.point = .reading fd rest ∧
    (s.descriptors fd).socket = some sock ∧ sock.clientIp = ip ∧
    ((sock.received ++ r.chunks).foldl HgParser.feed .init).state = .complete ∧
    ((sock.received ++ r.chunks).foldl HgParser.feed .init).request = req
  path : req.path = "/login".toList
  accepted : (provider (loginCredentials req (inetNtop ip))).success = true

theorem AddArgs.Names.mono {a : AddArgs} {B B' : Bindings} {m : HgMacKey} (h : a.Names B m)
    (hB : ∀ ip m, B ip m → B' ip m) : a.Names B' m := by
  unfold AddArgs.Names at h ⊢
  cases hmac : a.mac with
  | some mac =>
    rw [hmac] at h
    exact h
  | none =>
    rw [hmac] at h
    obtain ⟨text, ip, htext, hip, hbound⟩ := h
    exact ⟨text, ip, htext, hip, hB ip m hbound⟩

/-- The read that completes a request from which a client is logged in completes a login. -/
theorem ServerInv.loginArrives {s : ServerHost ncpu} (h : ServerInv s) {t : ServerTurn ncpu}
    {c : HgConnection} {r : ReadResult} (hdone : s.completes t = some (c, r))
    {provider : AuthProvider} {B : Bindings} {m : HgMacKey}
    (hlogin : LoginFrom B provider c.parser.request c.clientIp m) :
    ∃ ip, LoginArrives provider s r ip c.parser.request ∧ c.clientIp = inetNtop ip ∧ B ip m := by
  obtain ⟨fd, rest, c₀, sock, hcompleted⟩ := h.completed hdone
  obtain ⟨hparser, hclient, -⟩ := hcompleted.request
  obtain ⟨hpath, haccepted, ip, hip, hbound⟩ := hlogin
  have haddr : ip = sock.clientIp := by
    rw [hclient, cStr_inetNtop, inetPton_inetNtop] at hip
    exact (Option.some.inj hip).symm
  subst haddr
  refine ⟨sock.clientIp, ⟨⟨fd, rest, sock, hcompleted.point, hcompleted.serves.socket, rfl, ?_, ?_⟩,
    hpath, hclient ▸ haccepted⟩, hclient, hbound⟩
  · have hcomplete := hcompleted.complete
    rwa [hparser] at hcomplete
  · rw [hparser]
    rfl

/-- A step of the appliance is at most one of its gateway. -/
theorem Appliance.length_toGateway (cfg : HgConfig) (provider : AuthProvider) (st : Appliance ncpu)
    (e : ApplianceEvent ncpu) : (st.toGateway cfg provider e).length ≤ 1 := by
  cases e with
  | turn t =>
    rw [toGateway]
    split
    · exact Nat.zero_le 1
    · exact Option.length_toList_le
  | respond => exact Nat.zero_le 1
  | command | call | ingress | egress => exact Nat.le_refl 1

/-- Only a command starts a command and only a completed request a request. -/
theorem Appliance.started_of_mem {cfg : HgConfig} {provider : AuthProvider} {st : Appliance ncpu}
    {e : ApplianceEvent ncpu} {party : Party} (h : .start party ∈ st.toGateway cfg provider e) :
    (∃ t c r, e = .turn t ∧ st.server.completes t = some (c, r) ∧ party = c.party cfg provider) ∨
      ∃ cmd, e = .command cmd ∧ party = .hgctl cmd := by
  rcases Appliance.of_mem_toGateway h with ⟨t, c, r, rfl, hdone, hparty⟩ | ⟨cmd, rfl, hparty⟩ |
    ⟨_, _, -, ⟨⟩⟩ | ⟨_, _, -, ⟨⟩⟩ | ⟨_, _, -, ⟨⟩⟩
  · exact .inl ⟨t, c, r, rfl, hdone, GatewayEvent.start.inj hparty⟩
  · exact .inr ⟨cmd, rfl, GatewayEvent.start.inj hparty⟩

/-- The bindings of the gateway come from frames of the run. -/
theorem frameSeen_of_boundDuring {cfg : HgConfig} {provider : AuthProvider} {listenFd : Fd}
    {portal : HgPortalCfg} {ifb : UInt32} {es : List (ApplianceEvent ncpu)} {ip : IpAddr}
    {m : HgMacKey}
    (h : BoundDuring (.start ncpu portal ifb) (emitted (Appliance.step cfg provider)
      (Appliance.toGateway cfg provider) (.start listenFd portal ifb) es) ip m) :
    FrameSeen es ip m := by
  obtain ⟨early, hearly, hbound⟩ := h
  obtain ⟨env, skb, hframe, hip, hm⟩ := frame_of_bound hbound
  obtain ⟨pre, e, post, rfl, he⟩ := exists_of_mem_emitted (hearly.subset hframe)
  obtain ⟨_, _, _, -, -, ⟨⟩⟩ | ⟨_, -, ⟨⟩⟩ | ⟨_, _, -, ⟨⟩⟩ | ⟨_, _, rfl, ⟨⟩⟩ | ⟨_, _, -, ⟨⟩⟩ :=
    Appliance.of_mem_toGateway he
  exact ⟨env, skb, List.mem_append_right _ List.mem_cons_self, hip, hm⟩

/-- In this state a call of the party writes the session of the client, and nothing that follows
    ends it. -/
structure Appliance.WritesSession (cfg : HgConfig) (provider : AuthProvider) (st : Appliance ncpu)
    (i : Nat) (env : GatewayEnv) (post : List (ApplianceEvent ncpu)) (party : Party)
    (m : HgMacKey) : Prop where
  caller : ∃ rest, st.running[i]? = some ⟨party, rest⟩
  writes : st.gateway.Grants (.call i env) (.session m)
  kept : Always Gateway.step (fun g e => ¬ g.Revokes e (.session m))
    (st.step cfg provider (.call i env)).gateway
    (emitted (Appliance.step cfg provider) (Appliance.toGateway cfg provider)
      (st.step cfg provider (.call i env)) post)

/-- Over every run of the server on its gateway, the session of a client was written by a call of an
    add for the client, or of a login that the provider accepted: its bytes came on a connection
    from an address that a frame of the client had before that call. -/
theorem session_has_login (cfg : HgConfig) (provider : AuthProvider) (listenFd : Fd)
    (portal : HgPortalCfg) (ifb : UInt32) (es : List (ApplianceEvent ncpu))
    (hkernel : Always (Appliance.step cfg provider) Appliance.KernelEvent
      (.start listenFd portal ifb) es) (m : HgMacKey)
    (hsession : (run (Appliance.step cfg provider)
      (.start listenFd portal ifb) es).server.maps.permits (.session m) = true) :
    ∃ pre i env post party, es = pre ++ .call i env :: post ∧
      (run (Appliance.step cfg provider) (.start listenFd portal ifb) pre).WritesSession cfg provider
        i env post party m ∧
      ((∃ opts a, .command (.add opts) ∈ pre ∧ party = .hgctl (.add opts) ∧
          parseAdd opts = some a ∧ a.Names (FrameSeen pre) m) ∨
        ∃ early r env' late ip req port, pre = early ++ .turn (.read r env') :: late ∧
          LoginArrives provider
            (run (Appliance.step cfg provider) (.start listenFd portal ifb) early).server r ip req ∧
          party = .request cfg provider req (inetNtop ip) port ∧ FrameSeen pre ip m) := by
  have hgateway := Appliance.gateway_run cfg provider (.start listenFd portal ifb : Appliance ncpu)
  have hpermits : (run Gateway.step (.start ncpu portal ifb)
      (emitted (Appliance.step cfg provider) (Appliance.toGateway cfg provider)
        (.start listenFd portal ifb) es)).maps.permits (.session m) = true := by
    rw [← hsession]
    exact congrArg (fun g : Gateway ncpu => g.maps.permits (.session m)) (hgateway es).symm
  obtain ⟨before, i, env, after, ⟨party, rest⟩, hsplit, hstart, hcaller, hauth, hgrants, hkept⟩ :=
    (permits_iff_granted portal ifb _ _).mp hpermits
  -- the granting call is one of the appliance
  obtain ⟨pre, e, post, rfl, rfl, hcall, rfl⟩ :=
    exists_split_of_emitted (Appliance.length_toGateway cfg provider) hsplit
  obtain ⟨_, _, _, -, -, ⟨⟩⟩ | ⟨_, -, ⟨⟩⟩ | ⟨_, _, rfl, ⟨⟩⟩ | ⟨_, _, -, ⟨⟩⟩ | ⟨_, _, -, ⟨⟩⟩ :=
    Appliance.of_mem_toGateway hcall
  have hseen : ∀ ip m, BoundDuring (.start ncpu portal ifb) (emitted (Appliance.step cfg provider)
      (Appliance.toGateway cfg provider) (.start listenFd portal ifb) pre) ip m →
      FrameSeen pre ip m := fun ip m => frameSeen_of_boundDuring
  have hstate : run Gateway.step (.start ncpu portal ifb) (emitted (Appliance.step cfg provider)
      (Appliance.toGateway cfg provider) (.start listenFd portal ifb) pre) =
      (run (Appliance.step cfg provider) (.start listenFd portal ifb) pre).gateway :=
    (hgateway pre).symm
  have hlast : (run (Appliance.step cfg provider) (.start listenFd portal ifb : Appliance ncpu)
      (pre ++ [.call i env])) = (run (Appliance.step cfg provider)
        (.start listenFd portal ifb) pre).step cfg provider (.call i env) := by
    rw [run_append, run_cons, run_nil]
  rw [hstate] at hcaller hgrants
  rw [run_append, hstate, run_cons, run_nil, hlast] at hkept
  refine ⟨pre, i, env, post, party, rfl, ⟨⟨rest, hcaller⟩, hgrants, hkept⟩, ?_⟩
  obtain ⟨early, e, late, rfl, he⟩ := exists_of_mem_emitted hstart
  rcases Appliance.started_of_mem he with ⟨t, c, r, rfl, hdone, rfl⟩ | ⟨cmd, rfl, rfl⟩
  · right
    obtain ⟨env', _, _, _, rfl, -⟩ := ServerHost.completes_eq_some hdone
    have hbefore : Always (Appliance.step cfg provider) Appliance.KernelEvent
        (.start listenFd portal ifb) early := by
      rw [List.append_assoc] at hkernel
      exact ((always_append _ _ early _).mp hkernel).1
    have hinv := Appliance.inv_run hbefore
    obtain ⟨ip, harrives, hclient, hbound⟩ := hinv.server.loginArrives hdone hauth
    refine ⟨early, r, env', late, ip, c.parser.request, c.clientPort, rfl, harrives, ?_, ?_⟩
    · rw [HgConnection.party, hclient]
    · exact hseen ip m hbound
  · left
    cases cmd with
    | add opts =>
      obtain ⟨a, ha, hnames⟩ := hauth
      exact ⟨opts, a, List.mem_append_right _ List.mem_cons_self, rfl, ha, hnames.mono hseen⟩
    | del | mapDel | proto | bypassAdd | bypassDel | wgAdd | wgDel | showClients | details | help =>
      exact hauth.elim

theorem session_has_login_visit :
    ∃ pre i env post party, loginVisit = pre ++ .call i env :: post ∧
      (run (Appliance.step exampleConfig localAuth) (.start 3 .standard 5) pre).WritesSession
        exampleConfig localAuth i env post party (localMac 7) ∧
      ∃ early r env' late ip req port, pre = early ++ .turn (.read r env') :: late ∧
        LoginArrives localAuth (run (Appliance.step exampleConfig localAuth)
          (.start 3 .standard 5) early).server r ip req ∧
        party = .request exampleConfig localAuth req (inetNtop ip) port ∧
        FrameSeen pre ip (localMac 7) := by
  obtain ⟨pre, i, env, post, party, hsplit, hwrites, hadd | hlogin⟩ :=
    session_has_login exampleConfig localAuth 3 .standard 5 loginVisit (by decide +kernel)
      (localMac 7) (by decide +kernel)
  · -- no command runs in the visit
    obtain ⟨opts, a, hmem, -⟩ := hadd
    have hvisit : ApplianceEvent.command (.add opts) ∈ loginVisit := by
      rw [hsplit]
      exact List.mem_append_left _ hmem
    simp [loginVisit] at hvisit
  · exact ⟨pre, i, env, post, party, hsplit, hwrites, hlogin⟩

end HawkGate
