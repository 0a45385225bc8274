-- SUMMARY: The gateway with its HTTP server: turns of the event loop, calls, commands and packets, interleaved.
import HawkGate.Daemon.Server
import HawkGate.System.Gateway

/-!
# The appliance

The event loop of `hg_server.cpp` takes one turn after another until a request is
complete. Then it is inside `route`, whose calls are those of a party of the
gateway; packets and commands go on in between. The loop goes on with the answer
of the party. What the read that completed the request does to its connection is
done together with the answer: until then nobody else looks at the connection.
-/

namespace HawkGate

open CString Transition

variable {ncpu : Nat}

/-! ## Reads that complete a request -/

/-- The connection as `on_readable` leaves it and what was read, if the request is complete now. -/
def ServerHost.completes (s : ServerHost ncpu) : ServerTurn ncpu → Option (HgConnection × ReadResult)
  | .read r _ =>
    match s.point with
    | .reading fd _ =>
      (s.connections fd).bind fun c =>
        if (c.onReadable r).2 = false ∧ (c.onReadable r).1.state = .writing then
          some ((c.onReadable r).1, r)
        else none
    | _ => none
  | _ => none

/-- The rest of the turn, when `route` has returned. -/
def ServerHost.respond (s : ServerHost ncpu) (r : ReadResult) (response : List Char) :
    ServerHost ncpu :=
  match s.point with
  | .reading fd rest =>
    match s.connections fd with
    | none => s
    | some c =>
      let s := s.onDescriptor c.fd fun d =>
        (d.attempt .input r.blocked).onSocket fun sock => sock.receive r.chunks
      let c := (c.onReadable r).1
      let s := s.onDescriptor c.fd fun d =>
        d.onSocket fun sock => sock.route ⟨c.parser, c.clientIp, c.clientPort, response⟩
      let s := s.setConnection fd (some (c.queueResponse response))
      { s.onDescriptor fd fun d => d.register .output with point := .batch rest }
  | _ => s

theorem ServerHost.completes_eq_some {s : ServerHost ncpu} {t : ServerTurn ncpu}
    {c' : HgConnection} {r : ReadResult} (h : s.completes t = some (c', r)) :
    ∃ env fd rest c, t = .read r env ∧ s.point = .reading fd rest ∧ s.connections fd = some c ∧
      c.onReadable r = (c', false) ∧ c'.state = .writing := by
  unfold completes at h
  cases t with
  | read r' env =>
    cases hpoint : s.point with
    | reading fd rest =>
      simp only [hpoint] at h
      obtain ⟨c, hc, hif⟩ := Option.bind_eq_some_iff.mp h
      split at hif
      · next hdone =>
        cases hif
        exact ⟨env, fd, rest, c, rfl, rfl, hc, Prod.ext rfl hdone.1, hdone.2⟩
      · cases hif
    | waiting | batch | accepting | writing | stopped => simp [hpoint] at h
  | stop | others | arrive | epollWait | next | accept | write => cases h

/-- If nothing happens in between, the answer is that of `route` on the maps. -/
theorem ServerHost.step_of_completes {s : ServerHost ncpu} {c : HgConnection} {r : ReadResult}
    {env : DaemonEnv} (cfg : HgConfig) (provider : AuthProvider)
    (h : s.completes (.read r env) = some (c, r)) :
    s.step cfg provider (.read r env) =
      let answer := (route cfg provider c.parser.request c.clientIp c.clientPort).run env s.maps
      { s.respond r answer.1 with maps := answer.2 } := by
  obtain ⟨_, fd, rest, c₀, -, hpoint, hc₀, hread, hstate⟩ := completes_eq_some h
  simp only [ServerHost.step, hpoint, hc₀, readTurn, hread, respond, finishReadable, hstate,
    Bool.false_eq_true, if_false]
  simp [onDescriptor, setConnection]

section
variable (s : ServerHost ncpu) (fd : Fd)

theorem ServerHost.maps_close : (s.close fd).maps = s.maps := by
  unfold close
  split
  · rfl
  · rfl

theorem ServerHost.maps_removeConnection : (s.removeConnection fd).maps = s.maps := by
  unfold removeConnection
  dsimp only
  split
  · rfl
  · exact maps_close _ _

theorem ServerHost.maps_finishWritable (c : HgConnection) :
    (s.finishWritable fd c).maps = s.maps := by
  unfold finishWritable
  cases c.state with
  | closed => exact s.maps_removeConnection fd
  | reading | writing => rfl

theorem ServerHost.maps_startWritable (rest : List EpollEvent) (c : HgConnection) :
    (s.startWritable fd rest c).maps = s.maps := by
  unfold startWritable
  dsimp only
  split
  · rfl
  · exact maps_finishWritable _ fd _

theorem ServerHost.maps_writeTurn (rest : List EpollEvent) (c : HgConnection) (r : WriteResult) :
    (s.writeTurn fd rest c r).maps = s.maps := by
  unfold writeTurn
  dsimp only
  split
  · rfl
  · exact maps_finishWritable _ fd _

theorem ServerHost.maps_acceptTurn (rest : List EpollEvent) (r : AcceptResult) :
    (s.acceptTurn rest r).maps = s.maps := by
  cases r with
  | failed e => rfl
  | connected fd ip port fcntlOk addOk =>
    unfold acceptTurn
    dsimp only
    split
    · unfold addConnection
      split
      · rfl
      · exact maps_close _ _
    · exact maps_close _ fd

theorem ServerHost.maps_dispatch (ev : EpollEvent) (rest : List EpollEvent) :
    (s.dispatch ev rest).maps = s.maps := by
  unfold dispatch
  split
  · rfl
  · cases s.connections ev.fd with
    | none => rfl
    | some c =>
      dsimp only
      split
      · rfl
      · split
        · exact s.maps_startWritable ev.fd rest c
        · rfl

end

/-- A turn that completes no request leaves the maps alone. -/
theorem ServerHost.maps_step {s : ServerHost ncpu} {t : ServerTurn ncpu} (cfg : HgConfig)
    (provider : AuthProvider) (hothers : ∀ maps, t ≠ .others maps) (h : s.completes t = none) :
    (s.step cfg provider t).maps = s.maps := by
  cases t with
  | others maps => exact absurd rfl (hothers maps)
  | stop | arrive => rfl
  | epollWait r =>
    unfold step
    cases s.point with
    | waiting =>
      cases r with
      | ok evs => rfl
      | error e =>
        dsimp only
        split
        · rfl
        · rfl
    | batch | accepting | reading | writing | stopped => rfl
  | next =>
    unfold step
    cases s.point with
    | batch evs =>
      cases evs with
      | nil => rfl
      | cons ev rest => exact s.maps_dispatch ev rest
    | waiting | accepting | reading | writing | stopped => rfl
  | accept r =>
    unfold step
    cases s.point with
    | accepting rest => exact s.maps_acceptTurn rest r
    | waiting | batch | reading | writing | stopped => rfl
  | write r =>
    unfold step
    cases s.point with
    | writing fd rest =>
      dsimp only
      cases s.connections fd with
      | none => rfl
      | some c => exact s.maps_writeTurn fd rest c r
    | waiting | batch | accepting | reading | stopped => rfl
  | read r env =>
    unfold step
    unfold completes at h
    cases hpoint : s.point with
    | reading fd rest =>
      simp only [hpoint] at h
      dsimp only
      cases hc : s.connections fd with
      | none => rfl
      | some c =>
        rw [hc, Option.bind_some] at h
        dsimp only
        unfold readTurn
        dsimp only
        split
        · rfl
        · next hgoes =>
          cases hstate : (c.onReadable r).1.state with
          | writing => simp [hgoes, hstate] at h
          | closed =>
            simp only [finishReadable, hstate]
            exact maps_removeConnection _ fd
          | reading => simp only [finishReadable, hstate]; rfl
    | waiting | batch | accepting | writing | stopped => rfl

/-! ## The appliance -/

/-- `route` for the request of the connection, as a party of the gateway. -/
def HgConnection.party (c : HgConnection) (cfg : HgConfig) (provider : AuthProvider) : Party :=
  .request cfg provider c.parser.request c.clientIp c.clientPort

/-- What can happen to the server while it is inside `route`. -/
def ServerTurn.fromOutside : ServerTurn ncpu → Bool
  | .stop | .arrive _ _ => true
  | _ => false

/-- The turn stands for other parties, which are events of their own here. -/
def ServerTurn.ofOthers : ServerTurn ncpu → Bool
  | .others _ => true
  | _ => false

structure Appliance (ncpu : Nat) where
  server : ServerHost ncpu
  running : List (RunningParty ncpu)
  /-- While the loop is inside `route`: the last read, and the party that makes the calls. -/
  routing : Option (ReadResult × Nat)

inductive ApplianceEvent (ncpu : Nat) where
  | turn (t : ServerTurn ncpu)
  /-- `route` returns to the loop. -/
  | respond
  | command (cmd : HgctlCommand)
  | call (i : Nat) (env : GatewayEnv)
  | ingress (env : BpfEnv ncpu) (skb : SkBuff)
  | egress (env : BpfEnv ncpu) (skb : SkBuff)

namespace Appliance

def start (listenFd : Fd) (portal : HgPortalCfg) (ifb : UInt32) : Appliance ncpu where
  server := .start listenFd (.start ncpu portal ifb)
  running := []
  routing := none

variable (cfg : HgConfig) (provider : AuthProvider) (st : Appliance ncpu)

/-- The gateway under the server. -/
def gateway : Gateway ncpu := ⟨st.server.maps, st.running⟩

/-- The gateway goes on, and the server stays where it is. -/
def withGateway (g : Gateway ncpu) : Appliance ncpu :=
  { st with server := { st.server with maps := g.maps }, running := g.running }

/-- A turn of the event loop. -/
def turn (t : ServerTurn ncpu) : Appliance ncpu :=
  match st.routing with
  | some _ => if t.fromOutside then { st with server := st.server.step cfg provider t } else st
  | none =>
    match st.server.completes t with
    | some (c, r) =>
      { st with
        running := st.running ++ [⟨c.party cfg provider, (c.party cfg provider).prog⟩]
        routing := some (r, st.running.length) }
    | none => if t.ofOthers then st else { st with server := st.server.step cfg provider t }

/-- The loop takes the answer of the party, once there is one. -/
def respond : Appliance ncpu :=
  match st.routing with
  | none => st
  | some (r, i) =>
    match st.running[i]? with
    | some ⟨_, .ret (.response text)⟩ =>
      { st with server := st.server.respond r text, routing := none }
    | _ => st

def step : ApplianceEvent ncpu → Appliance ncpu
  | .turn t => st.turn cfg provider t
  | .respond => st.respond
  | .command cmd => st.withGateway (st.gateway.step (.start (.hgctl cmd)))
  | .call i env => st.withGateway (st.gateway.step (.call i env))
  | .ingress env skb => st.withGateway (st.gateway.step (.ingress env skb))
  | .egress env skb => st.withGateway (st.gateway.step (.egress env skb))

/-! ## The gateway under the server -/

/-- What an event is to the gateway: a completed request starts a party. -/
def toGateway : ApplianceEvent ncpu → List (GatewayEvent ncpu)
  | .turn t =>
    match st.routing with
    | some _ => []
    | none => ((st.server.completes t).map fun x => .start (x.1.party cfg provider)).toList
  | .respond => []
  | .command cmd => [.start (.hgctl cmd)]
  | .call i env => [.call i env]
  | .ingress env skb => [.ingress env skb]
  | .egress env skb => [.egress env skb]

theorem maps_respond (s : ServerHost ncpu) (r : ReadResult) (text : List Char) :
    (s.respond r text).maps = s.maps := by
  unfold ServerHost.respond
  split
  · split
    · rfl
    · rfl
  · rfl

/-- A step of the appliance is a step of the gateway under it, or none. -/
theorem gateway_step (e : ApplianceEvent ncpu) :
    (st.step cfg provider e).gateway = run Gateway.step st.gateway (st.toGateway cfg provider e) := by
  cases e with
  | command | call | ingress | egress => rfl
  | respond =>
    rw [step, respond]
    split
    · rfl
    · split
      · exact congrArg (Gateway.mk · st.running) (maps_respond _ _ _)
      · rfl
  | turn t =>
    rw [step, turn, toGateway]
    cases st.routing with
    | some routing =>
      dsimp only
      split
      · next houtside =>
        cases t with
        | stop | arrive => rfl
        | others | epollWait | next | accept | read | write => cases houtside
      · rfl
    | none =>
      dsimp only
      cases hcompletes : st.server.completes t with
      | some x => rfl
      | none =>
        dsimp only
        split
        · rfl
        · next hothers =>
          refine congrArg (Gateway.mk · st.running) (ServerHost.maps_step cfg provider ?_ hcompletes)
          rintro maps rfl
          exact hothers rfl

/-- The gateway under a run of the appliance has a run of its own. -/
theorem gateway_run (es : List (ApplianceEvent ncpu)) :
    (run (step cfg provider) st es).gateway =
      run Gateway.step st.gateway (emitted (step cfg provider) (toGateway cfg provider) st es) :=
  project_run (gateway_step cfg provider) st es

/-! ## Requests without interruption -/

theorem respond_with_maps (s : ServerHost ncpu) (maps : HgMaps ncpu) (r : ReadResult)
    (text : List Char) :
    ({ s with maps := maps } : ServerHost ncpu).respond r text =
      { s.respond r text with maps := maps } := by
  unfold ServerHost.respond
  dsimp only
  split
  · split
    · rfl
    · rfl
  · rfl

theorem run_calls (i : Nat) (env : GatewayEnv) (n : Nat) :
    run (step cfg provider) st (List.replicate n (.call i env)) =
      st.withGateway (run Gateway.step st.gateway (List.replicate n (.call i env))) := by
  induction n generalizing st with
  | zero => rfl
  | succ n ih =>
    rw [List.replicate_succ, List.replicate_succ, run_cons, run_cons, ih]
    rfl

/-- With nothing in between, the turn, the calls and the return together are the turn of the
    server. -/
theorem run_uninterrupted {c : HgConnection} {r : ReadResult} {env : GatewayEnv}
    (hrouting : st.routing = none)
    (hdone : st.server.completes (.read r env.daemon) = some (c, r)) :
    ∃ n party, run (step cfg provider) st
        (.turn (.read r env.daemon) ::
          (List.replicate n (.call st.running.length env) ++ [.respond])) =
      { server := st.server.step cfg provider (.read r env.daemon)
        running := st.running ++ [party]
        routing := none } := by
  have hturn : st.step cfg provider (.turn (.read r env.daemon)) =
      { server := st.server
        running := st.running ++ [⟨c.party cfg provider, (c.party cfg provider).prog⟩]
        routing := some (r, st.running.length) } := by
    rw [step, turn, hrouting, hdone]
  obtain ⟨n, hn⟩ := run_replicate_call env (c.party cfg provider).prog
    (g := ⟨st.server.maps, st.running ++ [⟨c.party cfg provider, (c.party cfg provider).prog⟩]⟩)
    (i := st.running.length) List.getElem?_concat_length
  have hrun : (c.party cfg provider).prog.run env st.server.maps =
      (.response ((route cfg provider c.parser.request c.clientIp c.clientPort).run env.daemon
          st.server.maps).1,
        ((route cfg provider c.parser.request c.clientIp c.clientPort).run env.daemon
          st.server.maps).2) := by
    rw [← run_calls_daemon]
    exact Prog.run_bind _ _
  rw [hrun] at hn
  rw [ServerHost.step_of_completes cfg provider hdone]
  generalize (route cfg provider c.parser.request c.clientIp c.clientPort).run env.daemon
    st.server.maps = answer at hn ⊢
  refine ⟨n, ⟨c.party cfg provider, .ret (.response answer.1)⟩, ?_⟩
  have hset : ∀ x y : RunningParty ncpu, (st.running ++ [x]).set st.running.length y =
      st.running ++ [y] := by simp
  rw [run_cons, hturn, run_append, run_calls, gateway, hn, withGateway, run_cons, run_nil, step]
  dsimp only
  rw [hset, respond]
  dsimp only
  rw [List.getElem?_concat_length]
  dsimp only
  rw [respond_with_maps]

end Appliance

end HawkGate
