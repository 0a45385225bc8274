-- SUMMARY: Whether the event loop uses up what an edge reported, so that nothing is left without another edge.
import HawkGate.Guarantees.ConnectionSafety

/-!
# Edge-triggered readiness

Under `EPOLLET` a descriptor is reported once for what has arrived. A handler
that returns with the registration unchanged must therefore have seen its last
call block. The handlers of connections do; the one that accepts also stops at
other errors, and readiness is kept exactly in the runs without such an error.
-/

namespace HawkGate

open CString Transition

variable {ncpu : Nat}

/-! ## The property -/

/-- The descriptor whose handler runs in a turn. -/
def ServerHost.handled (s : ServerHost ncpu) (t : ServerTurn ncpu) : Option Fd :=
  match s.point, t with
  | .batch (ev :: _), .next =>
    if ev.fd = s.listenFd ∨ ev.input = true ∨ ev.output = true then some ev.fd else none
  | .accepting _, .accept _ => some s.listenFd
  | .reading fd _, .read _ _ => some fd
  | .writing fd _, .write _ => some fd
  | _, _ => none

/-- No handler is running. -/
def LoopPoint.Outside : LoopPoint → Prop
  | .waiting | .batch _ | .stopped => True
  | .accepting _ | .reading _ _ | .writing _ _ => False

/-- The call of the turn returned `EAGAIN` or `EWOULDBLOCK`. -/
def ServerTurn.Blocked : ServerTurn ncpu → Prop
  | .accept (.failed e) | .read (.failed e) _ | .write (.failed e) => e.blocks = true
  | _ => False

/-- A handler that returns and leaves its descriptor registered as it was has just seen its
    call block. -/
def HandlerDrains (t : ServerTurn ncpu) (s s' : ServerHost ncpu) : Prop :=
  ∀ fd ∈ s.handled t, s'.point.Outside → ∀ i ∈ (s.descriptors fd).interest,
    (s'.descriptors fd).interest = some i → t.Blocked

/-- Whatever the descriptor is registered and ready for will be reported. -/
def Descriptor.Quiet (d : Descriptor) : Prop := ∀ i ∈ d.interest, d.ready i = true → d.edge = true

/-- An event that is left reports what the descriptor is registered for. -/
def Reported (rest : List EpollEvent) (fd : Fd) (d : Descriptor) : Prop :=
  ∃ ev ∈ rest, ev.fd = fd ∧ ∀ i ∈ d.interest, ev.reports i = true

/-- The descriptor is being handled, or an event that is left reports it. -/
def InHand (listenFd : Fd) (p : LoopPoint) (fd : Fd) (d : Descriptor) : Prop :=
  match p with
  | .waiting | .stopped => False
  | .batch rest => Reported rest fd d
  | .accepting rest => fd = listenFd ∨ Reported rest fd d
  | .reading k rest | .writing k rest => fd = k ∨ Reported rest fd d

/-- Nothing that a descriptor is registered and ready for is left without an edge, unless the
    event loop has it in hand. -/
def NoLostEdge (s : ServerHost ncpu) : Prop :=
  ∀ fd, InHand s.listenFd s.point fd (s.descriptors fd) ∨ (s.descriptors fd).Quiet

/-- The turn loses no readiness. -/
def ReadinessKept (cfg : HgConfig) (provider : AuthProvider) (s : ServerHost ncpu)
    (t : ServerTurn ncpu) : Prop :=
  HandlerDrains t s (s.step cfg provider t) ∧ NoLostEdge (s.step cfg provider t)

/-- Descriptors are reported for what they are registered and ready for. -/
def ReportsReady (s : ServerHost ncpu) : ServerTurn ncpu → Prop
  | .epollWait (.ok evs) => ∀ ev ∈ evs, ∀ i ∈ (s.descriptors ev.fd).interest,
      (s.descriptors ev.fd).ready i = true → ev.reports i = true
  | _ => True

instance (s : ServerHost ncpu) : (t : ServerTurn ncpu) → Decidable (ReportsReady s t)
  | .epollWait (.ok evs) => inferInstanceAs (Decidable (∀ ev ∈ evs, _))
  | .epollWait (.error _) | .accept _ | .stop | .others _ | .arrive .. | .next | .read ..
  | .write _ => inferInstanceAs (Decidable True)

/-- A call of `accept` fails only because it would block. -/
def AcceptDrained (s : ServerHost ncpu) (t : ServerTurn ncpu) : Prop :=
  match s.point, t with
  | .accepting _, .accept (.failed e) => e.blocks = true
  | _, _ => True

instance (s : ServerHost ncpu) (t : ServerTurn ncpu) : Decidable (AcceptDrained s t) := by
  unfold AcceptDrained
  split
  all_goals infer_instance

/-! ## Descriptors -/

theorem quiet_unused : Descriptor.unused.Quiet := by
  rintro i ⟨⟩

theorem quiet_register (d : Descriptor) (i : Interest) : (d.register i).Quiet := by
  rintro j hj hready
  obtain rfl := Option.some.inj hj
  exact hready

/-- A call that blocks leaves nothing to report. -/
theorem quiet_attempt {d : Descriptor} {i : Interest} (hi : d.interest = some i) :
    (d.attempt i true).Quiet := by
  rintro j hj hready
  obtain rfl := Option.some.inj (hi.symm.trans hj)
  simp [Descriptor.attempt] at hready

theorem Descriptor.Quiet.arrive {d : Descriptor} (h : d.Quiet) (i : Interest) :
    (d.arrive i).Quiet := by
  intro j hj hready
  have hj' : d.interest = some j := hj
  by_cases hij : j = i
  · simp [Descriptor.arrive, hj', hij]
  · have hready' : d.ready j = true := by simpa [Descriptor.arrive, hij] using hready
    simp [Descriptor.arrive, h j hj' hready']

theorem Reported.congr {rest : List EpollEvent} {fd : Fd} {d d' : Descriptor}
    (h : Reported rest fd d) (hinterest : d'.interest = d.interest) : Reported rest fd d' := by
  obtain ⟨ev, hev, hfd, hreports⟩ := h
  exact ⟨ev, hev, hfd, hinterest ▸ hreports⟩

theorem Reported.cons {ev : EpollEvent} {rest : List EpollEvent} {fd : Fd} {d : Descriptor}
    (h : Reported (ev :: rest) fd d) :
    (ev.fd = fd ∧ ∀ i ∈ d.interest, ev.reports i = true) ∨ Reported rest fd d := by
  obtain ⟨ev', hev', hreports⟩ := h
  rcases List.mem_cons.mp hev' with rfl | hmem
  · exact .inl hreports
  · exact .inr ⟨ev', hmem, hreports⟩

theorem InHand.congr {listenFd : Fd} {p : LoopPoint} {fd : Fd} {d d' : Descriptor}
    (h : InHand listenFd p fd d) (hinterest : d'.interest = d.interest) :
    InHand listenFd p fd d' := by
  cases p with
  | waiting | stopped => exact h
  | batch rest => exact Reported.congr h hinterest
  | accepting rest | reading k rest | writing k rest => exact Or.imp_right (·.congr hinterest) h

/-- A step that changes one slot, after which its descriptor is in order, keeps the readiness of
    the others if it keeps them in hand. -/
theorem NoLostEdge.slot {s s' : ServerHost ncpu} (h : NoLostEdge s) {fd : Fd} {d : Descriptor}
    (hlisten : s'.listenFd = s.listenFd)
    (hdescriptors : s'.descriptors = Function.update s.descriptors fd d)
    (hfd : InHand s.listenFd s'.point fd d ∨ d.Quiet)
    (hhand : ∀ k, k ≠ fd → InHand s.listenFd s.point k (s.descriptors k) →
      InHand s.listenFd s'.point k (s.descriptors k)) : NoLostEdge s' := by
  intro k
  rw [hlisten, hdescriptors]
  by_cases hk : k = fd
  · rw [hk, Function.update_self]
    exact hfd
  · rw [Function.update_of_ne hk]
    exact (h k).imp_left (hhand k hk)

/-! ## The handlers -/

section
variable {s s' : ServerHost ncpu} {t : ServerTurn ncpu} {fd : Fd} {rest : List EpollEvent}
  {c : HgConnection}

theorem handlerDrains_of_unhandled (h : s.handled t = none) : HandlerDrains t s s' := by
  intro k hk
  rw [h] at hk
  cases hk

theorem handlerDrains_of_inside (h : ¬ s'.point.Outside) : HandlerDrains t s s' :=
  fun _ _ houtside => absurd houtside h

/-- A handler that changes the registration need not drain its descriptor. -/
theorem handlerDrains_of_changed (hhandled : ∀ k ∈ s.handled t, k = fd)
    (h : ∀ i ∈ (s.descriptors fd).interest, (s'.descriptors fd).interest ≠ some i) :
    HandlerDrains t s s' := by
  intro k hk _ i hi hsame
  obtain rfl := hhandled k hk
  exact absurd hsame (h i hi)

/-- Closing the descriptor of a handler loses no readiness. -/
theorem NoLostEdge.drop (hedge : NoLostEdge s) (hhandled : ∀ k ∈ s.handled t, k = fd)
    (sock : Socket) {p : LoopPoint}
    (hhand : ∀ k, k ≠ fd → InHand s.listenFd s.point k (s.descriptors k) →
      InHand s.listenFd p k (s.descriptors k)) :
    HandlerDrains t s (s.drop fd sock p) ∧ NoLostEdge (s.drop fd sock p) := by
  refine ⟨handlerDrains_of_changed hhandled fun i _ => ?_,
    hedge.slot rfl rfl (.inr quiet_unused) hhand⟩
  simp [ServerHost.drop, Descriptor.unused]

/-- A call that does not block, after which the handler goes on, loses no readiness. -/
theorem NoLostEdge.goesOn (hedge : NoLostEdge s)
    (hpoint : s.point = .reading fd rest ∨ s.point = .writing fd rest) (c : HgConnection)
    (d : Descriptor) :
    HandlerDrains t s (s.serve fd c d s.point) ∧ NoLostEdge (s.serve fd c d s.point) := by
  refine ⟨handlerDrains_of_inside ?_, hedge.slot rfl rfl (.inl ?_) fun _ _ hk => hk⟩
  · rcases hpoint with hpoint | hpoint
    · rw [ServerHost.serve, hpoint]
      exact id
    · rw [ServerHost.serve, hpoint]
      exact id
  · rcases hpoint with hpoint | hpoint
    · rw [ServerHost.serve, hpoint]
      exact .inl rfl
    · rw [ServerHost.serve, hpoint]
      exact .inl rfl

/-- What was in hand beside the descriptor of a handler is still reported after it. -/
theorem inHand_after {k : Fd} {d : Descriptor}
    (hpoint : s.point = .reading fd rest ∨ s.point = .writing fd rest) (hk : k ≠ fd)
    (h : InHand s.listenFd s.point k d) : InHand s.listenFd (.batch rest) k d := by
  rcases hpoint with hpoint | hpoint
  · rw [hpoint] at h
    exact h.resolve_left hk
  · rw [hpoint] at h
    exact h.resolve_left hk

/-- Reading goes on until the call blocks, or the registration changes. -/
theorem readTurn_readiness (h : ServerInv s) (hedge : NoLostEdge s)
    (hpoint : s.point = .reading fd rest) (hc : s.connections fd = some c) (cfg : HgConfig)
    (provider : AuthProvider) (r : ReadResult) (env : DaemonEnv) :
    HandlerDrains (.read r env) s (s.readTurn cfg provider env fd rest c r) ∧
      NoLostEdge (s.readTurn cfg provider env fd rest c r) := by
  obtain ⟨-, sock, hserves⟩ := h.serves hc
  obtain ⟨-, hstate⟩ := h.reading hpoint hc
  obtain ⟨hinput, -, -⟩ := hserves.phase.of_reading hstate
  have hafter := fun k (hk : k ≠ fd) => inHand_after (d := s.descriptors k) (.inl hpoint) hk
  have hhandled : ∀ k ∈ s.handled (.read r env), k = fd := by
    intro k hk
    simp only [ServerHost.handled, hpoint] at hk
    exact (Option.some.inj hk).symm
  rw [ServerHost.readTurn_eq cfg provider env rest hserves.own hserves.socket r]
  have hout := readOutcome c r
  generalize c.onReadable r = x at hout
  cases hout with
  | more hopen => exact hedge.goesOn (.inl hpoint) _ _
  | blocked hblocked =>
    simp only [Bool.false_eq_true, if_false, hstate]
    refine ⟨fun k hk _ i hi _ => ?_, hedge.slot rfl rfl (.inr ?_) hafter⟩
    · cases r with
      | failed e => exact hblocked
      | eof | data => cases hblocked
    · rw [ServerHost.readDescriptor, hblocked]
      exact quiet_attempt hinput
  | complete hcomplete =>
    simp only [Bool.false_eq_true, if_false]
    refine ⟨handlerDrains_of_changed hhandled fun i hi => ?_,
      hedge.slot rfl rfl (.inr (quiet_register _ _)) hafter⟩
    obtain rfl := Option.some.inj (hinput.symm.trans hi)
    simp [ServerHost.serve]
  | ended hopen hdata =>
    simp only [Bool.false_eq_true, if_false]
    exact hedge.drop hhandled _ hafter

/-- Writing goes on until the call blocks, or the connection ends. -/
theorem writeTurn_readiness (h : ServerInv s) (hedge : NoLostEdge s)
    (hpoint : s.point = .writing fd rest) (hc : s.connections fd = some c) (r : WriteResult) :
    HandlerDrains (.write r) s (s.writeTurn fd rest c r) ∧
      NoLostEdge (s.writeTurn fd rest c r) := by
  obtain ⟨-, sock, hserves⟩ := h.serves hc
  obtain ⟨-, hstate⟩ := h.writing hpoint hc
  obtain ⟨houtput, -, -, -⟩ := hserves.phase.of_writing hstate
  have hafter := fun k (hk : k ≠ fd) => inHand_after (d := s.descriptors k) (.inr hpoint) hk
  have hhandled : ∀ k ∈ s.handled (.write r), k = fd := by
    intro k hk
    simp only [ServerHost.handled, hpoint] at hk
    exact (Option.some.inj hk).symm
  rw [ServerHost.writeTurn_eq rest hserves.own hserves.socket r]
  have hout := writeOutcome c r
  generalize c.onWritable r = x at hout
  cases hout with
  | more hlt => exact hedge.goesOn (.inr hpoint) _ _
  | blocked hblocked =>
    simp only [Bool.false_eq_true, if_false, hstate]
    refine ⟨fun k hk _ i hi _ => ?_, hedge.slot rfl rfl (.inr ?_) hafter⟩
    · cases r with
      | failed e => exact hblocked
      | written n => cases hblocked
    · rw [ServerHost.writeDescriptor, hblocked]
      exact quiet_attempt houtput
  | finished n hr hend =>
    simp only [Bool.false_eq_true, if_false]
    exact hedge.drop hhandled _ hafter
  | failed e hr he =>
    simp only [Bool.false_eq_true, if_false]
    exact hedge.drop hhandled _ hafter

/-- Accepting goes on until the call blocks, unless it fails otherwise. -/
theorem acceptTurn_readiness (h : ServerInv s) (hedge : NoLostEdge s)
    (hpoint : s.point = .accepting rest) (r : AcceptResult) (hkernel : KernelTurn s (.accept r))
    (hdrained : AcceptDrained s (.accept r)) :
    HandlerDrains (.accept r) s (s.acceptTurn rest r) ∧ NoLostEdge (s.acceptTurn rest r) := by
  cases r with
  | failed e =>
    have hblocks : e.blocks = true := by simpa only [AcceptDrained, hpoint] using hdrained
    refine ⟨fun _ _ _ _ _ _ => hblocks, hedge.slot rfl rfl (.inr ?_) fun k hk hhand => ?_⟩
    · rw [hblocks]
      exact quiet_attempt h.listening.2.2
    · rw [hpoint] at hhand
      exact hhand.resolve_left hk
  | connected fd ip port fcntlOk addOk =>
    have hfree := h.free hkernel
    rw [ServerHost.acceptTurn_connected_eq rest hfree]
    split
    · refine ⟨handlerDrains_of_inside ?_,
        hedge.slot rfl rfl (.inr (quiet_register _ _)) fun _ _ hk => hk⟩
      rw [ServerHost.serve, hpoint]
      exact id
    · refine ⟨handlerDrains_of_inside ?_, hedge.slot rfl rfl (.inr quiet_unused) fun _ _ hk => hk⟩
      rw [ServerHost.drop, hpoint]
      exact id

/-- Every event that needs a handler gets it. -/
theorem dispatch_readiness (h : ServerInv s) (hedge : NoLostEdge s) {ev : EpollEvent}
    (hpoint : s.point = .batch (ev :: rest)) :
    HandlerDrains .next s (s.dispatch ev rest) ∧ NoLostEdge (s.dispatch ev rest) := by
  have hhandled : ∀ k ∈ s.handled .next, k = ev.fd := by
    intro k hk
    simp only [ServerHost.handled, hpoint] at hk
    split at hk
    · exact (Option.some.inj hk).symm
    · cases hk
  -- what was reported by another event still is
  have hothers : ∀ k, k ≠ ev.fd → InHand s.listenFd s.point k (s.descriptors k) →
      Reported rest k (s.descriptors k) := by
    intro k hk hhand
    rw [hpoint] at hhand
    exact (Reported.cons hhand).resolve_left fun hev => hk hev.1.symm
  have hmove : ∀ p, (InHand s.listenFd p ev.fd (s.descriptors ev.fd) ∨
        (s.descriptors ev.fd).Quiet) →
      (∀ k, Reported rest k (s.descriptors k) → InHand s.listenFd p k (s.descriptors k)) →
      NoLostEdge { s with point := p } := by
    intro p hfirst hrest k
    by_cases hk : k = ev.fd
    · exact hk ▸ hfirst
    · exact (hedge k).imp_left fun hhand => hrest k (hothers k hk hhand)
  unfold ServerHost.dispatch
  split
  · next hlisten =>
    exact ⟨handlerDrains_of_inside id, hmove _ (.inl (.inl hlisten)) fun k hk => .inr hk⟩
  · next hlisten =>
    cases hc : s.connections ev.fd with
    | none =>
      have hinterest : (s.descriptors ev.fd).interest = none := by
        have hslot := h.slots ev.fd hlisten
        rw [hc] at hslot
        exact hslot.2
      have hnone : ∀ i, i ∉ (s.descriptors ev.fd).interest := by
        intro i hi
        rw [hinterest] at hi
        cases hi
      exact ⟨handlerDrains_of_changed hhandled fun i hi => absurd hi (hnone i),
        hmove _ (.inr fun i hi => absurd hi (hnone i)) fun k hk => hk⟩
    | some c =>
      obtain ⟨-, sock, hserves⟩ := h.serves hc
      dsimp only
      split
      · exact ⟨handlerDrains_of_inside id, hmove _ (.inl (.inl rfl)) fun k hk => .inr hk⟩
      · next hin =>
        split
        · rw [ServerHost.startWritable_eq rest hc hserves.own hserves.socket]
          split
          · exact ⟨handlerDrains_of_inside id, hmove _ (.inl (.inl rfl)) fun k hk => .inr hk⟩
          · exact hedge.drop hhandled sock hothers
        · next hout =>
          refine ⟨handlerDrains_of_unhandled ?_, hmove _ ?_ fun k hk => hk⟩
          · simp [ServerHost.handled, hpoint, hlisten, hin, hout]
          · -- an event with errors only reports nothing that the descriptor is ready for
            refine (hedge ev.fd).elim (fun hhand => ?_) .inr
            rw [hpoint] at hhand
            rcases Reported.cons hhand with ⟨-, hreports⟩ | hreported
            · refine .inr fun i hi => ?_
              cases i with
              | input => exact absurd (hreports .input hi) hin
              | output => exact absurd (hreports .output hi) hout
            · exact .inl hreported

end

/-- Out of a batch and of the handlers nothing is in hand. -/
theorem NoLostEdge.idle {s s' : ServerHost ncpu} (h : NoLostEdge s)
    (hpoint : s.point = .waiting ∨ s.point = .batch [])
    (hdescriptors : s'.descriptors = s.descriptors) : NoLostEdge s' := by
  intro k
  rw [hdescriptors]
  refine .inr ((h k).resolve_left ?_)
  rcases hpoint with hpoint | hpoint
  · rw [hpoint]
    exact id
  · rw [hpoint]
    rintro ⟨ev, hev, -⟩
    cases hev

/-- A report takes the edges away and puts the descriptors in hand. -/
theorem noLostEdge_report {s : ServerHost ncpu} (hedge : NoLostEdge s)
    (hpoint : s.point = .waiting) {evs : List EpollEvent}
    (hreports : ReportsReady s (.epollWait (.ok evs))) : NoLostEdge (s.report evs) := by
  intro k
  have hquiet : (s.descriptors k).Quiet := by
    refine (hedge k).resolve_left ?_
    rw [hpoint]
    exact id
  by_cases hk : k ∈ evs.map EpollEvent.fd
  · obtain ⟨ev, hev, rfl⟩ := List.mem_map.mp hk
    simp only [ServerHost.report, if_pos hk]
    by_cases hready : ∀ i ∈ (s.descriptors ev.fd).interest, (s.descriptors ev.fd).ready i = true
    · exact .inl ⟨ev, hev, rfl, fun i hi => hreports ev hev i hi (hready i hi)⟩
    · refine .inr fun i hi hri => absurd (fun j hj => ?_) hready
      obtain rfl := Option.some.inj (Eq.trans (Eq.symm hi) hj)
      exact hri
  · simp only [ServerHost.report, if_neg hk]
    exact .inr hquiet

/-- With all readiness kept so far, a turn keeps it if its call of `accept` does not fail other
    than by blocking. -/
theorem readinessKept_of_drained {s : ServerHost ncpu} (h : ServerInv s) (hedge : NoLostEdge s)
    (cfg : HgConfig) (provider : AuthProvider) (t : ServerTurn ncpu) (hkernel : KernelTurn s t)
    (hreports : ReportsReady s t) (hdrained : AcceptDrained s t) :
    ReadinessKept cfg provider s t := by
  unfold ReadinessKept
  cases t with
  | stop => exact ⟨handlerDrains_of_unhandled (by simp [ServerHost.handled]), hedge⟩
  | others maps => exact ⟨handlerDrains_of_unhandled (by simp [ServerHost.handled]), hedge⟩
  | arrive fd i =>
    exact ⟨handlerDrains_of_unhandled (by simp [ServerHost.handled]), hedge.slot rfl rfl
      ((hedge fd).imp (·.congr rfl) (·.arrive i)) fun _ _ hhand => hhand⟩
  | epollWait r =>
    refine ⟨handlerDrains_of_unhandled (by simp [ServerHost.handled]), ?_⟩
    unfold ServerHost.step
    cases hpoint : s.point with
    | waiting =>
      cases r with
      | ok evs => exact noLostEdge_report hedge hpoint hreports
      | error e =>
        dsimp only
        split
        · exact hedge.idle (.inl hpoint) rfl
        · exact hedge.idle (.inl hpoint) rfl
    | batch | accepting | reading | writing | stopped => exact hedge
  | next =>
    unfold ServerHost.step
    cases hpoint : s.point with
    | batch evs =>
      cases evs with
      | nil =>
        exact ⟨handlerDrains_of_unhandled (by simp [ServerHost.handled, hpoint]),
          hedge.idle (.inr hpoint) rfl⟩
      | cons ev rest => exact dispatch_readiness h hedge hpoint
    | waiting | accepting | reading | writing | stopped =>
      exact ⟨handlerDrains_of_unhandled (by simp [ServerHost.handled, hpoint]), hedge⟩
  | accept r =>
    unfold ServerHost.step
    cases hpoint : s.point with
    | accepting rest => exact acceptTurn_readiness h hedge hpoint r hkernel hdrained
    | waiting | batch | reading | writing | stopped =>
      exact ⟨handlerDrains_of_unhandled (by simp [ServerHost.handled, hpoint]), hedge⟩
  | read r env =>
    unfold ServerHost.step
    cases hpoint : s.point with
    | reading fd rest =>
      obtain ⟨c, hc⟩ := h.exists_reading hpoint
      simpa [hc] using readTurn_readiness h hedge hpoint hc cfg provider r env
    | waiting | batch | accepting | writing | stopped =>
      exact ⟨handlerDrains_of_unhandled (by simp [ServerHost.handled, hpoint]), hedge⟩
  | write r =>
    unfold ServerHost.step
    cases hpoint : s.point with
    | writing fd rest =>
      obtain ⟨c, hc⟩ := h.exists_writing hpoint
      simpa [hc] using writeTurn_readiness h hedge hpoint hc r
    | waiting | batch | accepting | reading | stopped =>
      exact ⟨handlerDrains_of_unhandled (by simp [ServerHost.handled, hpoint]), hedge⟩

/-- A handler that drains what it accepts from has seen no other failure. -/
theorem acceptDrained_of_handlerDrains {s : ServerHost ncpu} (h : ServerInv s) (cfg : HgConfig)
    (provider : AuthProvider) {t : ServerTurn ncpu}
    (hdrains : HandlerDrains t s (s.step cfg provider t)) : AcceptDrained s t := by
  cases t with
  | accept r =>
    cases r with
    | connected => simp [AcceptDrained]
    | failed e =>
      cases hpoint : s.point with
      | accepting rest =>
        have hinterest := s.onDescriptor_apply Descriptor.interest
          (fun d => d.attempt_interest .input e.blocks) s.listenFd s.listenFd
        have hblocked := hdrains s.listenFd (by simp [ServerHost.handled, hpoint])
          (by rw [ServerHost.step, hpoint]; trivial) .input h.listening.2.2
          (by rw [ServerHost.step, hpoint]; exact hinterest.trans h.listening.2.2)
        simp only [AcceptDrained, hpoint]
        exact hblocked
      | waiting | batch | reading | writing | stopped => simp [AcceptDrained, hpoint]
  | stop | others | arrive | epollWait | next | read | write => simp [AcceptDrained]

theorem noLostEdge_start (listenFd : Fd) (maps : HgMaps ncpu) :
    NoLostEdge (.start listenFd maps) := by
  intro k
  right
  by_cases hk : k = listenFd
  · simpa [ServerHost.start, hk] using quiet_register .unused .input
  · simpa [ServerHost.start, Function.update_of_ne hk] using quiet_unused

/-- The event loop loses no readiness in exactly the runs in which `accept` fails only when it
    would block. -/
theorem readiness_kept_iff (cfg : HgConfig) (provider : AuthProvider) (listenFd : Fd)
    (maps : HgMaps ncpu) (ts : List (ServerTurn ncpu))
    (hkernel : Always (ServerHost.step cfg provider) (fun s t => KernelTurn s t ∧ ReportsReady s t)
      (.start listenFd maps) ts) :
    Always (ServerHost.step cfg provider) (ReadinessKept cfg provider) (.start listenFd maps) ts ↔
      Always (ServerHost.step cfg provider) AcceptDrained (.start listenFd maps) ts := by
  have hinv : ∀ (s : ServerHost ncpu) t, ServerInv s → KernelTurn s t →
      ServerInv (s.step cfg provider t) := fun s t h hk => (step_ok h cfg provider t hk).1
  constructor
  · intro hkept
    have hguard := (always_and _ _).mpr ⟨hkernel, hkept⟩
    have hstep : ∀ (s : ServerHost ncpu) t, ServerInv s →
        ((KernelTurn s t ∧ ReportsReady s t) ∧ ReadinessKept cfg provider s t) →
        ServerInv (s.step cfg provider t) := fun s t h hg => hinv s t h hg.1.1
    have hdrained : ∀ (s : ServerHost ncpu) t, ServerInv s →
        ((KernelTurn s t ∧ ReportsReady s t) ∧ ReadinessKept cfg provider s t) →
        AcceptDrained s t := fun s t h hg =>
      acceptDrained_of_handlerDrains h cfg provider hg.2.1
    exact always_of_inv hstep hdrained (serverInv_start listenFd maps) hguard
  · intro hdrained
    have hguard := (always_and _ _).mpr ⟨hkernel, hdrained⟩
    have hkept : ∀ (s : ServerHost ncpu) t, (ServerInv s ∧ NoLostEdge s) →
        ((KernelTurn s t ∧ ReportsReady s t) ∧ AcceptDrained s t) →
        ReadinessKept cfg provider s t := fun s t h hg =>
      readinessKept_of_drained h.1 h.2 cfg provider t hg.1.1 hg.1.2 hg.2
    have hstep : ∀ (s : ServerHost ncpu) t, (ServerInv s ∧ NoLostEdge s) →
        ((KernelTurn s t ∧ ReportsReady s t) ∧ AcceptDrained s t) →
        ServerInv (s.step cfg provider t) ∧ NoLostEdge (s.step cfg provider t) := fun s t h hg =>
      ⟨hinv s t h.1 hg.1.1, (hkept s t h hg).2⟩
    exact always_of_inv hstep hkept
      ⟨serverInv_start listenFd maps, noLostEdge_start listenFd maps⟩ hguard

/-- Readiness is kept throughout a visit of the portal page. -/
theorem readiness_kept_portal_visit :
    Always (ServerHost.step .init localAuth) (ReadinessKept .init localAuth)
      (.start 3 (.start 1 .standard 0)) portalVisit :=
  (readiness_kept_iff .init localAuth 3 (.start 1 .standard 0) portalVisit (by decide +kernel)).mpr
    (by decide +kernel)

/-- A client connects, and `accept` is interrupted. -/
def interruptedAccept : List (ServerTurn 1) :=
  [.arrive 3 .input, .epollWait (.ok [⟨3, true, false⟩]), .next, .accept (.failed .intr), .next]

/-- The pending connection stays without an edge when `accept` is interrupted. -/
theorem interrupted_accept_loses_edge :
    let step : ServerHost 1 → ServerTurn 1 → ServerHost 1 := .step .init localAuth
    let s := run step (.start 3 (.start 1 .standard 0)) interruptedAccept
    Always step (fun s t => KernelTurn s t ∧ ReportsReady s t) (.start 3 (.start 1 .standard 0))
        interruptedAccept ∧
      (s.descriptors 3).interest = some .input ∧ (s.descriptors 3).ready .input = true ∧
      (s.descriptors 3).edge = false ∧
      ¬ Always step (ReadinessKept .init localAuth) (.start 3 (.start 1 .standard 0))
        interruptedAccept := by
  intro step s
  refine ⟨by decide +kernel, by decide +kernel, by decide +kernel, by decide +kernel, fun h => ?_⟩
  obtain ⟨-, -, -, ⟨hdrains, -⟩, -⟩ := h
  exact absurd (hdrains 3 rfl trivial .input (by decide +kernel) (by decide +kernel)) nofun

end HawkGate
