-- SUMMARY: Which calls of the reader close every descriptor that they opened.
import HawkGate.Control.ReadAll
import HawkGate.Lib.Transition

/-!
# Descriptor balance

The reader opens three maps and then the binding map, and each of its exits has a
clean-up of its own. Here the kernel decides every open, every allocation and every
lookup anew, and only the descriptors are looked at.
-/

namespace HawkGate

open CString Transition

variable {ncpu : Nat}

/-! ## Calls and descriptors -/

/-- What the calls of one run are answered: opens by their map, allocations and keys by how many
    there were before, and everything else in any way. -/
structure Outcomes (ncpu : Nat) where
  opens : MapName → Bool
  alloc : Nat → Bool
  key : Nat → Option IpAddr
  other : {β : Type} → Nat → Sys ncpu β → β

/-- How many calls of each kind were made, and the descriptors that are open; `none` once one was
    closed that is not. -/
structure FdState where
  allocs : Nat
  keys : Nat
  others : Nat
  held : Option (List MapName)

def Outcomes.exec (o : Outcomes ncpu) {β : Type} (st : FdState) : Sys ncpu β → β × FdState
  | .objGet map =>
    (o.opens map, { st with held := if o.opens map then st.held.map (map :: ·) else st.held })
  | .close map =>
    ((), { st with held := st.held.bind fun l => if map ∈ l then some (l.erase map) else none })
  | .calloc => (o.alloc st.allocs, { st with allocs := st.allocs + 1 })
  | .nextCounterKey _ => (o.key st.keys, { st with keys := st.keys + 1 })
  | op => (o.other st.others op, { st with others := st.others + 1 })

/-- The three maps that are opened first open. -/
def Outcomes.opensRead (o : Outcomes ncpu) : Bool :=
  o.opens .hgCounters && o.opens .hgClients && o.opens .hgRates

inductive ReaderCall where
  | all (qsort : Qsort) (fuel : Nat) (sort : HgSortKey) (filter : HgStateFilter) (limit : Int32)
  | one (ip : CString)

/-- A call of the reader and what it meets. -/
structure Poll (ncpu : Nat) where
  call : ReaderCall
  outcomes : Outcomes ncpu

/-- The descriptors after a read of all clients; a walk over the keys that does not end within the
    fuel does not return. -/
def heldAfter (held : Option (List MapName)) (r : ReadAllOutcome × FdState) :
    Option (List MapName) :=
  match r.1 with
  | .outOfFuel => held
  | _ => r.2.held

/-- The descriptors after the call. -/
def Poll.step (held : Option (List MapName)) (p : Poll ncpu) : Option (List MapName) :=
  match p.call with
  | .all qsort fuel sort filter limit =>
    heldAfter held
      (Prog.run p.outcomes.exec ⟨0, 0, 0, held⟩ (hgReadAll qsort fuel sort filter limit))
  | .one ip => (Prog.run p.outcomes.exec ⟨0, 0, 0, held⟩ (hgReadOne ip)).2.held

/-- The call returns by an exit that leaves the binding map open: all maps and the buffer for the
    CPUs are there, and the table of counters is empty or there is no memory for the array. -/
def Poll.Leaks (p : Poll ncpu) : Prop :=
  match p.call with
  | .all _ fuel _ _ _ =>
    p.outcomes.opensRead = true ∧ p.outcomes.opens .hgIpMac = true ∧ p.outcomes.alloc 0 = true ∧
      (∃ n < fuel, p.outcomes.key n = none) ∧
      (p.outcomes.key 0 = none ∨ p.outcomes.alloc 1 = false)
  | .one _ => False

/-! ## Runs -/

section
variable (o : Outcomes ncpu)

/-- The calls that neither open nor close. -/
def Sys.KeepsFds {β : Type} : Sys ncpu β → Prop
  | .objGet _ | .close _ => False
  | _ => True

theorem held_run {α : Type} {p : Tool ncpu α} (h : p.Only Sys.KeepsFds) (st : FdState) :
    (Prog.run o.exec st p).2.held = st.held := by
  induction p generalizing st with
  | ret a => rfl
  | call op k ih =>
    rw [Prog.run, ih _ (h.2 _)]
    obtain ⟨hop, -⟩ := h
    cases op with
    | objGet | close => exact hop.elim
    | _ => rfl

theorem run_openReadMaps_fds (a k n : Nat) (l : List MapName) :
    Prog.run o.exec ⟨a, k, n, some l⟩ (openReadMaps : Tool ncpu Bool) =
      (o.opensRead, ⟨a, k, n, some (if o.opensRead = true then
        .hgRates :: .hgClients :: .hgCounters :: l else l)⟩) := by
  unfold openReadMaps Outcomes.opensRead
  cases hcounters : o.opens .hgCounters
  all_goals cases hclients : o.opens .hgClients
  all_goals cases hrates : o.opens .hgRates
  all_goals simp [Outcomes.exec, hcounters, hclients, hrates, closeIf]

/-- The first pass ends with the first missing key, and leaves what it holds. -/
theorem run_countCounters_keys (fuel : Nat) (prev : Option IpAddr) (total a k n : Nat)
    (held : Option (List MapName)) :
    ∃ k', (Prog.run o.exec ⟨a, k, n, held⟩ (countCounters fuel prev total)).2 = ⟨a, k', n, held⟩ ∧
      match (Prog.run o.exec ⟨a, k, n, held⟩ (countCounters fuel prev total)).1 with
      | none => ∀ i < fuel, o.key (k + i) ≠ none
      | some m => (∃ i < fuel, o.key (k + i) = none) ∧ total ≤ m ∧ (m = total ↔ o.key k = none) := by
  induction fuel generalizing prev total k with
  | zero => exact ⟨k, rfl, fun i hi => absurd hi (Nat.not_lt_zero i)⟩
  | succ fuel ih =>
    rw [countCounters, Prog.run_bind, Prog.run_perform, Outcomes.exec]
    cases hkey : o.key k with
    | none =>
      refine ⟨k + 1, rfl, ⟨0, Nat.succ_pos fuel, ?_⟩, le_refl total, ?_⟩
      · rwa [Nat.add_zero]
      · simp
    | some key =>
      obtain ⟨k', hfinal, hres⟩ := ih (some key) (total + 1) (k + 1)
      refine ⟨k', hfinal, ?_⟩
      dsimp only
      cases hcount : (Prog.run o.exec ⟨a, k + 1, n, held⟩
        (countCounters fuel (some key) (total + 1))).1 with
      | none =>
        rw [hcount] at hres
        intro i hi
        cases i with
        | zero => simp [hkey]
        | succ i =>
          rw [← Nat.add_assoc, Nat.add_right_comm]
          exact hres i (Nat.lt_of_succ_lt_succ hi)
      | some m =>
        rw [hcount] at hres
        obtain ⟨⟨i, hi, hnone⟩, hle, -⟩ := hres
        refine ⟨⟨i + 1, Nat.succ_lt_succ hi, ?_⟩, by omega, ?_⟩
        · rwa [← Nat.add_assoc, Nat.add_right_comm]
        · simp only [reduceCtorEq, iff_false]
          omega

theorem allowsRead_keepsFds : AllowsRead (fun op : Sys ncpu _ => op.KeepsFds) := by
  constructor
  all_goals exact fun _ => trivial

theorem only_fillStatsBuf (macFd : Bool) (total fuel : Nat) (prev : Option IpAddr)
    (r : HgReadAll) : (fillStatsBuf macFd total fuel prev r : Tool ncpu _).Only Sys.KeepsFds := by
  induction fuel generalizing prev r with
  | zero => exact Prog.only_pure _
  | succ fuel ih =>
    have hkey : (Sys.nextCounterKey prev : Sys ncpu _).KeepsFds := trivial
    have hcounter : ∀ ip, (Sys.lookupCounter ip : Sys ncpu _).KeepsFds := fun _ => trivial
    refine (Prog.only_perform hkey).bind fun key => ?_
    cases key with
    | none => exact Prog.only_pure _
    | some key =>
      dsimp only
      split
      · exact (only_readEntry allowsRead_keepsFds hcounter macFd key).bind fun entry => ih _ _
      · exact Prog.only_pure _

/-- The descriptors of a read whose maps are open. -/
def heldOpen (macFd : Bool) (l : List MapName) : List MapName :=
  if macFd = true then .hgIpMac :: .hgRates :: .hgClients :: .hgCounters :: l
  else .hgRates :: .hgClients :: .hgCounters :: l

/-- Both groups of descriptors closed leave none of them. -/
theorem run_close_all {α : Type} (st : FdState) {macFd : Bool} {l : List MapName}
    (h : st.held = some (heldOpen macFd l)) (result : α) :
    Prog.run o.exec st (do closeIf macFd .hgIpMac; closeReadMaps; pure result) =
      (result, { st with held := some l }) := by
  obtain ⟨a, k, n, held⟩ := st
  obtain rfl := h
  cases macFd
  · simp [heldOpen, closeIf, closeReadMaps, Outcomes.exec]
  · simp [heldOpen, closeIf, closeReadMaps, Outcomes.exec]

/-- Without a close of its own the binding map stays open if it was opened. -/
theorem run_close_maps {α : Type} (st : FdState) {macFd : Bool} {l : List MapName}
    (h : st.held = some (heldOpen macFd l)) (result : α) :
    Prog.run o.exec st (do closeReadMaps; pure result) =
      (result, { st with held := some (if macFd = true then .hgIpMac :: l else l) }) := by
  obtain ⟨a, k, n, held⟩ := st
  obtain rfl := h
  cases macFd
  · simp [heldOpen, closeReadMaps, Outcomes.exec]
  · simp [heldOpen, closeReadMaps, Outcomes.exec]

theorem held_open_ipMac (a k n : Nat) (l : List MapName) :
    (Outcomes.exec o ⟨a, k, n, some (.hgRates :: .hgClients :: .hgCounters :: l)⟩
      (.objGet .hgIpMac)).2 = ⟨a, k, n, some (heldOpen (o.opens .hgIpMac) l)⟩ := by
  rw [Outcomes.exec, heldOpen]
  cases o.opens .hgIpMac
  · rfl
  · rfl

/-- A read of one client closes what it opened. -/
theorem held_hgReadOne (ip : CString) (l : List MapName) :
    (Prog.run o.exec ⟨0, 0, 0, some l⟩ (hgReadOne ip)).2.held = some l := by
  unfold hgReadOne
  cases inetPton ip with
  | none => rfl
  | some ipKey =>
    rw [Prog.run_bind, run_openReadMaps_fds]
    cases o.opensRead with
    | false => rfl
    | true =>
      have hcounter : ∀ ip, (Sys.lookupCounter ip : Sys ncpu _).KeepsFds := fun _ => trivial
      have hcalloc : (Sys.calloc : Sys ncpu Bool).KeepsFds := trivial
      have hfound : ∀ macFd, (do if ← sys .calloc then readEntry macFd ipKey else pure none :
          Tool ncpu (Option HgClientStats)).Only Sys.KeepsFds := by
        intro macFd
        refine (Prog.only_perform hcalloc).bind fun ok => ?_
        cases ok
        · exact Prog.only_pure _
        · exact only_readEntry allowsRead_keepsFds hcounter macFd ipKey
      simp only [if_true]
      rw [Prog.run_bind, Prog.run_perform, held_open_ipMac, Prog.run_bind]
      have hheld := held_run o (hfound (o.opens .hgIpMac))
        ⟨0, 0, 0, some (heldOpen (o.opens .hgIpMac) l)⟩
      exact congrArg (fun r : Option HgClientStats × FdState => r.2.held)
        (run_close_all o _ hheld _)

/-- A read of all clients that returns leaves the binding map open exactly at the exits that do
    not close it. -/
theorem held_hgReadAll (qsort : Qsort) (fuel : Nat) (sort : HgSortKey) (filter : HgStateFilter)
    (limit : Int32) (l : List MapName) :
    Poll.step (some l) ⟨.all qsort fuel sort filter limit, o⟩ = some l ↔
      ¬ Poll.Leaks ⟨.all qsort fuel sort filter limit, o⟩ := by
  have hleft : (some (if o.opens .hgIpMac = true then .hgIpMac :: l else l) = some l) ↔
      o.opens .hgIpMac = false := by
    cases o.opens .hgIpMac
    · simp
    · simp
  unfold Poll.step Poll.Leaks hgReadAll
  dsimp only
  rw [Prog.run_bind, run_openReadMaps_fds]
  cases hopen : o.opensRead with
  | false => simp [heldAfter]
  | true =>
    simp only [if_true]
    rw [Prog.run_bind, Prog.run_perform, held_open_ipMac, Prog.run_bind, Prog.run_perform]
    cases halloc : o.alloc 0 with
    | false =>
      simp only [Outcomes.exec, halloc]
      have hclose := run_close_all o
        ⟨1, 0, 0, some (heldOpen (o.opens .hgIpMac) l)⟩ rfl ReadAllOutcome.failed
      simp [heldAfter, hclose]
    | true =>
      simp only [Outcomes.exec, halloc, if_true]
      rw [Prog.run_bind]
      obtain ⟨k, hstate, hres⟩ := run_countCounters_keys o fuel none 0 1 0 0
        (some (heldOpen (o.opens .hgIpMac) l))
      rw [hstate]
      cases hcount : (Prog.run o.exec ⟨1, 0, 0, some (heldOpen (o.opens .hgIpMac) l)⟩
        (countCounters fuel none 0)).1 with
      | none =>
        -- no key is missing, so the walk goes on
        rw [hcount] at hres
        have hends : ¬ ∃ n < fuel, o.key n = none := by
          rintro ⟨n, hn, hnone⟩
          exact hres n hn (by rwa [Nat.zero_add])
        simp [heldAfter, hends]
      | some total =>
        rw [hcount] at hres
        simp only [Nat.zero_add] at hres
        obtain ⟨hends, -, hempty⟩ := hres
        cases total with
        | zero =>
          have hfirst : o.key 0 = none := hempty.mp rfl
          have hclose := run_close_maps o
            ⟨1, k, 0, some (heldOpen (o.opens .hgIpMac) l)⟩ rfl
            (ReadAllOutcome.done .empty)
          simp only
          rw [hclose]
          simp [heldAfter, hends, hfirst]
        | succ total =>
          have hfirst : o.key 0 ≠ none := fun h => Nat.succ_ne_zero total (hempty.mpr h)
          simp only
          rw [Prog.run_bind, Prog.run_perform]
          cases harray : o.alloc 1 with
          | false =>
            simp only [Outcomes.exec, harray]
            have hclose := run_close_maps o
              ⟨2, k, 0, some (heldOpen (o.opens .hgIpMac) l)⟩ rfl ReadAllOutcome.failed
            simp [heldAfter, hends, hclose]
          | true =>
            simp only [Outcomes.exec, harray, if_true]
            rw [Prog.run_bind]
            have hheld := held_run o
              (only_fillStatsBuf (o.opens .hgIpMac) (total + 1) fuel none .empty)
              ⟨2, k, 0, some (heldOpen (o.opens .hgIpMac) l)⟩
            cases (Prog.run o.exec ⟨2, k, 0, some (heldOpen (o.opens .hgIpMac) l)⟩
              (fillStatsBuf (o.opens .hgIpMac) (total + 1) fuel none .empty)).1 with
            | none => simp [heldAfter, hfirst]
            | some r =>
              dsimp only
              rw [run_close_all o _ hheld]
              simp [heldAfter, hfirst]

end

/-! ## Polling -/

theorem poll_step_iff (l : List MapName) (p : Poll ncpu) :
    Poll.step (some l) p = some l ↔ ¬ p.Leaks := by
  obtain ⟨call, o⟩ := p
  cases call with
  | all qsort fuel sort filter limit => exact held_hgReadAll o qsort fuel sort filter limit l
  | one ip => exact iff_of_true (held_hgReadOne o ip l) fun h => h

/-- However often the reader is called, each call that returns leaves the descriptors that were open
    before if and only if none of them takes an exit that leaves the binding map open. -/
theorem descriptors_balanced_iff (l : List MapName) (ps : List (Poll ncpu)) :
    Always Poll.step (fun held p => Poll.step held p = held) (some l) ps ↔
      ∀ p ∈ ps, ¬ p.Leaks := by
  induction ps with
  | nil => simp
  | cons p ps ih =>
    rw [always_cons, List.forall_mem_cons, ← poll_step_iff l p]
    constructor
    · rintro ⟨hp, hps⟩
      rw [hp] at hps
      exact ⟨hp, ih.mp hps⟩
    · rintro ⟨hp, hps⟩
      rw [hp]
      exact ⟨rfl, ih.mpr hps⟩

/-- All maps open, there is memory, and no client is known yet. -/
def emptyTable : Outcomes 1 where
  opens := fun _ => true
  alloc := fun _ => true
  key := fun _ => none
  other := fun _ op => (Sys.exec (.good ⟨0, 0⟩) (.start 1 .standard 0) op).1

/-- A read of an empty table leaves the descriptor of the binding map open, and so does the next. -/
theorem empty_table_leaks :
    run Poll.step (some []) (List.replicate 2
        ⟨.all ⟨fun _ l => l, fun _ l => .refl l⟩ 1 .dnBytes .all 0, emptyTable⟩) =
      some [.hgIpMac, .hgIpMac] ∧
      ¬ Always Poll.step (fun held p => Poll.step held p = held) (some []) (List.replicate 2
        ⟨.all ⟨fun _ l => l, fun _ l => .refl l⟩ 1 .dnBytes .all 0, emptyTable⟩) := by
  constructor
  · decide
  · decide

end HawkGate
