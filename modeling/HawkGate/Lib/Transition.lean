-- SUMMARY: Runs of a deterministic transition function, properties of every step of a run, and the invariant rules.
import Mathlib.Data.List.Induction
import Mathlib.Logic.Basic
import Mathlib.Tactic.Tauto

/-!
# Transitions

A system is a total step function on states and events. A run is a list of
events. `Always` states a property of every step of a run, where the property
sees the state before the step and the event. The rules below derive such
properties from what one step does.
-/

universe u v w

namespace Transition

variable {σ : Type u} {ε : Type v} (step : σ → ε → σ)

/-- The state after the events `es`. -/
def run (s : σ) : List ε → σ
  | [] => s
  | e :: es => run (step s e) es

/-- `P` holds at every step of the run of `es` from `s`. -/
def Always (P : σ → ε → Prop) (s : σ) : List ε → Prop
  | [] => True
  | e :: es => P s e ∧ Always P (step s e) es

@[simp] theorem run_nil (s : σ) : run step s [] = s := rfl

@[simp] theorem run_cons (s : σ) (e : ε) (es : List ε) :
    run step s (e :: es) = run step (step s e) es := rfl

@[simp] theorem always_nil (P : σ → ε → Prop) (s : σ) : Always step P s [] := trivial

@[simp] theorem always_cons (P : σ → ε → Prop) (s : σ) (e : ε) (es : List ε) :
    Always step P s (e :: es) ↔ P s e ∧ Always step P (step s e) es := Iff.rfl

/-- What the steps of a run put out, in order. -/
def emitted {ω : Type w} (out : σ → ε → List ω) (s : σ) : List ε → List ω
  | [] => []
  | e :: es => out s e ++ emitted out (step s e) es

instance decidableAlways (P : σ → ε → Prop) [∀ s e, Decidable (P s e)] (s : σ) :
    (es : List ε) → Decidable (Always step P s es)
  | [] => inferInstanceAs (Decidable True)
  | e :: es =>
    have := decidableAlways P (step s e) es
    inferInstanceAs (Decidable (P s e ∧ Always step P (step s e) es))

/-- `Always` reads off the property at any position of the run. -/
theorem always_iff_forall (P : σ → ε → Prop) (s : σ) (es : List ε) :
    Always step P s es ↔ ∀ pre e post, es = pre ++ e :: post → P (run step s pre) e := by
  induction es generalizing s with
  | nil => simp
  | cons a es ih =>
    rw [always_cons, ih]
    constructor
    · rintro ⟨ha, hes⟩ pre e post heq
      cases pre with
      | nil =>
        obtain ⟨rfl, rfl⟩ := List.cons.inj heq
        exact ha
      | cons b pre =>
        obtain ⟨rfl, htail⟩ := List.cons.inj heq
        exact hes pre e post htail
    · intro h
      refine ⟨h [] a es rfl, ?_⟩
      intro pre e post heq
      exact h (a :: pre) e post (by rw [heq]; rfl)

variable {step}

/-! ## Rules -/

section
variable {Inv : σ → Prop} {G P Q : σ → ε → Prop}

theorem always_of_forall (h : ∀ s e, P s e) (s : σ) (es : List ε) : Always step P s es := by
  induction es generalizing s with
  | nil => trivial
  | cons e es ih => exact ⟨h s e, ih (step s e)⟩

/-- A property of the guarded steps from an invariant that they keep holds along a guarded run. -/
theorem always_of_inv (hstep : ∀ s e, Inv s → G s e → Inv (step s e))
    (hP : ∀ s e, Inv s → G s e → P s e) {s : σ} {es : List ε} (hs : Inv s)
    (hG : Always step G s es) : Always step P s es := by
  induction es generalizing s with
  | nil => trivial
  | cons e es ih => exact ⟨hP s e hs hG.1, ih (hstep s e hs hG.1) hG.2⟩

/-- An invariant of the steps on the given events holds after a run of them. -/
theorem run_of_inv {E : ε → Prop} (hstep : ∀ s e, Inv s → E e → Inv (step s e)) {s : σ}
    {es : List ε} (hs : Inv s) (hE : ∀ e ∈ es, E e) : Inv (run step s es) := by
  induction es generalizing s with
  | nil => exact hs
  | cons e es ih =>
    rw [run_cons]
    exact ih (hstep s e hs (hE e List.mem_cons_self)) fun e' he' =>
      hE e' (List.mem_cons_of_mem e he')

/-- An invariant that the guarded steps keep holds after a guarded run. -/
theorem run_of_guarded (hstep : ∀ s e, Inv s → G s e → Inv (step s e)) {s : σ} {es : List ε}
    (hs : Inv s) (hG : Always step G s es) : Inv (run step s es) := by
  induction es generalizing s with
  | nil => exact hs
  | cons e es ih => exact ih (hstep s e hs hG.1) hG.2

theorem always_and (s : σ) (es : List ε) :
    Always step (fun s e => P s e ∧ Q s e) s es ↔ Always step P s es ∧ Always step Q s es := by
  induction es generalizing s with
  | nil => simp
  | cons e es ih =>
    rw [always_cons, always_cons, always_cons, ih]
    tauto

/-- Properties that agree at every step agree along every run. -/
theorem always_iff (hPQ : ∀ s e, P s e ↔ Q s e) (s : σ) (es : List ε) :
    Always step P s es ↔ Always step Q s es := by
  induction es generalizing s with
  | nil => exact Iff.rfl
  | cons e es ih => rw [always_cons, always_cons, hPQ s e, ih (step s e)]

/-- Under an invariant of the guarded steps, two properties that agree at each guarded step
    agree along a guarded run. -/
theorem always_congr (hstep : ∀ s e, Inv s → G s e → Inv (step s e))
    (hPQ : ∀ s e, Inv s → G s e → (P s e ↔ Q s e)) {s : σ} {es : List ε}
    (hs : Inv s) (hG : Always step G s es) : Always step P s es ↔ Always step Q s es := by
  induction es generalizing s with
  | nil => exact Iff.rfl
  | cons e es ih =>
    rw [always_cons, always_cons, hPQ s e hs hG.1, ih (hstep s e hs hG.1) hG.2]

/-- Under an invariant, two properties that agree at each step agree along a run. -/
theorem always_congr_of_inv (hstep : ∀ s e, Inv s → Inv (step s e))
    (hPQ : ∀ s e, Inv s → (P s e ↔ Q s e)) {s : σ} (hs : Inv s) (es : List ε) :
    Always step P s es ↔ Always step Q s es := by
  have hall : Always step (fun _ _ => True) s es := always_of_forall (fun _ _ => trivial) s es
  exact always_congr (fun s e h _ => hstep s e h) (fun s e h _ => hPQ s e h) hs hall

/-- When a step keeps `Inv` exactly if `Q` allows it, a run keeps `Inv` throughout exactly
    if `Q` allows each of its steps. -/
theorem always_inv_iff (hstep : ∀ s e, Inv s → (Inv (step s e) ↔ Q s e)) {s : σ} (hs : Inv s)
    (es : List ε) : Always step (fun s e => Inv (step s e)) s es ↔ Always step Q s es := by
  induction es generalizing s with
  | nil => exact Iff.rfl
  | cons e es ih =>
    rw [always_cons, always_cons, ← hstep s e hs]
    exact and_congr_right fun he => ih he

end

/-! ## The step that made a property true -/

theorem run_append (s : σ) (es es' : List ε) :
    run step s (es ++ es') = run step (run step s es) es' := by
  induction es generalizing s with
  | nil => rfl
  | cons e es ih => exact ih (step s e)

theorem always_append (P : σ → ε → Prop) (s : σ) (es es' : List ε) :
    Always step P s (es ++ es') ↔ Always step P s es ∧ Always step P (run step s es) es' := by
  induction es generalizing s with
  | nil => simp
  | cons e es ih => rw [List.cons_append, always_cons, always_cons, ih, run_cons, and_assoc]

/-- A property that a run made true was made true by one of its steps, and held ever since. -/
theorem exists_cause {P : σ → Prop} {s : σ} {es : List ε} (hs : ¬ P s) (hes : P (run step s es)) :
    ∃ pre e post, es = pre ++ e :: post ∧ ¬ P (run step s pre) ∧
      ∀ mid, mid <+: post → P (run step s (pre ++ e :: mid)) := by
  -- the last step of the run is the cause, or the property held before it
  induction es using List.reverseRecOn with
  | nil => exact absurd hes hs
  | append_singleton es e ih =>
    by_cases hbefore : P (run step s es)
    · obtain ⟨pre, e', post, rfl, hpre, hpost⟩ := ih hbefore
      refine ⟨pre, e', post ++ [e], by simp, hpre, ?_⟩
      intro mid hmid
      rcases List.prefix_concat_iff.mp hmid with rfl | hmid
      · simpa using hes
      · exact hpost mid hmid
    · refine ⟨es, e, [], rfl, hbefore, ?_⟩
      intro mid hmid
      rw [List.prefix_nil.mp hmid]
      exact hes

/-! ## What was turned on and not off again -/

section
variable {on off : σ → ε → Prop}

variable (step) in
/-- An event of the run turned it on, and no later one turned it off. -/
def Since (on off : σ → ε → Prop) (s : σ) (es : List ε) : Prop :=
  ∃ pre e post, es = pre ++ e :: post ∧ on (run step s pre) e ∧
    Always step (fun s e => ¬ off s e) (run step s (pre ++ [e])) post

theorem since_concat (s : σ) (es : List ε) (e : ε) :
    Since step on off s (es ++ [e]) ↔
      on (run step s es) e ∨ (Since step on off s es ∧ ¬ off (run step s es) e) := by
  constructor
  · rintro ⟨pre, e', post, heq, hon, hpost⟩
    rcases List.eq_nil_or_concat post with rfl | ⟨post, e'', rfl⟩
    · obtain ⟨rfl, hlast⟩ := List.append_inj' heq rfl
      obtain rfl := List.singleton_inj.mp hlast
      exact .inl hon
    · rw [List.concat_eq_append, ← List.cons_append, ← List.append_assoc] at heq
      obtain ⟨rfl, hlast⟩ := List.append_inj' heq rfl
      obtain rfl := List.singleton_inj.mp hlast
      rw [List.concat_eq_append, always_append] at hpost
      refine .inr ⟨⟨pre, e', post, rfl, hon, hpost.1⟩, ?_⟩
      have hoff := hpost.2.1
      rwa [← run_append, List.append_assoc] at hoff
  · rintro (hon | ⟨⟨pre, e', post, rfl, hon, hpost⟩, hoff⟩)
    · exact ⟨es, e, [], rfl, hon, trivial⟩
    · refine ⟨pre, e', post ++ [e], by simp, hon, ?_⟩
      rw [always_append]
      refine ⟨hpost, ?_, trivial⟩
      rwa [← run_append, List.append_assoc]

/-- What a step makes true exactly by turning it on, or by not turning it off, is true after a run
    exactly if it was turned on since. -/
theorem run_iff_since {P : σ → Prop}
    (hstep : ∀ s e, P (step s e) ↔ on s e ∨ (P s ∧ ¬ off s e)) {s : σ} (hs : ¬ P s)
    (es : List ε) : P (run step s es) ↔ Since step on off s es := by
  induction es using List.reverseRecOn with
  | nil =>
    refine iff_of_false hs ?_
    rintro ⟨pre, e, post, heq, -⟩
    simp at heq
  | append_singleton es e ih => rw [run_append, run_cons, run_nil, hstep, ih, since_concat]

end

/-! ## What a run puts out -/

section
variable {ω : Type w} {out : σ → ε → List ω}

/-- What a run puts out, one of its steps puts out. -/
theorem exists_of_mem_emitted {s : σ} {es : List ε} {x : ω} (h : x ∈ emitted step out s es) :
    ∃ pre e post, es = pre ++ e :: post ∧ x ∈ out (run step s pre) e := by
  induction es generalizing s with
  | nil => cases h
  | cons e es ih =>
    rcases List.mem_append.mp h with hfirst | hrest
    · exact ⟨[], e, es, rfl, hfirst⟩
    · obtain ⟨pre, e', post, rfl, hx⟩ := ih hrest
      exact ⟨e :: pre, e', post, rfl, hx⟩

/-- If a step puts out at most one thing, what a run puts out before and after something is what it
    puts out before and after the step that put it out. -/
theorem exists_split_of_emitted (hout : ∀ s e, (out s e).length ≤ 1) {s : σ} {es : List ε}
    {xs ys : List ω} {x : ω} (h : emitted step out s es = xs ++ x :: ys) :
    ∃ pre e post, es = pre ++ e :: post ∧ emitted step out s pre = xs ∧
      x ∈ out (run step s pre) e ∧ emitted step out (run step s (pre ++ [e])) post = ys := by
  induction es generalizing s xs with
  | nil => simp [emitted] at h
  | cons e es ih =>
    rw [emitted] at h
    have hone := hout s e
    cases hstep : out s e with
    | nil =>
      rw [hstep, List.nil_append] at h
      obtain ⟨pre, e', post, rfl, hpre, hx, hpost⟩ := ih h
      exact ⟨e :: pre, e', post, rfl, by rw [emitted, hstep, hpre, List.nil_append], hx, hpost⟩
    | cons y rest =>
      obtain rfl : rest = [] := by
        rw [hstep, List.length_cons] at hone
        exact List.length_eq_zero_iff.mp (by omega)
      rw [hstep, List.singleton_append] at h
      cases xs with
      | nil =>
        obtain ⟨rfl, hys⟩ := List.cons.inj h
        exact ⟨[], e, es, rfl, rfl, by rw [run_nil, hstep]; exact List.mem_singleton_self y, hys⟩
      | cons z xs =>
        obtain ⟨rfl, hxs⟩ := List.cons.inj h
        obtain ⟨pre, e', post, rfl, hpre, hx, hpost⟩ := ih hxs
        exact ⟨e :: pre, e', post, rfl, by rw [emitted, hstep, hpre]; rfl, hx, hpost⟩

/-- A part of the state that each step takes through what the step puts out has a run of its
    own. -/
theorem project_run {τ : Type*} {step' : τ → ω → τ} {project : σ → τ}
    (hstep : ∀ s e, project (step s e) = run step' (project s) (out s e)) (s : σ) (es : List ε) :
    project (run step s es) = run step' (project s) (emitted step out s es) := by
  induction es generalizing s with
  | nil => rfl
  | cons e es ih => rw [run_cons, ih, hstep, emitted, run_append]

end

end Transition
