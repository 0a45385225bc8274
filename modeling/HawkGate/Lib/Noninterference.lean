-- SUMMARY: Noninterference of a machine with outputs: purging foreign events leaves one party's outputs as they are.
import HawkGate.Lib.Transition

/-!
# Noninterference

A machine takes events of several parties and answers each with an output. One
party is not interfered with if its outputs in a run are those of the run from
which the events of the others are removed. The unwinding conditions say what to
check of single steps.
-/

universe u v w

namespace Noninterference

open Transition

variable {σ : Type u} {ε : Type v} {ω : Type w} (step : σ → ε → σ × ω) (own : ε → Prop)
  [DecidablePred own]

/-- The state after an event. -/
def next (s : σ) (e : ε) : σ := (step s e).1

/-- The outputs of the party's own events in a run. -/
def outputs (s : σ) : List ε → List ω
  | [] => []
  | e :: es => if own e then (step s e).2 :: outputs (next step s e) es else outputs (next step s e) es

/-- The run without the events of others. -/
def purge (es : List ε) : List ε := es.filter fun e => own e

/-- The unwinding conditions for a relation of the states of the full and the purged run. `G`
    is what is known of every step of the full run. -/
structure Unwinding (R : σ → σ → Prop) (G : σ → ε → Prop) : Prop where
  output : ∀ s t e, R s t → G s e → own e → (step s e).2 = (step t e).2
  consistent : ∀ s t e, R s t → G s e → own e → R (next step s e) (next step t e)
  respects : ∀ s t e, R s t → G s e → ¬ own e → R (next step s e) t

variable {step own} {R : σ → σ → Prop} {G : σ → ε → Prop}

/-- Under the unwinding conditions the purged run has the same outputs and stays related. -/
theorem Unwinding.purge (h : Unwinding step own R G) {s t : σ} {es : List ε} (hR : R s t)
    (hG : Always (next step) G s es) :
    outputs step own s es = outputs step own t (purge own es) ∧
      R (run (next step) s es) (run (next step) t (purge own es)) := by
  induction es generalizing s t with
  | nil => exact ⟨rfl, hR⟩
  | cons e es ih =>
    obtain ⟨he, hes⟩ := hG
    by_cases hown : own e
    · have hpurge : Noninterference.purge own (e :: es) = e :: Noninterference.purge own es := by
        simp [Noninterference.purge, hown]
      obtain ⟨hout, hfinal⟩ := ih (h.consistent s t e hR he hown) hes
      rw [hpurge]
      refine ⟨?_, hfinal⟩
      rw [outputs, outputs, if_pos hown, if_pos hown, h.output s t e hR he hown, hout]
    · have hpurge : Noninterference.purge own (e :: es) = Noninterference.purge own es := by
        simp [Noninterference.purge, hown]
      obtain ⟨hout, hfinal⟩ := ih (h.respects s t e hR he hown) hes
      rw [hpurge]
      refine ⟨?_, hfinal⟩
      rw [outputs, if_neg hown, hout]

/-! ## Two runs -/

variable (step own) in
/-- The unwinding conditions for two runs that differ in the events of others only, each of which
    is known to be guarded by `G`. -/
structure Isolating (R : σ → σ → Prop) (G : σ → ε → Prop) : Prop where
  symm : ∀ s t, R s t → R t s
  output : ∀ s t e, R s t → G s e → G t e → own e → (step s e).2 = (step t e).2
  consistent : ∀ s t e, R s t → G s e → G t e → own e → R (next step s e) (next step t e)
  respects : ∀ s t e, R s t → G s e → ¬ own e → R (next step s e) t

section
variable {s t : σ} {es es' : List ε} (h : Isolating step own R G)
include h

/-- Events of others only have no outputs and keep the states related. -/
theorem Isolating.foreign (hown : ∀ e ∈ es, ¬ own e) (hR : R s t)
    (hG : Always (next step) G s es) :
    outputs step own s es = [] ∧ R (run (next step) s es) t := by
  induction es generalizing s with
  | nil => exact ⟨rfl, hR⟩
  | cons e es ih =>
    have he : ¬ own e := hown e List.mem_cons_self
    obtain ⟨hout, hfinal⟩ := ih (fun e' he' => hown e' (List.mem_cons_of_mem e he'))
      (h.respects s t e hR hG.1 he) hG.2
    exact ⟨by rw [outputs, if_neg he, hout], hfinal⟩

/-- What happens before the first own event of the other run does not matter. -/
theorem Isolating.skip {pre : List ε} (hown : ∀ e ∈ pre, ¬ own e) (hR : R s t)
    (hG : Always (next step) G t (pre ++ es)) :
    outputs step own t (pre ++ es) = outputs step own (run (next step) t pre) es ∧
      R s (run (next step) t pre) ∧ Always (next step) G (run (next step) t pre) es := by
  induction pre generalizing t with
  | nil => exact ⟨rfl, hR, hG⟩
  | cons e pre ih =>
    have he : ¬ own e := hown e List.mem_cons_self
    obtain ⟨hout, hfinal, hrest⟩ := ih (fun e' he' => hown e' (List.mem_cons_of_mem e he'))
      (h.symm _ _ (h.respects t s e (h.symm s t hR) hG.1 he)) hG.2
    exact ⟨by rw [List.cons_append, outputs, if_neg he, hout, run_cons], hfinal, hrest⟩

/-- Two runs with the same own events have the same outputs and stay related. -/
theorem Isolating.outputs_eq (hR : R s t) (hG : Always (next step) G s es)
    (hG' : Always (next step) G t es')
    (hsame : Noninterference.purge own es = Noninterference.purge own es') :
    outputs step own s es = outputs step own t es' ∧
      R (run (next step) s es) (run (next step) t es') := by
  -- each own event is executed in both runs, each other event in one of them
  induction es generalizing s t es' with
  | nil =>
    have hforeign : ∀ e ∈ es', ¬ own e := by
      intro e he hown
      have hmem : e ∈ Noninterference.purge own es' := List.mem_filter.mpr ⟨he, decide_eq_true hown⟩
      rw [← hsame] at hmem
      cases hmem
    obtain ⟨hout, hfinal⟩ := h.foreign hforeign (h.symm s t hR) hG'
    exact ⟨hout.symm, h.symm _ _ hfinal⟩
  | cons e es ih =>
    by_cases hown : own e
    · have hpurge : Noninterference.purge own es' = e :: Noninterference.purge own es := by
        simpa [Noninterference.purge, hown] using hsame.symm
      obtain ⟨pre, post, rfl, hpre, -, hpost⟩ := List.filter_eq_cons_iff.mp hpurge
      obtain ⟨hout, hmid, hrest⟩ := h.skip (fun e' he' hown' => hpre e' he' (decide_eq_true hown'))
        hR hG'
      obtain ⟨houts, hfinal⟩ := ih (h.consistent _ _ e hmid hG.1 hrest.1 hown) hG.2 hrest.2 hpost.symm
      refine ⟨?_, ?_⟩
      · rw [hout, outputs, outputs, if_pos hown, if_pos hown, h.output _ _ e hmid hG.1 hrest.1 hown,
          houts]
      · rw [run_append]
        exact hfinal
    · have hpurge : Noninterference.purge own es = Noninterference.purge own es' := by
        simpa [Noninterference.purge, hown] using hsame
      obtain ⟨hout, hfinal⟩ := ih (h.respects s t e hR hG.1 hown) hG.2 hG' hpurge
      exact ⟨by rw [outputs, if_neg hown, hout], hfinal⟩

end

end Noninterference
