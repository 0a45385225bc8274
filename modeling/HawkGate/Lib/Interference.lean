-- SUMMARY: Weakest preconditions of programs between whose operations other parties change the state.
import HawkGate.Lib.Prog
import Mathlib.Logic.Relation

/-!
# Interference

A program makes its operations one by one. Before each of them others may have
changed the state any number of times, each time within `rely`. An operation may
have several answers, each with the state it leaves. `wp` says what must hold now
so that the program, whatever it is answered, returns with `Q`; nothing happens
between its last operation and its return.
-/

namespace Prog

variable {Op : Type → Type} {σ α β : Type}
variable (exec : ∀ {β : Type}, σ → Op β → β → σ → Prop) (rely : σ → σ → Prop)

def wp : Prog Op α → (α → σ → Prop) → σ → Prop
  | .ret a, Q, s => Q a s
  | .call op k, Q, s =>
    ∀ s', Relation.ReflTransGen rely s s' → ∀ b s'', exec s' op b s'' → wp (k b) Q s''

variable {exec rely}

/-! ## Rules -/

section
variable {Q : α → σ → Prop} {s : σ}

theorem wp_pure {a : α} (h : Q a s) : wp exec rely (pure a : Prog Op α) Q s := h

theorem wp_perform {op : Op α}
    (h : ∀ s', Relation.ReflTransGen rely s s' → ∀ b s'', exec s' op b s'' → Q b s'') :
    wp exec rely (perform op) Q s := h

theorem wp_bind {p : Prog Op β} {f : β → Prog Op α}
    (h : wp exec rely p (fun b => wp exec rely (f b) Q) s) : wp exec rely (p >>= f) Q s := by
  induction p generalizing s with
  | ret b => exact h
  | call op k ih => exact fun s' hs b s'' hexec => ih b (h s' hs b s'' hexec)

theorem wp_mono {R : α → σ → Prop} {p : Prog Op α} (h : wp exec rely p Q s)
    (hQR : ∀ a s, Q a s → R a s) : wp exec rely p R s := by
  induction p generalizing s with
  | ret a => exact hQR a s h
  | call op k ih => exact fun s' hs b s'' hexec => ih b (h s' hs b s'' hexec)

/-- What others keep, any number of their changes keep. -/
theorem inv_of_rely {Inv : σ → Prop} (hrely : ∀ s s', Inv s → rely s s' → Inv s') {s' : σ}
    (hs : Inv s) (hreach : Relation.ReflTransGen rely s s') : Inv s' := by
  induction hreach with
  | refl => exact hs
  | tail _ hstep ih => exact hrely _ _ ih hstep

/-- Operations that keep an invariant, which others keep too, return what the program ensures
    with the invariant. -/
theorem wp_of_inv {Inv : σ → Prop} {P : ∀ {β : Type}, Op β → Prop} {R : α → Prop}
    (hrely : ∀ s s', Inv s → rely s s' → Inv s')
    (hexec : ∀ {β : Type} (s : σ) (op : Op β) b s', Inv s → P op → exec s op b s' → Inv s')
    {p : Prog Op α} (hp : Only P p) (hR : Ensures R p) (hs : Inv s) :
    wp exec rely p (fun a s => R a ∧ Inv s) s := by
  induction p generalizing s with
  | ret a => exact ⟨hR, hs⟩
  | call op k ih =>
    intro s' hreach b s'' hop
    have hs' := inv_of_rely hrely hs hreach
    exact ih b (hp.2 b) (hR b) (hexec s' op b s'' hs' hp.1 hop)

end

/-! ## Soundness -/

section
variable {Q : α → σ → Prop} {s s' : σ}

/-- What another party does leaves the precondition true, if it leaves the result true. -/
theorem wp_rely {p : Prog Op α} (hstep : rely s s') (hQ : ∀ a, Q a s → Q a s')
    (h : wp exec rely p Q s) : wp exec rely p Q s' := by
  cases p with
  | ret a => exact hQ a h
  | call op k => exact fun t ht => h t (ht.head hstep)

/-- The operation of the program leads to the precondition of the rest. -/
theorem wp_exec {op : Op β} {k : β → Prog Op α} {b : β} (h : wp exec rely (.call op k) Q s)
    (hop : exec s op b s') : wp exec rely (k b) Q s' := h s .refl b s' hop

end

end Prog
