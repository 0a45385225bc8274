-- SUMMARY: Translating programs to other operations, and what they do under answers that can be relied on.
import HawkGate.Lib.Prog

/-!
# Program logic

Two ways to reason about a program without running it. Replacing each operation
by a program over other operations translates it, and a translation that agrees
on operations agrees on programs. `Safe` says what a program does when its
operations are answered as the surroundings promise: which operations it
performs and what it returns. It holds of a program that is half way through if
it held at the start, so that it can be used while other parties act in between.
-/

namespace Prog

variable {Op Op' : Type → Type} {σ α β : Type}

/-! ## Translation -/

/-- Replace each operation by a program. -/
def translate (t : ∀ {β : Type}, Op β → Prog Op' β) : Prog Op α → Prog Op' α
  | .ret a => pure a
  | .call op k => t op >>= fun b => translate t (k b)

/-- A translation that does what each operation does, does what the program does. -/
theorem run_translate {t : ∀ {β : Type}, Op β → Prog Op' β} (h : ∀ {β : Type}, σ → Op β → β × σ)
    (h' : ∀ {β : Type}, σ → Op' β → β × σ)
    (ht : ∀ {β : Type} (s : σ) (op : Op β), run h' s (t op) = h s op) (p : Prog Op α) (s : σ) :
    run h' s (translate t p) = run h s p := by
  induction p generalizing s with
  | ret a => rfl
  | call op k ih =>
    rw [translate, run_bind, ht s op]
    exact ih _ _

/-- A translation that answers as each operation does and keeps the states related, does so for
    programs. -/
theorem run_translate_sim {τ : Type} {R : σ → τ → Prop} {t : ∀ {β : Type}, Op β → Prog Op' β}
    (h : ∀ {β : Type}, σ → Op β → β × σ) (h' : ∀ {β : Type}, τ → Op' β → β × τ)
    (ht : ∀ {β : Type} (s : σ) (u : τ) (op : Op β), R s u →
      (run h' u (t op)).1 = (h s op).1 ∧ R (h s op).2 (run h' u (t op)).2)
    (p : Prog Op α) {s : σ} {u : τ} (hs : R s u) :
    (run h' u (translate t p)).1 = (run h s p).1 ∧
      R (run h s p).2 (run h' u (translate t p)).2 := by
  induction p generalizing s u with
  | ret a => exact ⟨rfl, hs⟩
  | call op k ih =>
    obtain ⟨hanswer, hstate⟩ := ht s u op hs
    rw [translate, run_bind, hanswer]
    exact ih _ hstate

/-- Handlers that answer alike in related states and keep the states related, do so for
    programs. -/
theorem run_sim {τ : Type} {R : σ → τ → Prop}
    (h : ∀ {β : Type}, σ → Op β → β × σ) (h' : ∀ {β : Type}, τ → Op β → β × τ)
    (ht : ∀ {β : Type} (s : σ) (u : τ) (op : Op β), R s u →
      (h' u op).1 = (h s op).1 ∧ R (h s op).2 (h' u op).2)
    (p : Prog Op α) {s : σ} {u : τ} (hs : R s u) :
    (run h' u p).1 = (run h s p).1 ∧ R (run h s p).2 (run h' u p).2 := by
  induction p generalizing s u with
  | ret a => exact ⟨rfl, hs⟩
  | call op k ih =>
    obtain ⟨hanswer, hstate⟩ := ht s u op hs
    rw [run, run, hanswer]
    exact ih _ hstate

/-- What each turn of a loop does, put together as `R` allows, is what the loop does. -/
theorem run_forM {γ : Type} {h : ∀ {β : Type}, σ → Op β → β × σ} {R : List γ → σ → σ → Prop}
    (hnil : ∀ s, R [] s s)
    (htrans : ∀ {as bs s s' s''}, R as s s' → R bs s' s'' → R (as ++ bs) s s'')
    {f : α → Prog Op Unit} {g : α → List γ} (xs : List α)
    (hf : ∀ x ∈ xs, ∀ s, R (g x) s (run h s (f x)).2) (s : σ) :
    R (xs.flatMap g) s (run h s (xs.forM f)).2 := by
  induction xs generalizing s with
  | nil => exact hnil s
  | cons x xs ih =>
    have hrun : run h s ((x :: xs).forM f) = run h (run h s (f x)).2 (xs.forM f) :=
      run_bind (f x) fun _ => xs.forM f
    rw [hrun]
    exact htrans (hf x List.mem_cons_self s) (ih (fun y hy => hf y (List.mem_cons_of_mem x hy)) _)

/-! ## Relying on the answers -/

/-- If operations are answered as `A` allows, the program performs only operations that satisfy
    `P` and returns a value that satisfies `Q`. -/
def Safe (A : ∀ {β : Type}, Op β → β → Prop) (P : ∀ {β : Type}, Op β → Prop) (Q : α → Prop) :
    Prog Op α → Prop
  | .ret a => Q a
  | .call op k => P op ∧ ∀ b, A op b → Safe A P Q (k b)

section
variable {A : ∀ {β : Type}, Op β → β → Prop} {P : ∀ {β : Type}, Op β → Prop}

theorem safe_pure {Q : α → Prop} {a : α} (h : Q a) : Safe A P Q (pure a : Prog Op α) := h

theorem safe_perform {Q : α → Prop} {op : Op α} (hop : P op) (h : ∀ b, A op b → Q b) :
    Safe A P Q (perform op : Prog Op α) := ⟨hop, h⟩

theorem Safe.bind {R : α → Prop} {Q : β → Prop} {p : Prog Op α} {f : α → Prog Op β}
    (hp : Safe A P R p) (hf : ∀ a, R a → Safe A P Q (f a)) : Safe A P Q (p >>= f) := by
  induction p with
  | ret a => exact hf a hp
  | call op k ih => exact ⟨hp.1, fun b hb => ih b (hp.2 b hb)⟩

@[simp] theorem safe_pure_iff {Q : α → Prop} {a : α} :
    Safe A P Q (pure a : Prog Op α) ↔ Q a := Iff.rfl

@[simp] theorem safe_perform_iff {Q : α → Prop} {op : Op α} :
    Safe A P Q (perform op : Prog Op α) ↔ P op ∧ ∀ b, A op b → Q b := Iff.rfl

/-- A sequence is safe if its first part ends where the rest is safe. -/
@[simp] theorem safe_bind_iff {Q : β → Prop} {p : Prog Op α} {f : α → Prog Op β} :
    Safe A P Q (p >>= f) ↔ Safe A P (fun a => Safe A P Q (f a)) p := by
  induction p with
  | ret a => exact Iff.rfl
  | call op k ih => exact and_congr_right fun _ => forall_congr' fun b => imp_congr_right fun _ => ih b

theorem safe_ite_iff {Q : α → Prop} {c : Prop} [Decidable c] {p q : Prog Op α} :
    Safe A P Q (if c then p else q) ↔ (c → Safe A P Q p) ∧ (¬ c → Safe A P Q q) := by
  split
  · next h => simp [h]
  · next h => simp [h]

theorem Safe.mono {Q R : α → Prop} {p : Prog Op α} (hp : Safe A P Q p) (h : ∀ a, Q a → R a) :
    Safe A P R p := by
  induction p with
  | ret a => exact h a hp
  | call op k ih => exact ⟨hp.1, fun b hb => ih b (hp.2 b hb)⟩

theorem Only.mono {Q : ∀ {β : Type}, Op β → Prop} {p : Prog Op α} (hp : Only P p)
    (h : ∀ {β : Type} (op : Op β), P op → Q op) : Only Q p := by
  induction p with
  | ret a => trivial
  | call op k ih => exact ⟨h op hp.1, fun b => ih b (hp.2 b)⟩

/-- An invariant that the operations of a program keep holds after a run of it. -/
theorem Only.run_inv {h : ∀ {β : Type}, σ → Op β → β × σ} {I : σ → Prop}
    (hstep : ∀ {β : Type} (s : σ) (op : Op β), I s → P op → I (h s op).2) {p : Prog Op α}
    (hp : Only P p) {s : σ} (hs : I s) : I (run h s p).2 := by
  induction p generalizing s with
  | ret a => exact hs
  | call op k ih => exact ih _ (hp.2 _) (hstep s op hs hp.1)

/-- A program that performs such operations only, whatever the answers, is safe. -/
theorem Only.safe {p : Prog Op α} (hp : Only P p) : Safe A P (fun _ => True) p := by
  induction p with
  | ret a => trivial
  | call op k ih => exact ⟨hp.1, fun b _ => ih b (hp.2 b)⟩

/-- The next operation of a safe program satisfies `P`. -/
theorem Safe.next {Q : α → Prop} {op : Op β} {k : β → Prog Op α}
    (h : Safe A P Q (.call op k)) : P op := h.1

/-- A program stays safe while it is run one operation at a time. -/
theorem Safe.advance {Q : α → Prop} {p : Prog Op α} (hp : Safe A P Q p)
    {h : ∀ {β : Type}, σ → Op β → β × σ} {s : σ}
    (hs : ∀ {β : Type} (op : Op β), A op (h s op).1) : Safe A P Q (p.advance h s).1 := by
  cases p with
  | ret a => exact hp
  | call op k => exact hp.2 _ (hs op)

end

/-- Translating operations to safe programs keeps a program safe. -/
theorem Safe.translate {A : ∀ {β : Type}, Op β → β → Prop} {P : ∀ {β : Type}, Op β → Prop}
    {A' : ∀ {β : Type}, Op' β → β → Prop} {P' : ∀ {β : Type}, Op' β → Prop}
    {t : ∀ {β : Type}, Op β → Prog Op' β}
    (ht : ∀ {β : Type} (op : Op β), P op → Safe A' P' (A op) (t op)) {Q : α → Prop}
    {p : Prog Op α} (hp : Safe A P Q p) : Safe A' P' Q (p.translate t) := by
  induction p with
  | ret a => exact hp
  | call op k ih => exact (ht op hp.1).bind fun b hb => ih b (hp.2 b hb)

end Prog
