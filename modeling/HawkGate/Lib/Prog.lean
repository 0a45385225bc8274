-- SUMMARY: Programs as trees of operations, run to completion by a handler or one operation at a time.

/-!
# Programs

A program either returns or performs an operation and continues with its
answer. `run` executes a program without interruption against a state.
`Prog.advance` executes one operation, so that other parties can act in
between; `advance_run` says that the two readings agree.
-/

/-- A program over the operations `Op` that returns an `α`. -/
inductive Prog (Op : Type → Type) (α : Type) : Type 1 where
  | ret (a : α) : Prog Op α
  | call {β : Type} (op : Op β) (k : β → Prog Op α) : Prog Op α

namespace Prog

variable {Op : Type → Type} {σ α β : Type}

def bind : Prog Op α → (α → Prog Op β) → Prog Op β
  | .ret a, f => f a
  | .call op k, f => .call op fun b => (k b).bind f

instance : Monad (Prog Op) where
  pure := .ret
  bind := bind

/-- Perform one operation and return its answer. -/
def perform (op : Op α) : Prog Op α := .call op .ret

/-- Execute a program to its end. -/
def run (h : ∀ {β : Type}, σ → Op β → β × σ) (s : σ) : Prog Op α → α × σ
  | .ret a => (a, s)
  | .call op k => run h (h s op).2 (k (h s op).1)

/-- Execute the first operation of a program; a finished program stays as it is. -/
def advance (h : ∀ {β : Type}, σ → Op β → β × σ) (s : σ) : Prog Op α → Prog Op α × σ
  | .ret a => (.ret a, s)
  | .call op k => (k (h s op).1, (h s op).2)

section
variable {h : ∀ {β : Type}, σ → Op β → β × σ} {s : σ}

@[simp] theorem run_pure (a : α) : run h s (pure a : Prog Op α) = (a, s) := rfl

@[simp] theorem run_perform (op : Op α) : run h s (perform op) = h s op := rfl

@[simp] theorem run_bind (p : Prog Op α) (f : α → Prog Op β) :
    run h s (p >>= f) = run h (run h s p).2 (f (run h s p).1) := by
  induction p generalizing s with
  | ret a => rfl
  | call op k ih => exact ih (h s op).1

/-- Executing one operation first does not change what the whole program does. -/
theorem advance_run (p : Prog Op α) : run h (advance h s p).2 (advance h s p).1 = run h s p := by
  cases p with
  | ret a => rfl
  | call op k => rfl

end

/-! ## Operations of a program -/

/-- With some answers the program performs an operation that satisfies `P`. -/
def Performs (P : ∀ {β : Type}, Op β → Prop) : Prog Op α → Prop
  | .ret _ => False
  | .call op k => P op ∨ ∃ b, Performs P (k b)

/-- Whatever the answers, the program performs operations that satisfy `P` only. -/
def Only (P : ∀ {β : Type}, Op β → Prop) : Prog Op α → Prop
  | .ret _ => True
  | .call op k => P op ∧ ∀ b, Only P (k b)

/-- Whatever the answers, the program returns a value that satisfies `P`. -/
def Ensures (P : α → Prop) : Prog Op α → Prop
  | .ret a => P a
  | .call _ k => ∀ b, Ensures P (k b)

theorem ensures_pure {P : α → Prop} {a : α} (h : P a) : Ensures P (pure a : Prog Op α) := h

theorem ensures_true (p : Prog Op α) : Ensures (fun _ => True) p := by
  induction p with
  | ret a => trivial
  | call op k ih => exact ih

/-- After any program, one that ensures `P` whatever it is given. -/
theorem ensures_bind {P : β → Prop} (p : Prog Op α) {f : α → Prog Op β}
    (hf : ∀ a, Ensures P (f a)) : Ensures P (p >>= f) := by
  induction p with
  | ret a => exact hf a
  | call op k ih => exact fun b => ih b

theorem Ensures.bind {P : α → Prop} {Q : β → Prop} {p : Prog Op α} {f : α → Prog Op β}
    (hp : Ensures P p) (hf : ∀ a, P a → Ensures Q (f a)) : Ensures Q (p >>= f) := by
  induction p with
  | ret a => exact hf a hp
  | call op k ih => exact fun b => ih b (hp b)

theorem Ensures.run {P : α → Prop} {p : Prog Op α} (hp : Ensures P p)
    (h : ∀ {β : Type}, σ → Op β → β × σ) (s : σ) : P (p.run h s).1 := by
  induction p generalizing s with
  | ret a => exact hp
  | call op k ih => exact ih _ (hp _) _

section
variable {P Q : ∀ {β : Type}, Op β → Prop}

theorem only_pure (a : α) : Only P (pure a : Prog Op α) := trivial

theorem only_perform {op : Op α} (h : P op) : Only P (perform op : Prog Op α) :=
  ⟨h, fun _ => trivial⟩

theorem Only.bind {p : Prog Op α} {f : α → Prog Op β} (hp : Only P p) (hf : ∀ a, Only P (f a)) :
    Only P (p >>= f) := by
  induction p with
  | ret a => exact hf a
  | call op k ih => exact ⟨hp.1, fun b => ih b (hp.2 b)⟩

theorem performs_perform {op : Op α} (h : P op) : Performs P (perform op : Prog Op α) := Or.inl h

/-- The first part of a sequence performs its operations. -/
theorem Performs.bind {p : Prog Op α} (h : Performs P p) (f : α → Prog Op β) :
    Performs P (p >>= f) := by
  induction p with
  | ret a => exact h.elim
  | call op k ih =>
    rcases h with hop | ⟨b, hb⟩
    · exact Or.inl hop
    · exact Or.inr ⟨b, ih b hb⟩

theorem Only.not_performs (hne : ∀ {β : Type} (op : Op β), P op → ¬ Q op) {p : Prog Op α}
    (h : Only P p) : ¬ Performs Q p := by
  induction p with
  | ret a => exact id
  | call op k ih =>
    rintro (hop | ⟨b, hb⟩)
    · exact hne op h.1 hop
    · exact ih b (h.2 b) hb

/-- A program of operations that do the same before and after a change of the state does so. -/
theorem Only.run_map {h : ∀ {β : Type}, σ → Op β → β × σ} {f : σ → σ}
    (hf : ∀ {β : Type} (s : σ) (op : Op β), P op → h (f s) op = ((h s op).1, f (h s op).2))
    {p : Prog Op α} (hp : Only P p) (s : σ) : run h (f s) p = ((run h s p).1, f (run h s p).2) := by
  induction p generalizing s with
  | ret a => rfl
  | call op k ih =>
    rw [run, run, hf s op hp.1]
    exact ih _ (hp.2 _) _

/-- A program of operations that keep the state keeps the state. -/
theorem Only.run_state {h : ∀ {β : Type}, σ → Op β → β × σ}
    (hkeep : ∀ {β : Type} (s : σ) (op : Op β), P op → (h s op).2 = s) {p : Prog Op α}
    (hp : Only P p) (s : σ) : (run h s p).2 = s := by
  induction p generalizing s with
  | ret a => rfl
  | call op k ih =>
    rw [run, hkeep s op hp.1]
    exact ih _ (hp.2 _) s

end

end Prog
