-- SUMMARY: Records whose fields are overwritten one by one and whose lists only grow, and what a sequence of updates leaves.
import Mathlib.Data.List.Basic

/-!
# Independent fields

A record is seen through fields of different types, each read and overwritten
on its own, and through lists that are only appended to. A sequence of updates
leaves in a field what was put there last, and at the end of a list everything
that was appended to it, in order.
-/

universe u v w x y

/-- Fields that are overwritten and lists that grow, which together make up the record. -/
structure Fields (S : Type u) (K : Type v) (V : K → Type w) (I : Type x) (A : Type y) where
  get : (k : K) → S → V k
  put : (k : K) → V k → S → S
  list : I → S → List A
  append : I → List A → S → S
  get_put_self : ∀ k v s, get k (put k v s) = v
  get_put_of_ne : ∀ {k j} v s, j ≠ k → get k (put j v s) = get k s
  get_append : ∀ k i items s, get k (append i items s) = get k s
  list_put : ∀ i k v s, list i (put k v s) = list i s
  list_append_self : ∀ i items s, list i (append i items s) = list i s ++ items
  list_append_of_ne : ∀ {i j} items s, j ≠ i → list i (append j items s) = list i s
  ext : ∀ {s t}, (∀ k, get k s = get k t) → (∀ i, list i s = list i t) → s = t

namespace Fields

variable {S : Type u} {K : Type v} {V : K → Type w} {I : Type x} {A : Type y}

inductive Update (V : K → Type w) (I : Type x) (A : Type y) where
  | set (k : K) (v : V k)
  | append (i : I) (items : List A)

/-- The value that an update puts into a field. -/
def Update.valueFor [DecidableEq K] (k : K) : Update V I A → Option (V k)
  | .set j v => if h : j = k then some (h ▸ v) else none
  | .append _ _ => none

/-- The items that an update appends to a list. -/
def Update.itemsFor [DecidableEq I] (i : I) : Update V I A → List A
  | .set _ _ => []
  | .append j items => if j = i then items else []

/-- The last value that is put into a field. -/
def lastSet [DecidableEq K] (k : K) : List (Update V I A) → Option (V k)
  | [] => none
  | u :: us => (lastSet k us).or (u.valueFor k)

/-- Everything that is appended to a list. -/
def appended [DecidableEq I] (i : I) (us : List (Update V I A)) : List A :=
  us.flatMap (Update.itemsFor i)

section
variable [DecidableEq K]

@[simp] theorem valueFor_set_self (k : K) (v : V k) :
    (Update.set k v : Update V I A).valueFor k = some v := by
  simp [Update.valueFor]

theorem valueFor_set_of_ne {k j : K} (h : j ≠ k) (v : V j) :
    (Update.set j v : Update V I A).valueFor k = none := by
  simp [Update.valueFor, h]

theorem lastSet_append (k : K) (us vs : List (Update V I A)) :
    lastSet k (us ++ vs) = (lastSet k vs).or (lastSet k us) := by
  induction us with
  | nil => simp [lastSet]
  | cons u us ih => rw [List.cons_append, lastSet, lastSet, ih, Option.or_assoc]

theorem lastSet_eq_none {k : K} {us : List (Update V I A)} (h : ∀ u ∈ us, u.valueFor k = none) :
    lastSet k us = none := by
  induction us with
  | nil => rfl
  | cons u us ih =>
    rw [List.forall_mem_cons] at h
    rw [lastSet, ih h.2, h.1, Option.none_or]

/-- Where every update puts the value of one record, that is the last one. -/
theorem lastSet_map_set (value : (k : K) → V k) {k : K} {ks : List K} (h : k ∈ ks) :
    lastSet k (ks.map fun j => (.set j (value j) : Update V I A)) = some (value k) := by
  induction ks with
  | nil => cases h
  | cons j ks ih =>
    rw [List.map_cons, lastSet]
    by_cases hmem : k ∈ ks
    · rw [ih hmem, Option.some_or]
    · obtain rfl : k = j := (List.mem_cons.mp h).resolve_right hmem
      have hnone : lastSet k (ks.map fun j => (.set j (value j) : Update V I A)) = none := by
        refine lastSet_eq_none fun u hu => ?_
        obtain ⟨i, hi, rfl⟩ := List.mem_map.mp hu
        have hne : i ≠ k := fun heq => hmem (heq ▸ hi)
        exact valueFor_set_of_ne hne _
      rw [hnone, Option.none_or, valueFor_set_self]

end

section
variable [DecidableEq I]

@[simp] theorem itemsFor_set (i : I) (k : K) (v : V k) :
    (Update.set k v : Update V I A).itemsFor i = [] := rfl

theorem itemsFor_append (i j : I) (items : List A) :
    (Update.append j items : Update V I A).itemsFor i = if j = i then items else [] := rfl

theorem appended_append (i : I) (us vs : List (Update V I A)) :
    appended i (us ++ vs) = appended i us ++ appended i vs := List.flatMap_append

end

variable (F : Fields S K V I A)

def apply (s : S) : Update V I A → S
  | .set k v => F.put k v s
  | .append i items => F.append i items s

def run (s : S) (us : List (Update V I A)) : S := us.foldl F.apply s

@[simp] theorem run_nil (s : S) : F.run s [] = s := rfl

@[simp] theorem run_cons (s : S) (u : Update V I A) (us : List (Update V I A)) :
    F.run s (u :: us) = F.run (F.apply s u) us := rfl

theorem run_append (s : S) (us vs : List (Update V I A)) :
    F.run s (us ++ vs) = F.run (F.run s us) vs := List.foldl_append

section
variable [DecidableEq K]

theorem get_apply (k : K) (s : S) (u : Update V I A) :
    F.get k (F.apply s u) = (u.valueFor k).getD (F.get k s) := by
  cases u with
  | append i items => exact F.get_append k i items s
  | set j v =>
    by_cases h : j = k
    · subst h
      rw [valueFor_set_self]
      exact F.get_put_self j v s
    · rw [valueFor_set_of_ne h]
      exact F.get_put_of_ne v s h

/-- A field holds what was put into it last. -/
theorem get_run (k : K) (s : S) (us : List (Update V I A)) :
    F.get k (F.run s us) = (lastSet k us).getD (F.get k s) := by
  induction us generalizing s with
  | nil => rfl
  | cons u us ih =>
    rw [run_cons, ih, lastSet, get_apply]
    cases lastSet k us with
    | none => rw [Option.none_or, Option.getD_none]
    | some v => rfl

end

section
variable [DecidableEq I]

theorem list_apply (i : I) (s : S) (u : Update V I A) :
    F.list i (F.apply s u) = F.list i s ++ u.itemsFor i := by
  cases u with
  | set k v =>
    rw [itemsFor_set, List.append_nil]
    exact F.list_put i k v s
  | append j items =>
    rw [itemsFor_append]
    by_cases h : j = i
    · subst h
      rw [if_pos rfl]
      exact F.list_append_self j items s
    · rw [if_neg h, List.append_nil]
      exact F.list_append_of_ne items s h

/-- A list ends with everything that was appended to it. -/
theorem list_run (i : I) (s : S) (us : List (Update V I A)) :
    F.list i (F.run s us) = F.list i s ++ appended i us := by
  induction us generalizing s with
  | nil => rw [run_nil, appended, List.flatMap_nil, List.append_nil]
  | cons u us ih =>
    rw [run_cons, ih, list_apply, List.append_assoc, appended, appended, List.flatMap_cons]

end

section
variable [DecidableEq K] [DecidableEq I]

/-- The same updates lead from two records to one exactly if every field in which they differ is
    overwritten. -/
theorem run_eq_run_iff {s t : S} (us : List (Update V I A)) :
    F.run s us = F.run t us ↔
      (∀ k, F.get k s = F.get k t ∨ lastSet k us ≠ none) ∧ ∀ i, F.list i s = F.list i t := by
  constructor
  · intro h
    constructor
    · intro k
      have hk := congrArg (F.get k) h
      rw [get_run, get_run] at hk
      cases hlast : lastSet k us with
      | none =>
        rw [hlast] at hk
        exact Or.inl hk
      | some v => exact Or.inr (by simp)
    · intro i
      have hi := congrArg (F.list i) h
      rw [list_run, list_run] at hi
      exact List.append_cancel_right hi
  · rintro ⟨hget, hlist⟩
    refine F.ext (fun k => ?_) fun i => ?_
    · rw [get_run, get_run]
      rcases hget k with hk | hk
      · rw [hk]
      · obtain ⟨v, hv⟩ := Option.ne_none_iff_exists'.mp hk
        rw [hv]
        rfl
    · rw [list_run, list_run, hlist i]

/-- Two values of a field, or none that is kept. -/
theorem run_put_eq_iff (k : K) (v w : V k) (s : S) (us : List (Update V I A)) :
    F.run (F.put k v s) us = F.run (F.put k w s) us ↔ v = w ∨ lastSet k us ≠ none := by
  rw [run_eq_run_iff]
  constructor
  · rintro ⟨hget, -⟩
    simpa only [F.get_put_self] using hget k
  · intro h
    refine ⟨fun j => ?_, fun i => by rw [F.list_put, F.list_put]⟩
    by_cases hj : k = j
    · subst hj
      simpa only [F.get_put_self] using h
    · rw [F.get_put_of_ne v s hj, F.get_put_of_ne w s hj]
      exact Or.inl rfl

/-- What is appended to a list stays. -/
theorem run_append_eq_iff (i : I) (xs ys : List A) (s : S) (us : List (Update V I A)) :
    F.run (F.append i xs s) us = F.run (F.append i ys s) us ↔ xs = ys := by
  constructor
  · intro h
    have hi := ((F.run_eq_run_iff us).mp h).2 i
    rw [F.list_append_self, F.list_append_self] at hi
    exact List.append_cancel_left hi
  · rintro rfl
    rfl

/-- Updates lead to a record exactly if each field holds the last value or else has it already,
    and each list is continued to the one there. -/
theorem run_eq_iff {s t : S} (us : List (Update V I A)) :
    F.run s us = t ↔
      (∀ k, (lastSet k us).getD (F.get k s) = F.get k t) ∧
        ∀ i, F.list i s ++ appended i us = F.list i t := by
  constructor
  · rintro rfl
    exact ⟨fun k => (F.get_run k s us).symm, fun i => (F.list_run i s us).symm⟩
  · rintro ⟨hget, hlist⟩
    exact F.ext (fun k => (F.get_run k s us).trans (hget k))
      fun i => (F.list_run i s us).trans (hlist i)

/-- Each field that is overwritten has the last value already, and nothing is appended. -/
def Keeps (s : S) (us : List (Update V I A)) : Prop :=
  (∀ k v, lastSet k us = some v → F.get k s = v) ∧ ∀ i, appended i us = []

theorem run_eq_self_iff {s : S} (us : List (Update V I A)) : F.run s us = s ↔ F.Keeps s us := by
  rw [run_eq_iff]
  refine and_congr (forall_congr' fun k => ?_) (forall_congr' fun i => List.append_right_eq_self)
  cases lastSet k us with
  | none => simp
  | some w => simp [eq_comm]

end

end Fields
