-- SUMMARY: Finite maps with a fixed capacity: lookup, update, in-place modification, deletion, and their lookup lemmas.
import Mathlib.Data.List.Nodup
import Mathlib.Data.List.Perm.Subperm
import Mathlib.Logic.Function.Basic
import Mathlib.Tactic.Tauto

/-!
# Bounded maps

A key-value table that refuses a new key once it is full. Updating a key that
is already present always succeeds. The table is a list of entries, so that
every operation can be evaluated; all reasoning goes through `lookup`.
-/

/-- A finite map with at most `cap` entries, in which a key occurs at most once. -/
structure BoundedMap (K V : Type) (cap : Nat) where
  entries : List (K × V)
  nodup : (entries.map Prod.fst).Nodup
  bounded : entries.length ≤ cap

namespace BoundedMap

variable {K V : Type} [DecidableEq K] {cap : Nat}

/-! ## Association lists -/

/-- Apply `f` to the value stored under `k`, if any. -/
def assocModify (k : K) (f : V → V) (l : List (K × V)) : List (K × V) :=
  l.map fun e => if e.1 = k then (e.1, f e.2) else e

/-- Drop the entries whose key is `k`. -/
def assocErase (k : K) (l : List (K × V)) : List (K × V) :=
  l.filter fun e => e.1 ≠ k

theorem assocModify_keys (k : K) (f : V → V) (l : List (K × V)) :
    (assocModify k f l).map Prod.fst = l.map Prod.fst := by
  rw [assocModify, List.map_map]
  apply List.map_congr_left
  intro e _
  simp only [Function.comp]
  split <;> rfl

theorem lookup_cons_if (j a : K) (v : V) (l : List (K × V)) :
    List.lookup j ((a, v) :: l) = if j = a then some v else l.lookup j := by
  rw [List.lookup_cons]
  by_cases h : j = a
  · simp [h]
  · rw [beq_false_of_ne h, if_neg h]

theorem lookup_assocModify (k j : K) (f : V → V) (l : List (K × V)) :
    (assocModify k f l).lookup j = if j = k then (l.lookup k).map f else l.lookup j := by
  induction l with
  | nil => simp [assocModify]
  | cons e l ih =>
    obtain ⟨a, v⟩ := e
    have hcons : assocModify k f ((a, v) :: l) =
        (a, if a = k then f v else v) :: assocModify k f l := by
      simp only [assocModify, List.map_cons]
      split <;> rfl
    rw [hcons, lookup_cons_if, lookup_cons_if, lookup_cons_if, ih]
    by_cases hjk : j = k
    · subst hjk
      by_cases hja : j = a
      · simp [hja]
      · simp [hja]
    · by_cases hja : j = a
      · subst hja
        simp [hjk]
      · simp [hjk, hja]

theorem lookup_assocErase (k j : K) (l : List (K × V)) :
    (assocErase k l).lookup j = if j = k then none else l.lookup j := by
  induction l with
  | nil => simp [assocErase]
  | cons e l ih =>
    obtain ⟨a, v⟩ := e
    by_cases hak : a = k
    · have hcons : assocErase k ((a, v) :: l) = assocErase k l := by
        simp [assocErase, hak]
      rw [hcons, ih, lookup_cons_if, hak]
      split <;> rfl
    · have hcons : assocErase k ((a, v) :: l) = (a, v) :: assocErase k l := by
        simp [assocErase, hak]
      rw [hcons, lookup_cons_if, lookup_cons_if, ih]
      by_cases hja : j = a
      · subst hja
        simp [hak]
      · simp [hja]

theorem lookup_eq_none_iff_keys (k : K) (l : List (K × V)) :
    l.lookup k = none ↔ k ∉ l.map Prod.fst := by
  induction l with
  | nil => simp
  | cons e l ih =>
    obtain ⟨a, v⟩ := e
    rw [lookup_cons_if, List.map_cons, List.mem_cons, not_or, ← ih]
    by_cases h : k = a <;> simp [h]

/-- With distinct keys the order of the entries does not matter. -/
theorem lookup_of_perm {α β : Type} [BEq α] [LawfulBEq α] {l₁ l₂ : List (α × β)}
    (h : l₁.Perm l₂) (hnodup : (l₁.map Prod.fst).Nodup) (k : α) : l₁.lookup k = l₂.lookup k := by
  induction h with
  | nil => rfl
  | cons e _ ih => rw [List.lookup_cons, List.lookup_cons, ih (List.nodup_cons.mp hnodup).2]
  | swap e₁ e₂ l =>
    have hne : e₂.1 ≠ e₁.1 := fun heq => (List.nodup_cons.mp hnodup).1 (heq ▸ List.mem_cons_self)
    rw [List.lookup_cons, List.lookup_cons, List.lookup_cons, List.lookup_cons]
    cases h₁ : k == e₁.1 with
    | false => rfl
    | true =>
      have h₂ : (k == e₂.1) = false := by
        rw [beq_eq_false_iff_ne, eq_of_beq h₁]
        exact hne.symm
      rw [h₂]
  | trans h₁₂ _ ih₁ ih₂ =>
    exact (ih₁ hnodup).trans (ih₂ ((h₁₂.map Prod.fst).nodup_iff.mp hnodup))

theorem assocErase_of_not_mem {k : K} {l : List (K × V)} (h : k ∉ l.map Prod.fst) :
    assocErase k l = l := by
  rw [assocErase, List.filter_eq_self]
  intro e he
  simpa using fun hk : e.1 = k => h (hk ▸ List.mem_map_of_mem he)

theorem assocErase_assocModify (k : K) (f : V → V) (l : List (K × V)) :
    assocErase k (assocModify k f l) = assocErase k l := by
  induction l with
  | nil => rfl
  | cons e l ih =>
    by_cases h : e.1 = k
    · simpa [assocErase, assocModify, h] using ih
    · simpa [assocErase, assocModify, h] using ih

/-! ## Operations -/

/-- The table without entries. -/
def empty : BoundedMap K V cap where
  entries := []
  nodup := List.nodup_nil
  bounded := Nat.zero_le _

def lookup (m : BoundedMap K V cap) (k : K) : Option V := m.entries.lookup k

def size (m : BoundedMap K V cap) : Nat := m.entries.length

/-- A write to `k` finds room: the key is present or the table is not full. -/
def HasRoom (m : BoundedMap K V cap) (k : K) : Prop :=
  (m.lookup k).isSome = true ∨ m.size < cap

instance (m : BoundedMap K V cap) (k : K) : Decidable (m.HasRoom k) :=
  inferInstanceAs (Decidable (_ ∨ _))

/-- Change the value stored under `k` in place. -/
def modify (m : BoundedMap K V cap) (k : K) (f : V → V) : BoundedMap K V cap where
  entries := assocModify k f m.entries
  nodup := by rw [assocModify_keys]; exact m.nodup
  bounded := by simpa [assocModify] using m.bounded

/-- Remove the entry of `k`, if any. -/
def erase (m : BoundedMap K V cap) (k : K) : BoundedMap K V cap where
  entries := assocErase k m.entries
  nodup := m.nodup.sublist (List.filter_sublist.map _)
  bounded := Nat.le_trans (List.length_filter_le _ _) m.bounded

/-- Store `v` under `k`; `none` when `k` is new and the table is full. -/
def update (m : BoundedMap K V cap) (k : K) (v : V) : Option (BoundedMap K V cap) :=
  match h : m.lookup k with
  | some _ => some (m.modify k fun _ => v)
  | none =>
    if hroom : m.entries.length < cap then
      some {
        entries := (k, v) :: m.entries
        nodup := List.nodup_cons.mpr ⟨(lookup_eq_none_iff_keys k m.entries).mp h, m.nodup⟩
        bounded := hroom }
    else none

/-- Store `v` under `k`, leaving the table as it is when there is no room. -/
def put (m : BoundedMap K V cap) (k : K) (v : V) : BoundedMap K V cap :=
  (m.update k v).getD m

/-- Remove the entry of `k`; `none` when there is none. -/
def delete (m : BoundedMap K V cap) (k : K) : Option (BoundedMap K V cap) :=
  if (m.lookup k).isSome then some (m.erase k) else none

/-! ## Lookup lemmas -/

theorem lookup_modify (m : BoundedMap K V cap) (k j : K) (f : V → V) :
    (m.modify k f).lookup j = if j = k then (m.lookup k).map f else m.lookup j :=
  lookup_assocModify k j f m.entries

theorem lookup_erase (m : BoundedMap K V cap) (k j : K) :
    (m.erase k).lookup j = if j = k then none else m.lookup j :=
  lookup_assocErase k j m.entries

@[simp] theorem lookup_erase_self (m : BoundedMap K V cap) (k : K) :
    (m.erase k).lookup k = none := by
  simp [lookup_erase]

/-- What is left behind an erasure was there before, under another key. -/
theorem lookup_of_erase {m : BoundedMap K V cap} {k j : K} {v : V}
    (h : (m.erase k).lookup j = some v) : j ≠ k ∧ m.lookup j = some v := by
  rw [lookup_erase] at h
  split at h
  · cases h
  · next hne => exact ⟨hne, h⟩

theorem lookup_update {m m' : BoundedMap K V cap} {k : K} {v : V} (h : m.update k v = some m')
    (j : K) : m'.lookup j = if j = k then some v else m.lookup j := by
  unfold update at h
  split at h
  · next w hk =>
    obtain rfl := Option.some.inj h
    rw [lookup_modify, hk]
    rfl
  · split at h
    · obtain rfl := Option.some.inj h
      exact lookup_cons_if j k v m.entries
    · cases h

theorem update_isSome_iff (m : BoundedMap K V cap) (k : K) (v : V) :
    (m.update k v).isSome = true ↔ m.HasRoom k := by
  unfold update HasRoom size
  split
  · next w hk => simp [hk]
  · next hk =>
    split
    · next hroom => simp [hroom]
    · next hroom => simp [hk, hroom]

theorem update_eq_none_iff (m : BoundedMap K V cap) (k : K) (v : V) :
    m.update k v = none ↔ ¬ m.HasRoom k := by
  rw [← update_isSome_iff m k v]
  cases m.update k v <;> simp

theorem lookup_put (m : BoundedMap K V cap) (k j : K) (v : V) :
    (m.put k v).lookup j = if j = k ∧ m.HasRoom k then some v else m.lookup j := by
  unfold put
  cases hu : m.update k v with
  | none =>
    have hroom := (update_eq_none_iff m k v).mp hu
    simp [hroom]
  | some m' =>
    have hroom : m.HasRoom k := (update_isSome_iff m k v).mp (by rw [hu]; rfl)
    simp [lookup_update hu, hroom]

theorem lookup_put_self (m : BoundedMap K V cap) {k : K} (v : V) (h : m.HasRoom k) :
    (m.put k v).lookup k = some v := by
  simp [lookup_put, h]

theorem isSome_put_iff (m : BoundedMap K V cap) (k j : K) (v : V) :
    ((m.put k v).lookup j).isSome = true ↔
      (j = k ∧ m.HasRoom k) ∨ (m.lookup j).isSome = true := by
  rw [lookup_put]
  split
  · next hput => simp [hput.1, hput.2]
  · next hput => simp [hput]

theorem isSome_put (m : BoundedMap K V cap) (j : K) {k : K} (h : m.HasRoom k) (v : V) :
    ((m.put k v).lookup j).isSome = if j = k then true else (m.lookup j).isSome := by
  rw [lookup_put]
  by_cases hj : j = k
  · simp [hj, h]
  · simp [hj]

theorem isSome_erase (m : BoundedMap K V cap) (k j : K) :
    ((m.erase k).lookup j).isSome = if j = k then false else (m.lookup j).isSome := by
  rw [lookup_erase]
  by_cases hj : j = k
  · simp [hj]
  · simp [hj]

theorem lookup_put_eq_update (m : BoundedMap K V cap) {k : K} (h : m.HasRoom k) (v : V) :
    (m.put k v).lookup = Function.update m.lookup k (some v) := by
  funext j
  rw [lookup_put, Function.update_apply]
  simp [h]

theorem lookup_erase_eq_update (m : BoundedMap K V cap) (k : K) :
    (m.erase k).lookup = Function.update m.lookup k none := by
  funext j
  rw [lookup_erase, Function.update_apply]

theorem delete_eq_none_iff (m : BoundedMap K V cap) (k : K) :
    m.delete k = none ↔ m.lookup k = none := by
  unfold delete
  cases m.lookup k <;> simp

omit [DecidableEq K] in
theorem ext_entries {m m' : BoundedMap K V cap} (h : m.entries = m'.entries) : m = m' := by
  cases m
  cases m'
  congr

theorem erase_of_lookup_none {m : BoundedMap K V cap} {k : K} (h : m.lookup k = none) :
    m.erase k = m :=
  ext_entries (assocErase_of_not_mem ((lookup_eq_none_iff_keys k m.entries).mp h))

/-- Erasing undoes a `put`. -/
theorem erase_put (m : BoundedMap K V cap) (k : K) (v : V) : (m.put k v).erase k = m.erase k := by
  apply ext_entries
  unfold put update
  split
  · exact assocErase_assocModify k (fun _ => v) m.entries
  · split
    · simp [erase, assocErase]
    · rfl

/-- An update that finds room is a `put`. -/
theorem update_eq_some_put {m : BoundedMap K V cap} {k : K} (v : V) (h : m.HasRoom k) :
    m.update k v = some (m.put k v) := by
  obtain ⟨m', hm'⟩ := Option.isSome_iff_exists.mp ((update_isSome_iff m k v).mpr h)
  rw [put, hm']
  rfl

/-! ## Occupancy -/

def keys (m : BoundedMap K V cap) : List K := m.entries.map Prod.fst

theorem mem_keys_iff (m : BoundedMap K V cap) (k : K) :
    k ∈ m.keys ↔ (m.lookup k).isSome = true := by
  rw [← not_iff_not, keys, ← lookup_eq_none_iff_keys, lookup, Option.not_isSome_iff_eq_none]

theorem keys_erase (m : BoundedMap K V cap) (k : K) :
    (m.erase k).keys = m.keys.filter fun j => j ≠ k := by
  rw [keys, keys, List.filter_map]
  rfl

theorem keys_modify (m : BoundedMap K V cap) (k : K) (f : V → V) : (m.modify k f).keys = m.keys :=
  assocModify_keys k f m.entries

theorem keys_put (m : BoundedMap K V cap) (k : K) (v : V) :
    (m.put k v).keys = if k ∈ m.keys ∨ ¬ m.size < cap then m.keys else k :: m.keys := by
  have hmem := mem_keys_iff m k
  unfold put update
  split
  · next w hk =>
    have hin : k ∈ m.keys := hmem.mpr (by rw [hk]; rfl)
    rw [if_pos (Or.inl hin), Option.getD_some, keys_modify]
  · next hk =>
    rw [hk] at hmem
    have hnot : k ∉ m.keys := fun hin => absurd (hmem.mp hin) (by simp)
    split
    · next hroom =>
      have hspace : m.size < cap := hroom
      rw [if_neg (by simp [hnot, hspace])]
      rfl
    · next hroom =>
      have hfull : ¬ m.size < cap := hroom
      rw [if_pos (Or.inr hfull)]
      rfl

omit [DecidableEq K] in
theorem length_keys (m : BoundedMap K V cap) : m.keys.length = m.size := List.length_map _

/-- A table is no larger than a list that has all its keys. -/
theorem size_le_of_subset {m : BoundedMap K V cap} {l : List K}
    (h : ∀ k, (m.lookup k).isSome = true → k ∈ l) : m.size ≤ l.length := by
  rw [← length_keys]
  refine (List.subperm_of_subset m.nodup ?_).length_le
  intro k hk
  exact h k ((mem_keys_iff m k).mp hk)

/-- A table is as large as a list of just its keys. -/
theorem size_eq_length {m : BoundedMap K V cap} {l : List K} (hl : l.Nodup)
    (h : ∀ k, (m.lookup k).isSome = true ↔ k ∈ l) : m.size = l.length := by
  refine Nat.le_antisymm (size_le_of_subset fun k => (h k).mp) ?_
  rw [← length_keys]
  exact (List.subperm_of_subset hl fun k hk => (mem_keys_iff m k).mpr ((h k).mpr hk)).length_le

/-- A key of a list that has all keys of the table and fits it finds room. -/
theorem hasRoom_of_subset {m : BoundedMap K V cap} {l : List K} (hl : l.length ≤ cap)
    (h : ∀ k, (m.lookup k).isSome = true → k ∈ l) {k : K} (hk : k ∈ l) : m.HasRoom k := by
  refine or_iff_not_imp_left.mpr fun hnone => Nat.lt_of_lt_of_le ?_ hl
  have hnodup : (k :: m.keys).Nodup :=
    List.nodup_cons.mpr ⟨fun hmem => hnone ((mem_keys_iff m k).mp hmem), m.nodup⟩
  have hsub : k :: m.keys ⊆ l := by
    intro j hj
    rcases List.mem_cons.mp hj with rfl | hj
    · exact hk
    · exact h j ((mem_keys_iff m j).mp hj)
  have hlen := (List.subperm_of_subset hnodup hsub).length_le
  rwa [List.length_cons, length_keys] at hlen

/-! ## Iteration -/

/-- The key after `prev`: the first one for no key or for a key that is not there. -/
def nextKey (m : BoundedMap K V cap) : Option K → Option K
  | none => m.keys.head?
  | some prev =>
    match m.keys.dropWhile fun k => k ≠ prev with
    | [] => m.keys.head?
    | _ :: rest => rest.head?

/-- After the last of some leading keys comes the first of the others. -/
theorem nextKey_getLast? {m : BoundedMap K V cap} {visited rest : List K}
    (h : m.keys = visited ++ rest) : m.nextKey visited.getLast? = rest.head? := by
  rcases List.eq_nil_or_concat' visited with rfl | ⟨before, k, rfl⟩
  · rw [List.getLast?_nil, nextKey, h, List.nil_append]
  · have hnodup : (before ++ k :: rest).Nodup := by
      rw [List.append_cons, ← h]
      exact m.nodup
    have hbefore : ∀ j ∈ before, j ≠ k := by
      rintro j hj rfl
      exact (List.nodup_append.mp hnodup).2.2 j hj j List.mem_cons_self rfl
    have hdrop : m.keys.dropWhile (fun j => j ≠ k) = k :: rest := by
      rw [h, ← List.append_cons, List.dropWhile_append_of_pos (by simpa using hbefore)]
      simp
    rw [List.getLast?_concat, nextKey, hdrop]

/-- A key that is there is followed by the one that comes after it. -/
theorem exists_of_nextKey {m : BoundedMap K V cap} {k j : K} (hk : k ∈ m.keys)
    (h : m.nextKey (some k) = some j) : ∃ before behind, m.keys = before ++ k :: j :: behind := by
  obtain ⟨before, rest, hkeys⟩ := List.append_of_mem hk
  have hkeys' : m.keys = (before ++ [k]) ++ rest := by rw [hkeys, List.append_cons]
  have hnext := nextKey_getLast? hkeys'
  rw [List.getLast?_concat, h] at hnext
  cases rest with
  | nil => cases hnext
  | cons i behind =>
    rw [List.head?_cons] at hnext
    obtain rfl := Option.some.inj hnext
    exact ⟨before, behind, hkeys⟩

/-- Put the first entry, which is the one inserted last, behind `slot` others. -/
def place (m : BoundedMap K V cap) (slot : Nat) : BoundedMap K V cap :=
  have hperm : ((m.entries.tail.take slot) ++ m.entries.take 1 ++ m.entries.tail.drop slot).Perm
      m.entries := by
    have htail : (m.entries.take 1 ++ m.entries.tail).Perm m.entries := by
      rw [← List.drop_one, List.take_append_drop]
    refine List.Perm.trans ?_ htail
    refine (List.perm_append_comm.append_right _).trans ?_
    rw [List.append_assoc, List.take_append_drop]
  { entries := m.entries.tail.take slot ++ m.entries.take 1 ++ m.entries.tail.drop slot
    nodup := (hperm.map Prod.fst).nodup_iff.mpr m.nodup
    bounded := by rw [hperm.length_eq]; exact m.bounded }

omit [DecidableEq K] in
theorem keys_place (m : BoundedMap K V cap) (slot : Nat) :
    (m.place slot).keys = m.keys.tail.take slot ++ m.keys.take 1 ++ m.keys.tail.drop slot := by
  simp only [place, keys, List.map_append, List.map_take, List.map_drop, List.map_tail]

/-- Every key of `m` is a key of `m'`. -/
def Within (m m' : BoundedMap K V cap) : Prop :=
  ∀ k, (m.lookup k).isSome = true → (m'.lookup k).isSome = true

theorem Within.refl (m : BoundedMap K V cap) : m.Within m := fun _ h => h

theorem Within.trans {m₁ m₂ m₃ : BoundedMap K V cap} (h : m₁.Within m₂) (h' : m₂.Within m₃) :
    m₁.Within m₃ := fun k hk => h' k (h k hk)

theorem Within.size_le {m m' : BoundedMap K V cap} (h : m.Within m') : m.size ≤ m'.size := by
  rw [← length_keys m']
  exact size_le_of_subset fun k hk => (mem_keys_iff m' k).mpr (h k hk)

/-- A table that lacks a key of a table it is within is smaller. -/
theorem size_lt_of_within {m m' : BoundedMap K V cap} (h : m.Within m') {k : K}
    (hk : m.lookup k = none) (hk' : (m'.lookup k).isSome = true) : m.size < m'.size := by
  have hnodup : (k :: m.keys).Nodup := by
    refine List.nodup_cons.mpr ⟨fun hmem => ?_, m.nodup⟩
    rw [mem_keys_iff, hk] at hmem
    cases hmem
  have hsub : k :: m.keys ⊆ m'.keys := by
    intro j hj
    rcases List.mem_cons.mp hj with rfl | hj
    · exact (mem_keys_iff m' j).mpr hk'
    · exact (mem_keys_iff m' j).mpr (h j ((mem_keys_iff m j).mp hj))
  have hlen := (List.subperm_of_subset hnodup hsub).length_le
  rwa [List.length_cons, length_keys, length_keys] at hlen

/-- Tables with the same keys have the same room. -/
theorem hasRoom_congr {V' : Type} {m : BoundedMap K V cap} {m' : BoundedMap K V' cap}
    (h : ∀ k, (m.lookup k).isSome = (m'.lookup k).isSome) (k : K) : m.HasRoom k ↔ m'.HasRoom k := by
  have hsize : m.size = m'.size := by
    rw [← length_keys m']
    refine size_eq_length m'.nodup fun k => ?_
    rw [h, mem_keys_iff]
  rw [HasRoom, HasRoom, h, hsize]

theorem within_put (m : BoundedMap K V cap) (k : K) (v : V) : m.Within (m.put k v) := by
  intro j hj
  rw [lookup_put]
  split
  · rfl
  · exact hj

/-- Writing keys that all fit adds just these keys. -/
theorem lookup_foldl_put {l : List K} (hl : l.length ≤ cap) {v : V} (ks : List K)
    {m : BoundedMap K V cap} (hm : ∀ k, (m.lookup k).isSome = true → k ∈ l) (hks : ks ⊆ l)
    (k : K) :
    ((ks.foldl (fun m k => m.put k v) m).lookup k).isSome = true ↔
      (m.lookup k).isSome = true ∨ k ∈ ks := by
  induction ks generalizing m with
  | nil => simp
  | cons a ks ih =>
    obtain ⟨ha, hks⟩ := List.cons_subset.mp hks
    have hroom : m.HasRoom a := hasRoom_of_subset hl hm ha
    have hput : ∀ j, ((m.put a v).lookup j).isSome = true ↔ j = a ∨ (m.lookup j).isSome = true := by
      intro j
      rw [lookup_put]
      by_cases hj : j = a
      · simp [hj, hroom]
      · simp [hj]
    have hsub : ∀ j, ((m.put a v).lookup j).isSome = true → j ∈ l := by
      intro j hj
      rcases (hput j).mp hj with rfl | hj
      · exact ha
      · exact hm j hj
    rw [List.foldl_cons, ih hsub hks, hput, List.mem_cons]
    tauto

end BoundedMap
