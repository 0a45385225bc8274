-- SUMMARY: The log of the writes to a keyed store, newest first, and what its latest entries say.
import Mathlib.Data.List.Dedup

/-!
# Write logs

A store that starts empty holds, for each key, what the latest logged write to
the key gave it. Where keys are deleted too, a deletion is a write of `none`.
-/

universe u v

/-- Writes to a keyed store, newest first. -/
abbrev WriteLog (K : Type u) (V : Type v) := List (K × V)

namespace WriteLog

variable {K : Type u} {V : Type v} [DecidableEq K]

/-- The value that the latest write to the key left. -/
def latest (log : WriteLog K V) (k : K) : Option V := log.lookup k

@[simp] theorem latest_nil (k : K) : latest ([] : WriteLog K V) k = none := rfl

theorem latest_cons (w : K × V) (log : WriteLog K V) (k : K) :
    latest (w :: log) k = if k = w.1 then some w.2 else latest log k := by
  obtain ⟨j, v⟩ := w
  rw [latest, List.lookup_cons]
  by_cases hk : k = j
  · rw [hk, beq_self_eq_true, if_pos rfl]
  · rw [beq_false_of_ne hk, if_neg hk]
    rfl

theorem mem_of_latest {log : WriteLog K V} {k : K} {v : V} (h : latest log k = some v) :
    (k, v) ∈ log := by
  obtain ⟨later, earlier, rfl, -⟩ := List.lookup_eq_some_iff.mp h
  exact List.mem_append_right _ (List.mem_cons_self ..)

/-- The latest of the writes that a test selects, all of them to one key, is the latest
    write to the key if the test selects that. -/
theorem find?_of_latest {log : WriteLog K V} {k : K} {v : V} {p : K × V → Bool}
    (hkey : ∀ w, p w = true → w.1 = k) (h : latest log k = some v) (hp : p (k, v) = true) :
    log.find? p = some (k, v) := by
  obtain ⟨later, earlier, rfl, hlater⟩ := List.lookup_eq_some_iff.mp h
  have hskip : later.find? p = none := by
    rw [List.find?_eq_none]
    intro w hw hpw
    exact absurd (hkey w hpw) (bne_iff_ne.mp (hlater w hw)).symm
  rw [List.find?_append, hskip, Option.none_or, List.find?_cons_of_pos hp]

/-- A key that some write went to has a latest write. -/
theorem exists_latest_of_mem {log : WriteLog K V} {w : K × V} (h : w ∈ log) :
    ∃ v, latest log w.1 = some v := by
  induction log with
  | nil => cases h
  | cons x log ih =>
    rw [latest_cons]
    split
    · exact ⟨x.2, rfl⟩
    · next hne =>
      rcases List.mem_cons.mp h with rfl | h
      · exact absurd rfl hne
      · exact ih h

/-! ## Deletions -/

/-- The value that writes and deletions left. -/
def value (log : WriteLog K (Option V)) (k : K) : Option V := (latest log k).join

theorem value_cons (j : K) (u : Option V) (log : WriteLog K (Option V)) (k : K) :
    value ((j, u) :: log) k = if k = j then u else value log k := by
  rw [value, latest_cons]
  split <;> rfl

/-- The keys that have a value. -/
def present (log : WriteLog K (Option V)) : List K :=
  (log.map Prod.fst).dedup.filter fun k => (value log k).isSome

theorem mem_present_iff (log : WriteLog K (Option V)) (k : K) :
    k ∈ present log ↔ (value log k).isSome = true := by
  rw [present, List.mem_filter, List.mem_dedup, and_iff_right_iff_imp]
  intro h
  obtain ⟨v, hv⟩ := Option.isSome_iff_exists.mp h
  exact List.mem_map_of_mem (mem_of_latest (Option.join_eq_some_iff.mp hv))

theorem nodup_present (log : WriteLog K (Option V)) : (present log).Nodup :=
  (List.nodup_dedup _).filter _

end WriteLog
