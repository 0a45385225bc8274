-- SUMMARY: `hgctl details` for one client: the texts of its report that come from the session's times.
import HawkGate.Control.Reader

/-!
# Details of one client

`details_one_action` of `hg_control.c`. The local time of day is a parameter; the
numbers of the report, printed as the reader gives them, are left out.
-/

namespace HawkGate

open CString

variable {ncpu : Nat}

/-- The texts of the report that the session's times decide. -/
structure ClientTimes where
  authTime : CString
  expires : CString
  ttl : CString
  lastSeen : CString

/-- The time of day of a wall-clock time, or what stands for none. -/
def timeText (clockText : Int64 → CString) (absent : CString) (t : Int64) : CString :=
  if 0 < t then clockText t else absent

/-- `ttl_buf`. -/
def ttlText (ttl : Int64) : CString :=
  if ttl < 0 then "never".toList
  else if 3600 < ttl then
    "in ".toList ++ decimal (ttl / 3600).toInt.toNat ++ "h ".toList ++
      decimal (ttl % 3600 / 60).toInt.toNat ++ "m".toList
  else
    "in ".toList ++ decimal (ttl / 60).toInt.toNat ++ "m ".toList ++
      decimal (ttl % 60).toInt.toNat ++ "s".toList

/-- `none` stands for `FAILED`. -/
def detailsOneAction (clockText : Int64 → CString) (ip : CString) :
    Tool ncpu (Option ClientTimes) := do
  match ← hgReadOne ip with
  | none => pure none
  | some s =>
    pure (some {
      authTime := timeText clockText "n/a".toList s.authTime
      expires := timeText clockText "never".toList s.expiryTime
      ttl := ttlText s.ttlSec
      lastSeen := timeText clockText "n/a".toList s.lastSeen })

/-- Every negative remaining time is printed as `never`. -/
theorem ttlText_eq_never_iff (ttl : Int64) : ttlText ttl = "never".toList ↔ ttl < 0 := by
  unfold ttlText
  split
  · next hneg => simp [hneg]
  · next hneg =>
    split
    · simp [hneg]
    · simp [hneg]

theorem run_detailsOneAction (clockText : Int64 → CString) (ip : CString) (env : SysEnv)
    (s : HgMaps ncpu) :
    ((detailsOneAction clockText ip).run env s).1.map ClientTimes.ttl =
      ((hgReadOne ip).run env s).1.map fun stats => ttlText stats.ttlSec := by
  rw [detailsOneAction, Tool.run_bind]
  cases ((hgReadOne ip).run env s).1 with
  | none => rfl
  | some stats => rfl

end HawkGate
