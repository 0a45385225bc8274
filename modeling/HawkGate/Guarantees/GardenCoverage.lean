-- SUMMARY: The walled garden covers exactly the addresses of the blocks that were added and not deleted since.
import HawkGate.Guarantees.GardenText
import HawkGate.System.Host

/-!
# Walled-garden coverage

The garden is a table of keys, one for each block; the hooks look addresses up
by longest prefix. Over any history of adds and deletes, with packets and other
commands in between, an address is covered exactly if it lies in a block that
was added and not deleted since.
-/

namespace HawkGate

open Bytes CString Transition

variable {ncpu : Nat}

/-! ## Histories -/

/-- A well-formed argument of the two commands, with the block it denotes. -/
structure CidrArg where
  text : CString
  cidr : Cidr
  isText : cidr.IsText text

inductive GardenEvent (ncpu : Nat) where
  | host (e : HostEvent ncpu)
  | wgAdd (env : SysEnv) (arg : CidrArg)
  | wgDel (env : SysEnv) (arg : CidrArg)

inductive GardenCall where
  | add (c : Cidr)
  | del (c : Cidr)

/-- An add finds the map, room in it, and a kernel that takes the update. -/
def WgAddPasses (env : SysEnv) (s : HgMaps ncpu) (c : Cidr) : Prop :=
  env.objGet .hgWalledGarden = true ∧ env.Accepts .hgWalledGarden s.walledGarden (wgKey c)

instance (env : SysEnv) (s : HgMaps ncpu) (c : Cidr) : Decidable (WgAddPasses env s c) :=
  inferInstanceAs (Decidable (_ ∧ _))

/-- What an event does to the garden. A command that cannot open the map fails, and so does
    an add without room. -/
def GardenEvent.call (s : HgMaps ncpu) : GardenEvent ncpu → Option GardenCall
  | .host _ => none
  | .wgAdd env arg => if WgAddPasses env s arg.cidr then some (.add arg.cidr) else none
  | .wgDel env arg => if env.objGet .hgWalledGarden then some (.del arg.cidr) else none

/-- A host with the adds and deletes so far, oldest first. -/
structure GardenRun (ncpu : Nat) where
  maps : HgMaps ncpu
  log : List GardenCall

def GardenRun.start (portal : HgPortalCfg) (ifb : UInt32) : GardenRun ncpu :=
  ⟨.start ncpu portal ifb, []⟩

/-- The maps after one event. -/
def HgMaps.gardenStep (s : HgMaps ncpu) : GardenEvent ncpu → HgMaps ncpu
  | .host e => s.step e
  | .wgAdd env arg => ((wgAddAction arg.text).run env s).2
  | .wgDel env arg => ((wgDelAction arg.text).run env s).2

def GardenRun.step (st : GardenRun ncpu) (e : GardenEvent ncpu) : GardenRun ncpu :=
  ⟨st.maps.gardenStep e, st.log ++ (e.call st.maps).toList⟩

/-- The block was added, and not deleted since under any of its names. -/
def Current (log : List GardenCall) (c : Cidr) : Prop :=
  ∃ earlier later, log = earlier ++ .add c :: later ∧ ∀ c', .del c' ∈ later → ¬ c'.Same c

/-! ## The log -/

theorem not_current_nil (c : Cidr) : ¬ Current [] c := by
  rintro ⟨earlier, later, heq, -⟩
  simp at heq

/-- What one more call does to a block. -/
theorem current_concat (log : List GardenCall) (x : GardenCall) (c : Cidr) :
    Current (log ++ [x]) c ↔ x = .add c ∨ (Current log c ∧ ∀ c', x = .del c' → ¬ c'.Same c) := by
  constructor
  · rintro ⟨earlier, later, heq, hlater⟩
    rcases List.eq_nil_or_concat' later with rfl | ⟨rest, y, rfl⟩
    · obtain ⟨-, hx⟩ := List.append_inj' heq rfl
      exact .inl (List.cons.inj hx).1
    · have heq' : log ++ [x] = (earlier ++ .add c :: rest) ++ [y] := by simpa using heq
      obtain ⟨hlog, hx⟩ := List.append_inj' heq' rfl
      obtain ⟨rfl, -⟩ := List.cons.inj hx
      refine .inr ⟨⟨earlier, rest, hlog, fun c' hc' => hlater c' ?_⟩, fun c' hx' => hlater c' ?_⟩
      · exact List.mem_append_left _ hc'
      · rw [hx']
        simp
  · rintro (rfl | ⟨⟨earlier, later, rfl, hlater⟩, hx⟩)
    · exact ⟨log, [], rfl, by simp⟩
    · refine ⟨earlier, later ++ [x], by simp, fun c' hc' => ?_⟩
      rcases List.mem_append.mp hc' with hold | hnew
      · exact hlater c' hold
      · exact hx c' (List.mem_singleton.mp hnew).symm

/-- An add makes its block current. -/
theorem current_add (log : List GardenCall) (c' c : Cidr) :
    Current (log ++ [.add c']) c ↔ Current log c ∨ c = c' := by
  rw [current_concat, GardenCall.add.injEq]
  constructor
  · rintro (rfl | ⟨h, -⟩)
    · exact .inr rfl
    · exact .inl h
  · rintro (h | rfl)
    · exact .inr ⟨h, fun _ hx => by cases hx⟩
    · exact .inl rfl

/-- A delete ends its block, however it is written. -/
theorem current_del (log : List GardenCall) (c' c : Cidr) :
    Current (log ++ [.del c']) c ↔ Current log c ∧ ¬ c'.Same c := by
  rw [current_concat]
  constructor
  · rintro (hx | ⟨h, hx⟩)
    · cases hx
    · exact ⟨h, hx c' rfl⟩
  · rintro ⟨h, hne⟩
    refine .inr ⟨h, fun d hx => ?_⟩
    cases hx
    exact hne

/-! ## The commands -/

/-- Blocks are the same exactly if they have the same key. -/
theorem wgKey_eq_iff (c c' : Cidr) : wgKey c = wgKey c' ↔ c.Same c' := by
  have hle := c.len_le
  have hle' := c'.len_le
  have hlen : UInt32.ofNat c.len = UInt32.ofNat c'.len ↔ c.len = c'.len := by
    rw [← UInt32.toNat_inj, UInt32.toNat_ofNat_of_lt' (by simp only [UInt32.size]; omega),
      UInt32.toNat_ofNat_of_lt' (by simp only [UInt32.size]; omega)]
  rw [wgKey, wgKey, HgWgKey.mk.injEq, hlen, Cidr.Same]

theorem run_wgAddAction (env : SysEnv) (s : HgMaps ncpu) (arg : CidrArg) :
    (wgAddAction arg.text).run env s =
      if WgAddPasses env s arg.cidr then
        (.success, { s with walledGarden := s.walledGarden.put (wgKey arg.cidr) 1 })
      else (.failed, s) := by
  rw [wgAddAction, wgParseCidr_of_isText arg.isText]
  exact run_withMap_update s.walledGarden (wgKey arg.cidr) 1 (fun m => { s with walledGarden := m })
    rfl rfl

theorem run_wgDelAction (env : SysEnv) (s : HgMaps ncpu) (arg : CidrArg) :
    (wgDelAction arg.text).run env s =
      if env.objGet .hgWalledGarden then
        (removed (s.walledGarden.lookup (wgKey arg.cidr)).isSome,
          { s with walledGarden := s.walledGarden.erase (wgKey arg.cidr) })
      else (.failed, s) := by
  rw [wgDelAction, wgParseCidr_of_isText arg.isText]
  dsimp only
  rw [run_withMap]
  simp only [Sys.exec, commit_delete]

/-- Packets and the other commands leave the garden alone. -/
theorem walledGarden_step (s : HgMaps ncpu) (e : HostEvent ncpu) :
    (s.step e).walledGarden = s.walledGarden := by
  cases e with
  | ingress env skb =>
    rw [HgMaps.step, hgTcIngress_frame]
    exact s.bindFrame_walledGarden env skb.data
  | egress env skb => rw [HgMaps.step, hgTcEgress_frame]
  | add env opts =>
    rw [HgMaps.step_add]
    cases addEffect env s opts <;> rfl
  | del env opts =>
    rw [HgMaps.step_del]
    cases delVictim s env opts <;> rfl
  | mapDel env opts => rw [HgMaps.step_mapDel]

/-- What a call does to the table. -/
def GardenCall.effect (table : BoundedMap HgWgKey UInt8 64) : GardenCall → BoundedMap HgWgKey UInt8 64
  | .add c => table.put (wgKey c) 1
  | .del c => table.erase (wgKey c)

/-- An event changes the garden by its call and not otherwise. -/
theorem walledGarden_gardenStep (s : HgMaps ncpu) (e : GardenEvent ncpu) :
    (s.gardenStep e).walledGarden = (e.call s).elim s.walledGarden (·.effect s.walledGarden) := by
  cases e with
  | host e => exact walledGarden_step s e
  | wgAdd env arg =>
    rw [HgMaps.gardenStep, run_wgAddAction, GardenEvent.call]
    split <;> rfl
  | wgDel env arg =>
    rw [HgMaps.gardenStep, run_wgDelAction, GardenEvent.call]
    split <;> rfl

theorem hasRoom_of_call {s : HgMaps ncpu} {e : GardenEvent ncpu} {c : Cidr}
    (h : e.call s = some (.add c)) : s.walledGarden.HasRoom (wgKey c) := by
  cases e with
  | host e => cases h
  | wgAdd env arg =>
    obtain ⟨hpass, heq⟩ := Option.ite_none_right_eq_some.mp h
    cases heq
    exact hpass.2.2
  | wgDel env arg =>
    obtain ⟨-, heq⟩ := Option.ite_none_right_eq_some.mp h
    cases heq

/-! ## The invariant -/

/-- The keys in the table are those of the current blocks. -/
def KeysCurrent (table : BoundedMap HgWgKey UInt8 64) (log : List GardenCall) : Prop :=
  ∀ k, (table.lookup k).isSome ↔ ∃ c, Current log c ∧ wgKey c = k

theorem keysCurrent_empty : KeysCurrent .empty [] := by
  intro k
  refine iff_of_false (by simp [BoundedMap.lookup, BoundedMap.empty]) ?_
  rintro ⟨c, hc, -⟩
  exact not_current_nil c hc

section
variable {table : BoundedMap HgWgKey UInt8 64} {log : List GardenCall} (h : KeysCurrent table log)
include h

theorem KeysCurrent.add {c : Cidr} (hroom : table.HasRoom (wgKey c)) :
    KeysCurrent (table.put (wgKey c) 1) (log ++ [.add c]) := by
  intro k
  simp only [current_add, BoundedMap.lookup_put, hroom, and_true]
  by_cases hk : k = wgKey c
  · rw [if_pos hk]
    exact iff_of_true rfl ⟨c, .inr rfl, hk.symm⟩
  · rw [if_neg hk, h k]
    constructor
    · rintro ⟨c', hc', hkey⟩
      exact ⟨c', .inl hc', hkey⟩
    · rintro ⟨c', hc' | rfl, hkey⟩
      · exact ⟨c', hc', hkey⟩
      · exact absurd hkey.symm hk

theorem KeysCurrent.del (c : Cidr) : KeysCurrent (table.erase (wgKey c)) (log ++ [.del c]) := by
  intro k
  simp only [current_del, BoundedMap.lookup_erase]
  by_cases hk : k = wgKey c
  · rw [if_pos hk]
    refine iff_of_false (by simp) ?_
    rintro ⟨c', ⟨-, hne⟩, hkey⟩
    exact hne ((wgKey_eq_iff c c').mp (hk.symm.trans hkey.symm))
  · rw [if_neg hk, h k]
    constructor
    · rintro ⟨c', hc', hkey⟩
      refine ⟨c', ⟨hc', fun hsame => hk ?_⟩, hkey⟩
      rw [← hkey, (wgKey_eq_iff c c').mpr hsame]
    · rintro ⟨c', ⟨hc', -⟩, hkey⟩
      exact ⟨c', hc', hkey⟩

/-- Calls keep the table in step with the log. -/
theorem KeysCurrent.call {x : Option GardenCall}
    (hroom : ∀ c, x = some (.add c) → table.HasRoom (wgKey c)) :
    KeysCurrent (x.elim table (·.effect table)) (log ++ x.toList) := by
  cases x with
  | none =>
    rw [Option.toList_none, List.append_nil]
    exact h
  | some x =>
    cases x with
    | add c => exact h.add (hroom c rfl)
    | del c => exact h.del c

end

theorem KeysCurrent.step {st : GardenRun ncpu} (h : KeysCurrent st.maps.walledGarden st.log)
    (e : GardenEvent ncpu) : KeysCurrent (st.step e).maps.walledGarden (st.step e).log := by
  rw [GardenRun.step, walledGarden_gardenStep]
  exact h.call fun c hc => hasRoom_of_call hc

/-- The stored key of a block matches the addresses in the block. -/
theorem prefixAgree_wgKey (c : Cidr) (d : IpAddr) :
    prefixAgree (wgKey c).prefixlen (wgKey c).ip d = true ↔ c.Contains d := by
  have hle := c.len_le
  have hlen : (UInt32.ofNat c.len).toNat = c.len :=
    UInt32.toNat_ofNat_of_lt' (by simp only [UInt32.size]; omega)
  have hbits := Cidr.leadingBits_clearHost c.len c.ip
  simp only [Cidr.leadingBits] at hbits
  simp only [prefixAgree, wgKey, hlen, Cidr.net, hbits, decide_eq_true_eq]
  exact Iff.rfl

/-- A lookup by longest prefix finds an entry exactly if the address lies in a current block. -/
theorem KeysCurrent.wgCovers_iff {s : HgMaps ncpu} {log : List GardenCall}
    (h : KeysCurrent s.walledGarden log) (d : IpAddr) :
    s.wgCovers d = true ↔ ∃ c, Current log c ∧ c.Contains d := by
  have hkeys : ∀ k, k ∈ s.walledGarden.entries.map Prod.fst ↔ ∃ c, Current log c ∧ wgKey c = k :=
    fun k => (BoundedMap.mem_keys_iff s.walledGarden k).trans (h k)
  rw [HgMaps.wgCovers, List.any_eq_true]
  constructor
  · rintro ⟨e, he, hagree⟩
    obtain ⟨c, hc, hkey⟩ := (hkeys e.1).mp (List.mem_map_of_mem he)
    rw [← hkey] at hagree
    exact ⟨c, hc, (prefixAgree_wgKey c d).mp hagree⟩
  · rintro ⟨c, hc, hd⟩
    obtain ⟨e, he, hkey⟩ := List.mem_map.mp ((hkeys (wgKey c)).mpr ⟨c, hc, rfl⟩)
    refine ⟨e, he, ?_⟩
    rw [hkey]
    exact (prefixAgree_wgKey c d).mpr hd

/-- After every history, the hooks find an address in the garden exactly if it lies in a block
    that was added and not deleted since. -/
theorem garden_covers_iff (portal : HgPortalCfg) (ifb : UInt32) (es : List (GardenEvent ncpu))
    (d : IpAddr) :
    (run GardenRun.step (.start portal ifb) es).maps.wgCovers d = true ↔
      ∃ c, Current (run GardenRun.step (.start portal ifb) es).log c ∧ c.Contains d := by
  have hstep : ∀ (st : GardenRun ncpu) e, KeysCurrent st.maps.walledGarden st.log → True →
      KeysCurrent (st.step e).maps.walledGarden (st.step e).log := fun st e h _ => h.step e
  have hend : ∀ st : GardenRun ncpu, KeysCurrent st.maps.walledGarden st.log →
      KeysCurrent (run GardenRun.step st es).maps.walledGarden (run GardenRun.step st es).log :=
    fun st h => run_of_inv hstep h fun _ _ => trivial
  exact (hend (.start portal ifb) keysCurrent_empty).wgCovers_iff d

end HawkGate
