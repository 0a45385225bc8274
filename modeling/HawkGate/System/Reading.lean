-- SUMMARY: A read of all clients one system call at a time, with commands and packets in between.
import HawkGate.Control.ReadAll
import HawkGate.Kernel.Effects
import HawkGate.Lib.Cursor
import HawkGate.System.Commands

/-!
# Reading while commands run

The read makes its calls one by one. Between any two of them `hgctl add` and
`hgctl del` make theirs and packets go through the hooks. Where a new counter
stands in the order of the keys is up to the kernel.
-/

namespace HawkGate

open HawkGate.Frame Cursor

variable {ncpu : Nat}

/-- What the calls of a read have shown so far. -/
structure ReadLog where
  /-- How often the walk over the counters was begun. -/
  passes : Nat
  /-- The number of addresses that the first pass was given. -/
  total : Nat
  /-- The addresses that the second pass was given. -/
  visited : List IpAddr
  /-- The address that the walk stands on. -/
  cursor : Option IpAddr
  /-- The addresses whose counters were read. -/
  counted : List IpAddr

def ReadLog.start : ReadLog := ⟨0, 0, [], none, []⟩

/-- Note a call and its answer. -/
def ReadLog.note (log : ReadLog) : {β : Type} → Sys ncpu β → β → ReadLog
  | _, .nextCounterKey prev, key =>
    let passes := if prev = none then log.passes + 1 else log.passes
    if passes = 1 then
      { log with passes := passes, total := log.total + key.toList.length, cursor := key }
    else { log with passes := passes, visited := log.visited ++ key.toList, cursor := key }
  | _, .lookupCounter ip, percpu =>
    if percpu.isSome then { log with counted := log.counted ++ [ip] } else log
  | _, _, _ => log

structure ReadingHost (ncpu : Nat) where
  host : CommandHost ncpu
  reader : Tool ncpu ReadAllOutcome
  log : ReadLog

inductive ReadingEvent (ncpu : Nat) where
  /-- A command or a packet; a counter that it creates is put behind `slot` others. -/
  | other (e : CommandEvent ncpu) (slot : Nat)
  /-- The read makes its next call. -/
  | read (env : SysEnv)

/-- The maps with a new counter in its place. -/
def HgMaps.placeCounter (before after : HgMaps ncpu) (slot : Nat) : HgMaps ncpu :=
  if before.counters.size < after.counters.size then
    { after with counters := after.counters.place slot }
  else after

def ReadingHost.step (st : ReadingHost ncpu) : ReadingEvent ncpu → ReadingHost ncpu
  | .other e slot =>
    let host := st.host.step e
    { st with host := { host with maps := st.host.maps.placeCounter host.maps slot } }
  | .read env =>
    match st.reader with
    | .ret _ => st
    | .call op k =>
      let r := Sys.exec env st.host.maps op
      { host := { st.host with maps := r.2 }
        reader := k r.1
        log := st.log.note op r.1 }

/-! ## The order of the keys -/

/-- What one call or one packet does to the keys of the counters. -/
inductive KeysEdit (l : List IpAddr) : List IpAddr → Prop where
  | same : KeysEdit l l
  | deleted (ip : IpAddr) : KeysEdit l (l.filter fun j => j ≠ ip)
  | inserted (ip : IpAddr) (h : ip ∉ l) : KeysEdit l (ip :: l)

theorem keysEdit_exec (env : SysEnv) (s : HgMaps ncpu) {β : Type} (op : Sys ncpu β) :
    KeysEdit s.counters.keys (Sys.exec env s op).2.counters.keys := by
  cases op with
  | updateCounter ip v =>
    simp only [Sys.exec, commit_update]
    split
    · simp only [BoundedMap.keys_put]
      split
      · exact .same
      · next hnew => exact .inserted ip fun h => hnew (Or.inl h)
    · exact .same
  | deleteCounter ip =>
    simp only [Sys.exec, commit_delete, BoundedMap.keys_erase]
    exact .deleted ip
  | _ => exact .same

/-- Ingress changes counters in place. -/
theorem keys_counters_hgTcIngress (env : BpfEnv ncpu) (s : HgMaps ncpu) (skb : SkBuff) :
    (hgTcIngress env s skb).maps.counters.keys = s.counters.keys := by
  have hstep := hgTcIngress_step env s skb
  generalize hgTcIngress env s skb = r at hstep ⊢
  cases hstep with
  | early v hbind => rfl
  | noSession key _ hkey hsrc hstamp hmaps =>
    rcases hmaps with h | ⟨k, v, h⟩
    · rw [h, HgMaps.bindFrame_counters]
    · rw [h, HgMaps.trackFlow_frame]
      exact congrArg BoundedMap.keys (HgMaps.bindFrame_counters env s skb.data)
  | session key auth hkey hsrc hdst hauth =>
    rcases ingressSession_maps env (s.bindFrame env skb.data) skb (hSource skb.data)
      (saddr skb.data) auth with ⟨-, h⟩ | ⟨cs, -, h | h⟩
    · rw [h, HgMaps.expireClient, HgMaps.modifyCounter, BoundedMap.keys_modify]
      split
      · exact congrArg BoundedMap.keys (HgMaps.bindFrame_counters env s skb.data)
      · exact congrArg BoundedMap.keys (HgMaps.bindFrame_counters env s skb.data)
    · rw [h, HgMaps.writeClient]
      exact congrArg BoundedMap.keys (HgMaps.bindFrame_counters env s skb.data)
    · rw [h, HgMaps.modifyCounter, BoundedMap.keys_modify, HgMaps.writeClient]
      exact congrArg BoundedMap.keys (HgMaps.bindFrame_counters env s skb.data)

/-- Egress changes counters in place. -/
theorem keys_counters_hgTcEgress (env : BpfEnv ncpu) (s : HgMaps ncpu) (skb : SkBuff) :
    (hgTcEgress env s skb).maps.counters.keys = s.counters.keys := by
  have hstep := hgTcEgress_step env s skb
  generalize hgTcEgress env s skb = r at hstep ⊢
  cases hstep with
  | noSession _ hstamp hmaps => rw [hmaps]
  | session key m auth hkey hsrc hdst hbound hauth =>
    rcases egressSession_maps env s skb m (daddr skb.data) auth with ⟨cs, -, h | h⟩
    · rw [h, HgMaps.writeClient]
    · rw [h, HgMaps.modifyCounter, BoundedMap.keys_modify, HgMaps.writeClient]

theorem keysEdit_step (st : CommandHost ncpu) (e : CommandEvent ncpu) :
    KeysEdit st.maps.counters.keys (st.step e).maps.counters.keys := by
  cases e with
  | start c => exact .same
  | call i env =>
    rw [CommandHost.step]
    split
    · exact .same
    · next p hp =>
      obtain ⟨c, rest⟩ := p
      cases rest with
      | ret a => exact .same
      | call op k => exact keysEdit_exec env st.maps op
  | ingress env skb =>
    rw [CommandHost.step, keys_counters_hgTcIngress]
    exact .same
  | egress env skb =>
    rw [CommandHost.step, keys_counters_hgTcEgress]
    exact .same

/-- Wherever a new counter is put, the others keep their order. -/
theorem orderKept_other (st : ReadingHost ncpu) (e : CommandEvent ncpu) (slot : Nat) :
    OrderKept st.host.maps.counters.keys
      (st.step (.other e slot)).host.maps.counters.keys := by
  have hedit := keysEdit_step st.host e
  simp only [ReadingHost.step, HgMaps.placeCounter, ← BoundedMap.length_keys]
  generalize (st.host.step e).maps = after at hedit ⊢
  split
  · next hgrown =>
    rw [BoundedMap.keys_place]
    generalize after.counters.keys = keys at hedit hgrown ⊢
    cases hedit with
    | same => exact absurd hgrown (lt_irrefl _)
    | deleted ip => exact absurd hgrown (Nat.not_lt.mpr (List.length_filter_le _ _))
    | inserted ip h =>
      rw [← List.take_append_drop slot st.host.maps.counters.keys] at h
      have := orderKept_insert h
      rw [List.take_append_drop] at this
      simpa using this
  · next hgrown =>
    generalize after.counters.keys = keys at hedit hgrown ⊢
    cases hedit with
    | same => exact .refl _
    | deleted ip => exact orderKept_filter _ _
    | inserted ip h => exact absurd (Nat.lt_succ_self _) hgrown

end HawkGate
