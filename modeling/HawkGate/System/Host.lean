-- SUMMARY: A host as a transition system: packets through the two hooks and uninterrupted hgctl commands.
import HawkGate.Control.Effects
import HawkGate.Kernel.Effects
import HawkGate.Lib.Transition

/-!
# The host

Every event reads and writes the same maps: a packet through one of the hooks,
or a command that runs without interruption.
-/

namespace HawkGate

open CString

variable {ncpu : Nat}

inductive HostEvent (ncpu : Nat) where
  | ingress (env : BpfEnv ncpu) (skb : SkBuff)
  | egress (env : BpfEnv ncpu) (skb : SkBuff)
  | add (env : SysEnv) (opts : List AddOpt)
  | del (env : SysEnv) (opts : List DelOpt)
  | mapDel (env : SysEnv) (opts : List MapDelOpt)

/-- The maps after one event. -/
def HgMaps.step (s : HgMaps ncpu) : HostEvent ncpu → HgMaps ncpu
  | .ingress env skb => (hgTcIngress env s skb).maps
  | .egress env skb => (hgTcEgress env s skb).maps
  | .add env opts => ((hgctlAdd opts).run env s).2
  | .del env opts => ((hgctlDel opts).run env s).2
  | .mapDel env opts => ((hgctlMapDel opts).run env s).2

/-! ## Time -/

/-- The event with its clocks at the given reading: the session check of the hooks and
    every clock of the commands. -/
def HostEvent.at (ts : Timespec) : HostEvent ncpu → HostEvent ncpu
  | .ingress env skb => .ingress { env with ktimeNs := ts.toNs } skb
  | .egress env skb => .egress { env with ktimeNs := ts.toNs } skb
  | .add env opts => .add { env with clock := fun _ => ts } opts
  | .del env opts => .del { env with clock := fun _ => ts } opts
  | .mapDel env opts => .mapDel { env with clock := fun _ => ts } opts

/-- A host with one clock for both boot time and monotonic time. -/
structure TimedHost (ncpu : Nat) where
  maps : HgMaps ncpu
  clock : Timespec

def TimedHost.now (st : TimedHost ncpu) : UInt64 := st.clock.toNs

inductive TimedEvent (ncpu : Nat) where
  | host (e : HostEvent ncpu)
  | tick (ts : Timespec)

/-- Events happen at the current reading; the clock never goes back. -/
def TimedHost.step (st : TimedHost ncpu) : TimedEvent ncpu → TimedHost ncpu
  | .host e => { st with maps := st.maps.step (e.at st.clock) }
  | .tick ts => if st.now ≤ ts.toNs then { st with clock := ts } else st

/-! ## Effects of the commands as steps -/

section
variable (s : HgMaps ncpu) (env : SysEnv)

theorem HgMaps.step_add (opts : List AddOpt) :
    s.step (.add env opts) = s.afterAdd (addEffect env s opts) := by
  rw [HgMaps.step, run_hgctlAdd]

/-- The MAC whose session a del removes, if it gets that far. -/
def delVictim (opts : List DelOpt) : Option HgMacKey :=
  if env.opensBoth then delTarget env s opts else none

theorem HgMaps.step_del (opts : List DelOpt) :
    s.step (.del env opts) = (delVictim s env opts).elim s (s.afterDel env) := by
  rw [HgMaps.step, run_hgctlDel, delVictim]
  by_cases hopen : env.opensBoth = true
  · cases delTarget env s opts <;> simp [hopen]
  · cases delTarget env s opts <;> simp [hopen]

theorem HgMaps.step_mapDel (opts : List MapDelOpt) :
    s.step (.mapDel env opts) =
      { s with
        clients := (mapDelVictim env opts).elim s.clients s.clients.erase
        conntrack := (s.step (.mapDel env opts)).conntrack
        proto := (s.step (.mapDel env opts)).proto } :=
  run_hgctlMapDel_frame env s opts

end

/-! ## Profiles -/

/-- No profile changes, and every client entry was there before with the same rate id. -/
structure HgMaps.KeepsProfiles (s s' : HgMaps ncpu) : Prop where
  rates : s'.rates = s.rates
  clients : ∀ m cs, s'.clients.lookup m = some cs →
    ∃ cs', s.clients.lookup m = some cs' ∧ cs'.rateLimitId = cs.rateLimitId

section
variable (s : HgMaps ncpu)

theorem keepsProfiles_erase (m : HgMacKey) :
    s.KeepsProfiles { s with clients := s.clients.erase m } where
  rates := rfl
  clients := fun _ cs hk => ⟨cs, (BoundedMap.lookup_of_erase hk).2, rfl⟩

theorem keepsProfiles_ingress (env : BpfEnv ncpu) (skb : SkBuff) :
    s.KeepsProfiles (s.step (.ingress env skb)) where
  rates := rates_hgTcIngress env s skb
  clients := by
    intro m cs hm
    rcases session_hgTcIngress env s skb m with hsess | ⟨-, -, hnone⟩
    · obtain ⟨cs', hm', heq⟩ := HgMaps.exists_lookup_of_session hsess hm
      exact ⟨cs', hm', HgClient.rateLimitId_of_session heq⟩
    · simp only [HgMaps.step] at hm
      simp [HgMaps.session, hm] at hnone

theorem keepsProfiles_egress (env : BpfEnv ncpu) (skb : SkBuff) :
    s.KeepsProfiles (s.step (.egress env skb)) where
  rates := rates_hgTcEgress env s skb
  clients := by
    intro m cs hm
    obtain ⟨cs', hm', heq⟩ :=
      HgMaps.exists_lookup_of_session (session_hgTcEgress env s skb m) hm
    exact ⟨cs', hm', HgClient.rateLimitId_of_session heq⟩

theorem keepsProfiles_mapDel (env : SysEnv) (opts : List MapDelOpt) :
    s.KeepsProfiles (s.step (.mapDel env opts)) where
  rates := by rw [HgMaps.step_mapDel]
  clients := by
    intro m cs hm
    rw [HgMaps.step_mapDel] at hm
    cases hv : mapDelVictim env opts with
    | none =>
      rw [hv] at hm
      exact ⟨cs, hm, rfl⟩
    | some k =>
      rw [hv] at hm
      exact (keepsProfiles_erase s k).clients m cs hm

end

end HawkGate
