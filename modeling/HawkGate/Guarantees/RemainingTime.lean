-- SUMMARY: When the remaining time of a report says what it is to both of its readers.
import HawkGate.Control.Details
import HawkGate.Daemon.Portal
import HawkGate.System.Clocks
import HawkGate.System.Host

/-!
# Remaining time

The reader reports -1 for a session that never expires, and the same number a
second after one has expired. `details_one_action` prints every negative number as
never, the captive-portal API takes every number that is not positive for 0. Time
is measured on the clock that the reader reads.
-/

namespace HawkGate

open CString StdString Transition

variable {ncpu : Nat}

/-! ## A report as stated -/

/-- The body that lets a device in for the given number of seconds. -/
def notCaptive (seconds : Nat) : List Char :=
  "\x7b\"captive\":false,\"seconds-remaining\":".toList ++ decimal seconds ++ "\x7d".toList

/-- The session ends within a second of the given time, or has ended. -/
def HgClient.EndsWithinSecond (cs : HgClient) (now : Clocks) : Prop :=
  cs.expiryNs ≠ 0 ∧ cs.expiryNs.toNat < now.boot + 10 ^ 9

/-- A report of the address has -1 seconds left only for a session that never expires, its
    details print never exactly for such a session, and the captive-portal API gives a device
    that it lets in 0 seconds only within the last one. -/
structure RemainingTimeClear (now : Clocks) (s : HgMaps ncpu) (ip : IpAddr) : Prop where
  sentinel : ∀ stats, ((hgReadOne (inetNtop ip)).run now.env s).1 = some stats →
    stats.ttlSec = -1 → (s.readClient ip).expiryNs = 0
  details : ∀ clockText times,
    ((detailsOneAction clockText (inetNtop ip)).run now.env s).1 = some times →
      (times.ttl = "never".toList ↔ (s.readClient ip).expiryNs = 0)
  capport : ∀ cfg (env : DaemonEnv), env.readerSys = now.env →
    ((handleCapport cfg (inetNtop ip)).run env s).1 = capportResponse (notCaptive 0) →
      (s.readClient ip).EndsWithinSecond now

/-! ## The two readers of the number -/

/-- The body behind its length and the end of the headers can be read off. -/
theorem framed_inj {pre sep a b : List Char}
    (hsep : ∀ body, (sep ++ body).dropWhile Char.isDigit = sep ++ body)
    (h : pre ++ decimal a.length ++ sep ++ a = pre ++ decimal b.length ++ sep ++ b) : a = b := by
  have hdrop : ∀ body : List Char,
      (decimal body.length ++ (sep ++ body)).dropWhile Char.isDigit = sep ++ body := by
    intro body
    rw [List.dropWhile_append_of_pos fun c => isDigit_of_mem_decimal, hsep]
  simp only [List.append_assoc, List.append_cancel_left_eq] at h
  have h' := congrArg (List.dropWhile Char.isDigit) h
  rw [hdrop, hdrop] at h'
  exact List.append_cancel_left h'

theorem capportResponse_inj {a b : List Char} (h : capportResponse a = capportResponse b) : a = b :=
  framed_inj (fun _ => rfl) h

theorem decimal_inj {pre suf : List Char} {m n : Nat}
    (h : pre ++ decimal m ++ suf = pre ++ decimal n ++ suf) : m = n := by
  simp only [List.append_assoc, List.append_cancel_left_eq, List.append_cancel_right_eq] at h
  rw [← (decimalText_decimal m).value, h, (decimalText_decimal n).value]

theorem notCaptive_inj {m n : Nat} (h : notCaptive m = notCaptive n) : m = n := decimal_inj h

theorem capportAuthenticated_eq (stats : HgClientStats) :
    capportAuthenticated stats = notCaptive stats.ttlSec.toInt.toNat := by
  have hpos : 0 < stats.ttlSec ↔ 0 < stats.ttlSec.toInt := Int64.lt_iff_toInt_lt
  unfold capportAuthenticated notCaptive
  by_cases httl : 0 < stats.ttlSec
  · simp only [httl, if_true]
  · have hneg : ¬ 0 < stats.ttlSec.toInt := fun h => httl (hpos.mpr h)
    have hzero : stats.ttlSec.toInt.toNat = 0 := by omega
    simp only [httl, if_false, hzero]
    rfl

theorem capportCaptive_ne (cfg : HgConfig) (n : Nat) : capportCaptive cfg ≠ notCaptive n := by
  intro h
  -- the twelfth character begins `true` or `false`
  have hflag : some 't' = some 'f' := congrArg (fun s => (s.drop 11).head?) h
  exact absurd hflag (by decide)

/-- The API lets a device in exactly if the report is one of an authenticated client, for the
    number of seconds that the report has left. -/
theorem run_handleCapport_iff (cfg : HgConfig) (ip : IpAddr) {env : DaemonEnv} {now : Clocks}
    (henv : env.readerSys = now.env) (s : HgMaps ncpu) (n : Nat) :
    ((handleCapport cfg (inetNtop ip)).run env s).1 = capportResponse (notCaptive n) ↔
      ∃ stats, ((hgReadOne (inetNtop ip)).run now.env s).1 = some stats ∧ stats.AuthOk ∧
        stats.ttlSec.toInt.toNat = n := by
  have hpoll : ((pollOne (inetNtop ip)).run env s).1 = ((hgReadOne (inetNtop ip)).run now.env s).1 := by
    rw [← henv, pollOne, Daemon.run_perform, DaemonOp.exec, cStr_inetNtop]
  rw [handleCapport, Daemon.run_bind, hpoll]
  cases hread : ((hgReadOne (inetNtop ip)).run now.env s).1 with
  | none =>
    constructor
    · intro h
      exact absurd (capportResponse_inj h) (capportCaptive_ne cfg n)
    · rintro ⟨stats, h, -⟩
      cases h
  | some stats =>
    by_cases hauth : stats.AuthOk
    · simp only [Option.filter_some, hauth, decide_true, if_true, capportAuthenticated_eq]
      constructor
      · intro h
        exact ⟨stats, rfl, hauth, notCaptive_inj (capportResponse_inj h)⟩
      · rintro ⟨stats', h, -, rfl⟩
        rw [Option.some.inj h]
        rfl
    · simp only [Option.filter_some, hauth, decide_false, Bool.false_eq_true, if_false]
      constructor
      · intro h
        exact absurd (capportResponse_inj h) (capportCaptive_ne cfg n)
      · rintro ⟨stats', h, hauth', -⟩
        exact absurd (Option.some.inj h ▸ hauth') hauth

/-! ## When it is so -/

/-- The session never expires and its counter is not that of an authenticated client, or it has not
    ended by the second that the boot clock shows, which a wall clock still in the first second of
    its epoch shows to be over. -/
def TtlDecodable (now : Clocks) (cs : HgClient) (counter : HgCounter) : Prop :=
  if cs.expiryNs = 0 then counter.state.toInt32 ≠ ClientStatus.authOk.code.toInt32
  else now.boot / 10 ^ 9 ≤ cs.expiryNs.toNat / 10 ^ 9 ∧
    now.boot / 10 ^ 9 < now.real / 10 ^ 9 + cs.expiryNs.toNat / 10 ^ 9

section
variable {now : Clocks} {s : HgMaps ncpu} {ip : IpAddr}

theorem run_hgReadOne_now :
    ((hgReadOne (inetNtop ip)).run now.env s).1 =
      (s.counters.lookup ip).map (s.report now.env true ip) := by
  rw [run_hgReadOne (inetPton_inetNtop ip), if_pos ⟨rfl, rfl⟩]
  rfl

/-- The remaining time of a report is that of the session it finds. -/
theorem ttlSec_report (percpu : Fin ncpu → HgCounter) :
    (s.report now.env true ip percpu).ttlSec.toInt =
      if (s.readClient ip).expiryNs ≠ 0 ∧ now.boot / 10 ^ 9 <
          now.real / 10 ^ 9 + (s.readClient ip).expiryNs.toNat / 10 ^ 9 then
        (((s.readClient ip).expiryNs.toNat / 10 ^ 9 : Nat) - (now.boot / 10 ^ 9 : Nat) : Int)
      else -1 := by
  rw [← HgMaps.foundSession_snd, HgMaps.report, fillStats, Tool.run_bind, run_isExpired]
  exact now.ttlSec_resolveTimes _ _ _ s

theorem authOk_report (percpu : Fin ncpu → HgCounter) :
    (s.report now.env true ip percpu).AuthOk ↔
      ¬ (s.readClient ip).RunOut (Timespec.ofNs now.boot).toNs ∧
        (aggregatePercpu percpu).state.toInt32 = ClientStatus.authOk.code.toInt32 := by
  have hstate : (s.report now.env true ip percpu).state =
      if (s.readClient ip).RunOut (Timespec.ofNs now.boot).toNs then
        ClientStatus.expire.code.toInt32
      else (aggregatePercpu percpu).state.toInt32 := by
    simp only [HgMaps.report, fillStats, Tool.run_bind, state_resolveTimes, run_isExpired,
      HgMaps.foundSession_snd, decide_eq_true_eq]
    rfl
  rw [HgClientStats.AuthOk, hstate]
  split
  · next hout =>
    simp only [hout, not_true_eq_false, false_and, iff_false]
    decide
  · next hout => simp only [hout, not_false_eq_true, true_and]

/-- The sign of a decodable remaining time says whether the session ends. -/
theorem ttlSec_neg_iff {percpu : Fin ncpu → HgCounter}
    (h : TtlDecodable now (s.readClient ip) (aggregatePercpu percpu)) :
    (s.report now.env true ip percpu).ttlSec.toInt < 0 ↔ (s.readClient ip).expiryNs = 0 := by
  rw [ttlSec_report]
  unfold TtlDecodable at h
  split at h
  · next hnever => simp [hnever]
  · next hne =>
    rw [if_pos ⟨hne, h.2⟩]
    simp only [hne, iff_false]
    omega

/-- An authenticated client with no decodable second left is in its last one. -/
theorem endsWithinSecond_of_zero {percpu : Fin ncpu → HgCounter}
    (h : TtlDecodable now (s.readClient ip) (aggregatePercpu percpu))
    (hok : (s.report now.env true ip percpu).AuthOk)
    (hzero : (s.report now.env true ip percpu).ttlSec.toInt.toNat = 0) :
    (s.readClient ip).EndsWithinSecond now := by
  unfold TtlDecodable at h
  split at h
  · exact absurd ((authOk_report percpu).mp hok).2 h
  · next hne =>
    rw [ttlSec_report, if_pos ⟨hne, h.2⟩] at hzero
    exact ⟨hne, by omega⟩

theorem RemainingTimeClear.ttlDecodable (h : RemainingTimeClear now s ip)
    {percpu : Fin ncpu → HgCounter} (hcounter : s.counters.lookup ip = some percpu) :
    TtlDecodable now (s.readClient ip) (aggregatePercpu percpu) := by
  have hread : ((hgReadOne (inetNtop ip)).run now.env s).1 =
      some (s.report now.env true ip percpu) := by
    rw [run_hgReadOne_now, hcounter]
    rfl
  have httl : (s.report now.env true ip percpu).ttlSec.toInt = _ := ttlSec_report percpu
  unfold TtlDecodable
  split
  · next hnever =>
    -- an active session without expiry is let in for 0 seconds
    intro hauth
    rw [if_neg (fun hne => hne.1 hnever)] at httl
    have hok : (s.report now.env true ip percpu).AuthOk :=
      (authOk_report percpu).mpr ⟨fun hout => hout.1 hnever, hauth⟩
    let env : DaemonEnv := { DaemonEnv.good ⟨0, 0⟩ fun _ => none with readerSys := now.env }
    have henv : env.readerSys = now.env := rfl
    have hreply := (run_handleCapport_iff .init ip henv s 0).mpr
      ⟨_, hread, hok, by rw [httl]; rfl⟩
    exact (h.capport .init env rfl hreply).1 hnever
  · next hne =>
    have htext := run_detailsOneAction (fun _ => []) (inetNtop ip) now.env s
    rw [hread, Option.map_some] at htext
    obtain ⟨times, hrun, htimes⟩ := Option.map_eq_some_iff.mp htext
    have hnotnever := mt (h.details _ times hrun).mp hne
    rw [htimes, ttlText_eq_never_iff, Int64.lt_iff_toInt_lt] at hnotnever
    have hpos : 0 ≤ (s.report now.env true ip percpu).ttlSec.toInt := Int.not_lt.mp hnotnever
    rw [httl] at hpos
    split at hpos
    · next hwall => exact ⟨by omega, hwall.2⟩
    · omega

/-- The remaining time of a report says what it is exactly if the session found can be decoded. -/
theorem remainingTimeClear_iff (now : Clocks) (s : HgMaps ncpu) (ip : IpAddr) :
    RemainingTimeClear now s ip ↔ ∀ percpu, s.counters.lookup ip = some percpu →
      TtlDecodable now (s.readClient ip) (aggregatePercpu percpu) := by
  constructor
  · exact fun h percpu hcounter => h.ttlDecodable hcounter
  · intro h
    have hstats : ∀ stats, ((hgReadOne (inetNtop ip)).run now.env s).1 = some stats →
        ∃ percpu, s.counters.lookup ip = some percpu ∧ s.report now.env true ip percpu = stats := by
      intro stats hread
      rw [run_hgReadOne_now] at hread
      exact Option.map_eq_some_iff.mp hread
    refine ⟨?_, ?_, ?_⟩
    · intro stats hread hminus
      obtain ⟨percpu, hcounter, rfl⟩ := hstats stats hread
      rw [← ttlSec_neg_iff (h percpu hcounter), hminus]
      decide
    · intro clockText times hrun
      have htext := run_detailsOneAction clockText (inetNtop ip) now.env s
      rw [hrun, Option.map_some] at htext
      obtain ⟨stats, hread, htimes⟩ := Option.map_eq_some_iff.mp htext.symm
      obtain ⟨percpu, hcounter, rfl⟩ := hstats stats hread
      rw [← htimes, ttlText_eq_never_iff, ← ttlSec_neg_iff (h percpu hcounter),
        Int64.lt_iff_toInt_lt]
      rfl
    · intro cfg env henv hreply
      obtain ⟨stats, hread, hok, hzero⟩ := (run_handleCapport_iff cfg ip henv s 0).mp hreply
      obtain ⟨percpu, hcounter, rfl⟩ := hstats stats hread
      exact endsWithinSecond_of_zero (h percpu hcounter) hok hzero

end

/-- A client whose first packet was seen and whose session of an hour began when the host
    started. -/
def hourSession : HgMaps 1 :=
  run HgMaps.step (.start 1 .standard 0) [.ingress (.good ⟨0, Nat.one_pos⟩ 0) ⟨tcpFrame (localMac 1)
    (Bytes.addrOfOctets 192 168 99 82) (Bytes.addrOfOctets 93 184 216 34) 40000 443, 54⟩,
    .add (.good ⟨0, 0⟩) [.iface "br0".toList, .client "192.168.99.82".toList, .expire "3600".toList]]

/-- A second after the hour. -/
def hourOver : Clocks := ⟨3601 * 10 ^ 9, 0, 1700000000 * 10 ^ 9, by norm_num, by norm_num⟩

/-- A session that expired a second ago is reported with -1 and printed as one that never
    expires. -/
theorem expired_session_never_expires :
    (hourSession.readClient (Bytes.addrOfOctets 192 168 99 82)).expiryNs = 3600000000000 ∧
      ((hgReadOne (inetNtop (Bytes.addrOfOctets 192 168 99 82))).run hourOver.env hourSession).1.map
        HgClientStats.ttlSec = some (-1) ∧
      ¬ RemainingTimeClear hourOver hourSession (Bytes.addrOfOctets 192 168 99 82) := by
  have hexpiry : (hourSession.readClient (Bytes.addrOfOctets 192 168 99 82)).expiryNs =
      3600000000000 := by decide +kernel
  have hminus : ((hgReadOne (inetNtop (Bytes.addrOfOctets 192 168 99 82))).run hourOver.env
      hourSession).1.map HgClientStats.ttlSec = some (-1) := by decide +kernel
  refine ⟨hexpiry, hminus, fun h => ?_⟩
  obtain ⟨stats, hread, httl⟩ := Option.map_eq_some_iff.mp hminus
  have hzero := h.sentinel stats hread httl
  rw [hexpiry] at hzero
  exact absurd hzero (by decide)

end HawkGate
