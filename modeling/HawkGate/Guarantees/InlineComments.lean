-- SUMMARY: Which lines of a configuration file mean the same with a comment behind the value.
import HawkGate.Daemon.ConfigUpdates

/-!
# Inline comments

The shipped configuration file writes comments behind values. `load_config`
knows comments at the start of a line only, so the text of one becomes part of
the value: numbers end in front of it, words no longer match, addresses are
refused, and everything else keeps it.
-/

namespace HawkGate

open CString StdString Fields

/-! ## Commented values -/

/-- Spaces and a comment at the end of a line. -/
def inlineComment (n : Nat) (comment : List Char) : List Char :=
  List.replicate (n + 1) ' ' ++ '#' :: comment

/-- The file with a comment behind one of its lines. -/
def commentedText (pre : List (List Char)) (line : List Char) (post : List (List Char)) (n : Nat)
    (comment : List Char) : List Char :=
  ['\n'].intercalate (pre ++ (line ++ inlineComment n comment) :: post)

/-- A value that goes on with blanks and a comment. -/
def Commented (value value' : List Char) : Prop :=
  ∃ gap comment, (∀ c ∈ gap, isBlank c = true) ∧ value' = value ++ gap ++ '#' :: comment

/-- A comment behind an assignment goes into the value. -/
theorem readLine_comment {line key value : List Char} (h : readLine line = .assign key value)
    (n : Nat) (comment : List Char) :
    ∃ value', readLine (line ++ inlineComment n comment) = .assign key value' ∧
      Commented value value' := by
  cases line with
  | nil => cases h
  | cons c t =>
    have hhash : c ≠ '#' := by
      rintro rfl
      cases h
    have hopen : c ≠ '[' := by
      rintro rfl
      unfold readLine at h
      cases hclose : splitFirst ']' t with
      | none => simp [hclose] at h
      | some r => simp [hclose] at h
    rw [readLine_of_ne hhash hopen] at h
    cases hsplit : splitFirst '=' (c :: t) with
    | none => simp [hsplit] at h
    | some r =>
      obtain ⟨k, v⟩ := r
      simp only [hsplit, ConfigLine.assign.injEq] at h
      obtain ⟨rfl, rfl⟩ := h
      have hblanks : ∀ c ∈ List.replicate (n + 1) ' ', isBlank c = true := by
        intro c hc
        rw [List.eq_of_mem_replicate hc]
        rfl
      obtain ⟨gap, comment', hgap, htrim⟩ := exists_trim_append hblanks (x := '#') rfl v comment
      refine ⟨_, ?_, gap, comment', hgap, htrim⟩
      rw [List.cons_append, readLine_of_ne hhash hopen, ← List.cons_append,
        splitFirst_append_right hsplit, inlineComment, ← List.append_assoc]

section
variable {value value' : List Char}

theorem Commented.mem (h : Commented value value') : '#' ∈ value' := by
  obtain ⟨gap, comment, -, rfl⟩ := h
  exact List.mem_append_right _ List.mem_cons_self

theorem Commented.ne (h : Commented value value') : value ≠ value' := by
  obtain ⟨gap, comment, -, rfl⟩ := h
  intro heq
  have hlen := congrArg List.length heq
  simp only [List.length_append, List.length_cons] at hlen
  omega

/-- No word is a commented text. -/
theorem Commented.parseLogLevel_eq (h : Commented value value') : parseLogLevel value' = .info := by
  have hne : ∀ word : List Char, '#' ∉ word → value' ≠ word := fun word hword heq =>
    hword (heq ▸ h.mem)
  rw [parseLogLevel, if_neg (hne _ (by decide)), if_neg (hne _ (by decide)),
    if_neg (hne _ (by decide)), if_neg (hne _ (by decide))]

theorem Commented.parsePortalMode_eq (h : Commented value value') :
    parsePortalMode value' = .builtin := by
  have hne : ∀ word : List Char, '#' ∉ word → value' ≠ word := fun word hword heq =>
    hword (heq ▸ h.mem)
  rw [parsePortalMode, if_neg (hne _ (by decide)), if_neg (hne _ (by decide))]

/-- A NUL hides the comment from what reads C strings. -/
theorem Commented.cStr_of_nul (h : Commented value value') (hnul : Char.ofNat 0 ∈ value) :
    cStr value' = cStr value := by
  obtain ⟨gap, comment, -, rfl⟩ := h
  rw [List.append_assoc]
  exact cStr_append_of_nul hnul _

theorem Commented.cStr_eq (h : Commented value value') (hnul : Char.ofNat 0 ∉ value) :
    ∃ gap comment, (∀ c ∈ gap, isBlank c = true) ∧
      cStr value' = value ++ (gap ++ '#' :: comment) := by
  obtain ⟨gap, comment, hgap, rfl⟩ := h
  have hgapNul : Char.ofNat 0 ∉ gap := fun hin => absurd (hgap _ hin) (by decide)
  refine ⟨gap, cStr comment, hgap, ?_⟩
  rw [List.append_assoc, cStr_append hnul, cStr_append hgapNul, cStr,
    List.takeWhile_cons_of_pos (by decide), cStr]

/-- A number ends in front of the comment. -/
theorem Commented.stoull_eq (h : Commented value value') : stoull value' = stoull value := by
  by_cases hnul : Char.ofNat 0 ∈ value
  · rw [stoull, stoull, h.cStr_of_nul hnul]
  · obtain ⟨gap, comment, hgap, hcStr⟩ := h.cStr_eq hnul
    have hspace : ∀ c ∈ gap, isSpace c = true := fun c hc => isSpace_of_isBlank (hgap c hc)
    have hself : cStr value = value := cStr_eq_self hnul
    rw [stoull, stoull, hcStr, hself,
      leadingNumber_append hspace (by decide) ⟨by decide, by decide⟩ (by decide)]

/-- An address with a comment is none. -/
theorem Commented.inetPton_eq (h : Commented value value') (hnul : Char.ofNat 0 ∉ value) :
    inetPton (cStr value') = none := by
  obtain ⟨gap, comment, -, hcStr⟩ := h.cStr_eq hnul
  cases hip : inetPton (cStr value') with
  | none => rfl
  | some ip =>
    have hmem : '#' ∈ cStr value' := by
      rw [hcStr]
      exact List.mem_append_right _ (List.mem_append_right _ List.mem_cons_self)
    rcases (inetPton_some hip).1 _ hmem with hdigit | hdot
    · exact absurd hdigit (by decide)
    · exact absurd hdot (by decide)

/-- Nothing of a list is lost when it is split, but for blanks and commas. -/
theorem count_splitCsv (s : List Char) : (splitCsv s).flatten.count '#' = s.count '#' := by
  have hlower : ∀ t : List Char, (toLower t).count '#' = t.count '#' := by
    intro t
    rw [toLower, List.count_eq_countP, List.countP_map, List.count_eq_countP]
    refine List.countP_congr fun c _ => ?_
    simp only [Function.comp_apply, beq_iff_eq]
    exact toLower_eq_iff (by decide)
  have htokens : ∀ ts : List (List Char),
      (((ts.map trim).filter (· ≠ [])).map toLower).flatten.count '#' = ts.flatten.count '#' := by
    intro ts
    induction ts with
    | nil => rfl
    | cons t ts ih =>
      rw [List.map_cons, List.flatten_cons, List.count_append, ← ih, ← count_trim rfl t]
      by_cases ht : trim t = []
      · simp [ht]
      · simp [ht, hlower]
  have hjoin : ∀ ts : List (List Char), ([','].intercalate ts).count '#' = ts.flatten.count '#' := by
    intro ts
    induction ts with
    | nil => rfl
    | cons t ts ih =>
      cases ts with
      | nil => simp
      | cons u us =>
        rw [List.intercalate_cons_cons, List.count_append, List.count_append, ih,
          List.count_eq_zero.mpr (by decide : '#' ∉ [',']), Nat.add_zero, ← List.count_append,
          ← List.flatten_cons]
  rw [splitCsv, htokens, ← hjoin, List.intercalate_splitOn]

theorem Commented.splitCsv_ne (h : Commented value value') : splitCsv value ≠ splitCsv value' := by
  obtain ⟨gap, comment, -, rfl⟩ := h
  intro heq
  have hcount := congrArg (fun l : List (List Char) => l.flatten.count '#') heq
  simp only [count_splitCsv, List.count_append, List.count_cons_self] at hcount
  omega

theorem Commented.gardenItems_ne (h : Commented value value') :
    gardenItems value ≠ gardenItems value' := by
  have hne : value' ≠ [] := List.ne_nil_of_mem h.mem
  unfold gardenItems
  rw [if_neg hne]
  split
  · exact (List.cons_ne_nil _ _).symm
  · exact fun heq => h.ne (List.cons.inj heq).1

end

/-! ## Harmless comments -/

/-- A later line that is read overwrites the field. -/
def Overwritten (k : ConfigKey) (rest : List ConfigUpdate × Option (List Char)) : Prop :=
  lastSet k rest.1 ≠ none

/-- The file is refused without the comment too, and leaves the configuration as it is before the
    line. -/
def RefusedUnchanged (cfg : HgConfig) (u : ConfigUpdate)
    (rest : List ConfigUpdate × Option (List Char)) : Prop :=
  (rest.2 = none ∨ cfg.isValid = false) ∧ configFields.Keeps cfg (u :: rest.1)

/-- A comment behind a line of this meaning makes no difference, with the configuration before the
    line and the updates behind it. -/
def CommentHarmless (cfg : HgConfig) (rest : List ConfigUpdate × Option (List Char)) :
    LineMeaning → Prop
  | .update (.append _ _) => False
  | .update (.set .logLevel v) => v = .info ∨ Overwritten .logLevel rest
  | .update (.set .portalMode v) => v = .builtin ∨ Overwritten .portalMode rest
  | .update (.set .ifaceName _) => Overwritten .ifaceName rest
  | .update (.set .gatewayFqdn _) => Overwritten .gatewayFqdn rest
  | .update (.set .portalIp v) =>
    if Char.ofNat 0 ∈ v then Overwritten .portalIp rest
    else RefusedUnchanged cfg (.set .portalIp v) rest
  | _ => True

/-- The updates of an assignment and of the lines behind it. -/
def LineMeaning.followedBy (rest : List ConfigUpdate × Option (List Char)) :
    LineMeaning → List ConfigUpdate × Option (List Char)
  | .refused => ([], none)
  | .nothing | .enters _ => rest
  | .update u => (u :: rest.1, rest.2)

theorem assignMeaning_ne_enters (sec key value name : List Char) :
    assignMeaning sec key value ≠ .enters name := by
  unfold assignMeaning
  split
  · cases preauthList key with
    | none => simp
    | some i => simp
  · split
    · split
      · simp
      · simp
    · cases ConfigKey.ofText key with
      | none => simp
      | some k =>
        dsimp only [keyMeaning]
        cases k.parse value with
        | none => simp
        | some v => simp

theorem readUpdates_assign {sec line key value : List Char} (h : readLine line = .assign key value)
    (post : List (List Char)) :
    readUpdates sec (line :: post) =
      (assignMeaning sec key value).followedBy (readUpdates sec post) := by
  have hline : lineMeaning sec line = assignMeaning sec key value := by rw [lineMeaning, h]
  rw [readUpdates, hline]
  cases hmeaning : assignMeaning sec key value with
  | refused => rfl
  | nothing => rfl
  | enters name => exact absurd hmeaning (assignMeaning_ne_enters sec key value name)
  | update u => rfl

section
variable {cfg : HgConfig} {rest : List ConfigUpdate × Option (List Char)}

/-- The configuration that is left decides what is returned. -/
theorem finish_update_iff {u u' : ConfigUpdate} :
    finish cfg ((LineMeaning.update u').followedBy rest) =
        finish cfg ((LineMeaning.update u).followedBy rest) ↔
      configFields.run (configFields.apply cfg u') rest.1 =
        configFields.run (configFields.apply cfg u) rest.1 := by
  constructor
  · exact fun h => congrArg Prod.snd h
  · intro h
    simp only [finish, LineMeaning.followedBy, run_cons, h]

theorem finish_set_iff (k : ConfigKey) (v v' : k.Value) :
    finish cfg ((LineMeaning.update (.set k v')).followedBy rest) =
        finish cfg ((LineMeaning.update (.set k v)).followedBy rest) ↔
      v' = v ∨ Overwritten k rest :=
  finish_update_iff.trans (configFields.run_put_eq_iff k v' v cfg rest.1)

theorem finish_append_iff (i : ConfigList) (xs ys : List (List Char)) :
    finish cfg ((LineMeaning.update (.append i ys)).followedBy rest) =
        finish cfg ((LineMeaning.update (.append i xs)).followedBy rest) ↔ ys = xs :=
  finish_update_iff.trans (configFields.run_append_eq_iff i ys xs cfg rest.1)

/-- A refused line ends like the rest of the file if that is refused and changes nothing. -/
theorem finish_refused_iff (u : ConfigUpdate) :
    finish cfg (LineMeaning.refused.followedBy rest) =
        finish cfg ((LineMeaning.update u).followedBy rest) ↔ RefusedUnchanged cfg u rest := by
  rw [RefusedUnchanged, ← configFields.run_eq_self_iff]
  have hrefused : finish cfg (LineMeaning.refused.followedBy rest) = (false, cfg) := rfl
  rw [hrefused, finish, LineMeaning.followedBy, Prod.mk.injEq, eq_comm, Bool.and_eq_false_iff,
    Option.isSome_eq_false_iff, Option.isNone_iff_eq_none, eq_comm (a := cfg)]
  exact and_congr_left fun hrun => by rw [hrun]

/-- An address is refused with a comment, unless a NUL hides that. -/
theorem finish_portalIp_iff {value value' : List Char} (h : Commented value value') :
    finish cfg ((keyMeaning .portalIp value').followedBy rest) =
        finish cfg ((keyMeaning .portalIp value).followedBy rest) ↔
      CommentHarmless cfg rest (keyMeaning .portalIp value) := by
  unfold keyMeaning ConfigKey.parse
  by_cases hnul : Char.ofNat 0 ∈ value
  · dsimp only
    rw [h.cStr_of_nul hnul]
    cases hip : (inetPton (cStr value)).isSome with
    | false => exact iff_of_true rfl trivial
    | true =>
      simp only [if_true, CommentHarmless, if_pos hnul]
      exact (finish_set_iff .portalIp _ _).trans (or_iff_right h.ne.symm)
  · dsimp only
    rw [h.inetPton_eq hnul]
    cases hip : (inetPton (cStr value)).isSome with
    | false => exact iff_of_true rfl trivial
    | true =>
      simp only [Option.isSome_none, if_true, CommentHarmless, if_neg hnul]
      exact finish_refused_iff _

/-- A comment behind an assignment makes no difference to the rest of the file exactly if it is
    harmless. -/
theorem finish_commented_iff {value value' : List Char} (h : Commented value value')
    (sec key : List Char) :
    finish cfg ((assignMeaning sec key value').followedBy rest) =
        finish cfg ((assignMeaning sec key value).followedBy rest) ↔
      CommentHarmless cfg rest (assignMeaning sec key value) := by
  unfold assignMeaning
  split
  · cases preauthList key with
    | none => exact iff_of_true rfl trivial
    | some i => exact (finish_append_iff i _ _).trans (iff_of_false h.splitCsv_ne.symm id)
  · split
    · split
      · exact (finish_append_iff _ _ _).trans (iff_of_false h.gardenItems_ne.symm id)
      · exact iff_of_true rfl trivial
    · cases ConfigKey.ofText key with
      | none => exact iff_of_true rfl trivial
      | some k =>
        dsimp only
        cases k with
        | logLevel =>
          simp only [keyMeaning, ConfigKey.parse, h.parseLogLevel_eq]
          exact (finish_set_iff .logLevel _ _).trans (or_congr_left eq_comm)
        | portalMode =>
          simp only [keyMeaning, ConfigKey.parse, h.parsePortalMode_eq]
          exact (finish_set_iff .portalMode _ _).trans (or_congr_left eq_comm)
        | ifaceName =>
          exact (finish_set_iff .ifaceName _ _).trans (or_iff_right h.ne.symm)
        | gatewayFqdn =>
          exact (finish_set_iff .gatewayFqdn _ _).trans (or_iff_right h.ne.symm)
        | portalIp => exact finish_portalIp_iff h
        | httpPort | sessionTimeout | maxClients | uRate | dRate | quota =>
          simp only [keyMeaning, ConfigKey.parse, parseHttpPort, stoulU32, h.stoull_eq]
          refine iff_of_true trivial ?_
          split
          · trivial
          · trivial

end

/-! ## Files -/

theorem finish_run (cfg : HgConfig) (us : List ConfigUpdate)
    (r : List ConfigUpdate × Option (List Char)) :
    finish cfg (us ++ r.1, r.2) = finish (configFields.run cfg us) r := by
  rw [finish, finish, run_append]

/-- A comment behind an assignment leaves what is returned and the configuration as they are if
    and only if a line before it is refused, or the comment is harmless. -/
theorem comment_ignored_iff {cfg : HgConfig} {text line key value comment : List Char}
    {pre post : List (List Char)} {n : Nat} (htext : text.splitOn '\n' = pre ++ line :: post)
    (hline : readLine line = .assign key value) (hcomment : '\n' ∉ comment) :
    loadInto cfg (commentedText pre line post n comment) = loadInto cfg text ↔
      ∀ us sec, readUpdates [] pre = (us, some sec) →
        CommentHarmless (configFields.run cfg us) (readUpdates sec post)
          (assignMeaning sec key value) := by
  have hnl : ∀ l ∈ pre ++ line :: post, '\n' ∉ l := fun l hl =>
    not_mem_of_mem_splitOn (htext ▸ hl)
  have hnl' : ∀ l ∈ pre ++ (line ++ inlineComment n comment) :: post, '\n' ∉ l := by
    intro l hl
    rw [List.mem_append, List.mem_cons] at hl
    rcases hl with hl | rfl | hl
    · exact hnl l (List.mem_append_left _ hl)
    · have hline : '\n' ∉ line := hnl line (List.mem_append_right _ List.mem_cons_self)
      simp [inlineComment, hline, hcomment]
    · exact hnl l (List.mem_append_right _ (List.mem_cons_of_mem _ hl))
  obtain ⟨value', hline', hvalue⟩ := readLine_comment hline n comment
  rw [loadInto_eq_finish, loadInto_eq_finish, htext, commentedText,
    List.splitOn_intercalate '\n' hnl' (by simp)]
  obtain ⟨us, sec, hpre⟩ : ∃ us sec, readUpdates [] pre = (us, sec) := ⟨_, _, rfl⟩
  cases sec with
  | none =>
    rw [readUpdates_append_refused hpre, readUpdates_append_refused hpre]
    refine iff_of_true rfl ?_
    rintro us' sec hread
    rw [hpre] at hread
    cases hread
  | some sec =>
    rw [readUpdates_append hpre, readUpdates_append hpre, finish_run, finish_run,
      readUpdates_assign hline', readUpdates_assign hline, finish_commented_iff hvalue]
    constructor
    · rintro h us' sec' hread
      rw [hpre] at hread
      obtain ⟨rfl, hsec⟩ := Prod.mk.inj hread
      obtain rfl := Option.some.inj hsec
      exact h
    · exact fun h => h us sec hpre

/-- The user guide's file, with the addresses and numbers that have comments there. -/
def guideFile : List (List Char) :=
  ["iface_name = br0".toList, "http_port = 2050".toList, "portal_ip = 192.168.99.1".toList,
    "gateway_fqdn = portal.hawkgate.local".toList, "session_timeout = 3600".toList,
    "max_clients = 4096".toList]

/-- The port may have a comment. -/
theorem comment_ignored_port :
    loadInto .init (commentedText (guideFile.take 1) "http_port = 2050".toList (guideFile.drop 2)
        14 " hawkgated HTTP port".toList) =
      loadInto .init (['\n'].intercalate guideFile) := by
  have hline : readLine "http_port = 2050".toList =
      .assign "http_port".toList "2050".toList := by rfl
  refine (comment_ignored_iff (by decide) hline (by decide)).mpr ?_
  intro us sec hread
  obtain ⟨-, hsec⟩ := Prod.mk.inj hread
  obtain rfl := Option.some.inj hsec
  trivial

/-- With a comment behind the address the file is refused. -/
theorem commented_address_refused :
    ¬ loadInto .init (commentedText (guideFile.take 2) "portal_ip = 192.168.99.1".toList
        (guideFile.drop 3) 5 " gateway IP on the interface".toList) =
      loadInto .init (['\n'].intercalate guideFile) := by
  decide +kernel

end HawkGate
