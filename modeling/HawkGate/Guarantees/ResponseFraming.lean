-- SUMMARY: Every response of the router is one HTTP message whose stated length is that of its body.
import HawkGate.Daemon.Portal
import HawkGate.Daemon.RequestText
import HawkGate.Guarantees.ConfiguredLimits

/-!
# Response framing

The handlers assemble their responses by hand. Each of them is a status line,
header fields and a body with the length of the body as the last field. Data from
the configuration gets into the header block of the redirections only, and an
accepted configuration holds no line feed.
-/

namespace HawkGate

open CString StdString

/-! ## Framed messages -/

/-- A response that a client reads in one way: a status line and fields up to the first empty line,
    and exactly one field that states a length, that of everything behind the empty line. -/
structure FramedAs (response status : List Char) (fields : List Field) (body : List Char) :
    Prop where
  text : response = status ++ crlf ++ (fieldLines fields ++ body)
  http : "HTTP/1.1 ".toList <+: status
  status_crlf : ¬ crlf <:+: status
  proper : ∀ f ∈ fields, f.Proper
  first_empty_line : ∃ head, cut (crlf ++ crlf) response = some (head, body)
  length : (fields.filter fun f => toLower f.1 = "content-length".toList) =
    [("Content-Length".toList, ' ' :: decimal body.length)]

def Framed (response : List Char) : Prop := ∃ status fields body, FramedAs response status fields body

/-- A response with the length of the body as its last field. -/
def message (status : List Char) (fields : List Field) (body : List Char) : List Char :=
  status ++ crlf ++
    (fieldLines (fields ++ [("Content-Length".toList, ' ' :: decimal body.length)]) ++ body)

/-- A text without a line feed has no line break. -/
theorem not_crlf_of_not_mem {s : List Char} (h : '\n' ∉ s) : ¬ crlf <:+: s :=
  fun hin => h (hin.subset (by decide))

/-- No line break starts inside a line. -/
theorem not_prefix_line {line : List Char} (h : ¬ crlf <:+: line) (hne : line ≠ []) (s : List Char) :
    ¬ crlf <+: line ++ crlf ++ s := by
  rintro ⟨t, ht⟩
  have hcut := cut_line h s
  rw [← ht, cut_of_prefix] at hcut
  exact hne (congrArg Prod.fst (Option.some.inj hcut)).symm

/-- The search for the empty line goes on behind a line that no line break follows. -/
theorem cut_emptyLine_line {line s : List Char} (h : ¬ crlf <:+: line) (hs : ¬ crlf <+: s) :
    cut (crlf ++ crlf) (line ++ crlf ++ s) =
      (cut (crlf ++ crlf) s).map fun r => (line ++ crlf ++ r.1, r.2) := by
  induction line with
  | nil =>
    have hr : ¬ crlf ++ crlf <+: '\r' :: '\n' :: s := fun hpre =>
      hs ((List.prefix_append_right_inj crlf).mp hpre)
    have hn : ¬ crlf ++ crlf <+: '\n' :: s := by
      intro hpre
      obtain ⟨hc, -⟩ := List.cons_prefix_cons.mp hpre
      exact absurd hc (by decide)
    change cut (crlf ++ crlf) ('\r' :: '\n' :: s) = _
    rw [cut_cons hr, cut_cons hn, Option.map_map]
    rfl
  | cons c line ih =>
    have hpre : ¬ crlf ++ crlf <+: c :: (line ++ crlf ++ s) := fun hpre =>
      not_prefix_line h (List.cons_ne_nil c line) s ((List.prefix_append crlf crlf).trans hpre)
    rw [List.cons_append, List.cons_append, cut_cons hpre,
      ih fun hin => h (hin.trans (List.suffix_cons c line).isInfix), Option.map_map]
    rfl

/-- The empty line behind a line. -/
theorem cut_emptyLine {line : List Char} (h : ¬ crlf <:+: line) (body : List Char) :
    cut (crlf ++ crlf) (line ++ crlf ++ (crlf ++ body)) = some (line, body) := by
  induction line with
  | nil => exact cut_of_prefix (crlf ++ crlf) body
  | cons c line ih =>
    have hpre : ¬ crlf ++ crlf <+: c :: (line ++ crlf ++ (crlf ++ body)) := fun hpre =>
      not_prefix_line h (List.cons_ne_nil c line) (crlf ++ body)
        ((List.prefix_append crlf crlf).trans hpre)
    rw [List.cons_append, List.cons_append, cut_cons hpre,
      ih fun hin => h (hin.trans (List.suffix_cons c line).isInfix)]
    rfl

/-- The header block ends behind its fields. -/
theorem cut_fieldLines {line : List Char} (h : ¬ crlf <:+: line) {fields : List Field}
    (hfields : ∀ f ∈ fields, f.Proper) (body : List Char) :
    ∃ head, cut (crlf ++ crlf) (line ++ crlf ++ (fieldLines fields ++ body)) = some (head, body) := by
  induction fields generalizing line with
  | nil => exact ⟨line, cut_emptyLine h body⟩
  | cons f fields ih =>
    rw [List.forall_mem_cons] at hfields
    obtain ⟨head, hcut⟩ := ih hfields.1.line_crlf hfields.2
    rw [fieldLines_cons, cut_emptyLine_line h (not_prefix_line hfields.1.line_crlf f.line_ne_nil _),
      hcut]
    exact ⟨_, rfl⟩

theorem framed_message {status : List Char} {fields : List Field} {body : List Char}
    (hhttp : "HTTP/1.1 ".toList <+: status) (hstatus : ¬ crlf <:+: status)
    (hfields : ∀ f ∈ fields, f.Proper ∧ toLower f.1 ≠ "content-length".toList) :
    Framed (message status fields body) := by
  have hlength : Field.Proper ("Content-Length".toList, ' ' :: decimal body.length) := by
    refine ⟨(by decide : ':' ∉ "Content-Length".toList),
      not_crlf_of_not_mem (by decide : '\n' ∉ "Content-Length".toList), fun hin => ?_⟩
    have hmem : '\n' ∈ ' ' :: decimal body.length := hin.subset (by decide)
    rcases List.mem_cons.mp hmem with heq | hmem
    · exact absurd heq (by decide)
    · exact not_mem_decimal (by decide) _ hmem
  have hproper : ∀ f ∈ fields ++ [("Content-Length".toList, ' ' :: decimal body.length)],
      f.Proper := by
    intro f hf
    rcases List.mem_append.mp hf with hf | hf
    · exact (hfields f hf).1
    · rw [List.mem_singleton] at hf
      exact hf ▸ hlength
  refine ⟨status, _, body, rfl, hhttp, hstatus, hproper, cut_fieldLines hstatus hproper body, ?_⟩
  rw [List.filter_append, List.filter_eq_nil_iff.mpr, List.nil_append]
  · rfl
  · intro f hf
    rw [decide_eq_true_iff]
    exact (hfields f hf).2

/-! ## The responses as messages -/

theorem message_eq (status : List Char) (fields : List Field) (body : List Char) :
    message status fields body =
      status ++ crlf ++ fields.flatMap (fun f => f.line ++ crlf) ++ "Content-Length: ".toList ++
        decimal body.length ++ "\r\n\r\n".toList ++ body := by
  have hline : ∀ d : List Char, Field.line ("Content-Length".toList, ' ' :: d) =
      "Content-Length: ".toList ++ d := fun _ => rfl
  have hcrlf : "\r\n\r\n".toList = crlf ++ crlf := rfl
  simp only [message, fieldLines, hline, hcrlf, List.flatMap_append, List.flatMap_cons,
    List.flatMap_nil, List.append_assoc, List.append_nil]

def jsonType : Field := ("Content-Type".toList, " application/json".toList)

def htmlType : Field := ("Content-Type".toList, " text/html".toList)

def location (url : List Char) : Field := ("Location".toList, ' ' :: url)

theorem location_line (url : List Char) : (location url).line = "Location: ".toList ++ url := rfl

theorem jsonResponse_eq (status body : List Char) :
    jsonResponse status body = message status [jsonType] body := by
  unfold jsonResponse
  simp only [message_eq, List.flatMap_cons, List.flatMap_nil, List.append_assoc, List.append_nil]
  rfl

theorem htmlResponse_eq (body : List Char) :
    htmlResponse body = message "HTTP/1.1 200 OK".toList [htmlType] body := by
  have hhead : "HTTP/1.1 200 OK\r\nContent-Type: text/html\r\nContent-Length: ".toList =
      "HTTP/1.1 200 OK".toList ++ (crlf ++ (htmlType.line ++ (crlf ++ "Content-Length: ".toList))) :=
    by decide +kernel
  unfold htmlResponse
  simp only [hhead, message_eq, List.flatMap_cons, List.flatMap_nil, List.append_assoc,
    List.append_nil]

theorem loggedInResponse_eq (cfg : HgConfig) :
    loggedInResponse cfg =
      message "HTTP/1.1 302 Found".toList [location (portalUrl cfg "/portal/success".toList)] [] := by
  have hhead : "HTTP/1.1 302 Found\r\nLocation: ".toList =
      "HTTP/1.1 302 Found".toList ++ (crlf ++ "Location: ".toList) := by decide +kernel
  have hlength : "\r\nContent-Length: 0\r\n\r\n".toList =
      crlf ++ ("Content-Length: ".toList ++ (decimal ([] : List Char).length ++
        "\r\n\r\n".toList)) := by decide +kernel
  unfold loggedInResponse
  simp only [hhead, hlength, message_eq, location_line, List.flatMap_cons, List.flatMap_nil,
    List.append_assoc, List.append_nil]

theorem redirectResponse_eq (cfg : HgConfig) :
    ∃ body, redirectResponse cfg = message "HTTP/1.1 307 Temporary Redirect".toList
      [location (portalUrl cfg "/portal".toList), htmlType] body := by
  have hhead : "HTTP/1.1 307 Temporary Redirect\r\nLocation: ".toList =
      "HTTP/1.1 307 Temporary Redirect".toList ++ (crlf ++ "Location: ".toList) := by decide +kernel
  have hlength : "\r\nContent-Type: text/html\r\nContent-Length: ".toList =
      crlf ++ (htmlType.line ++ (crlf ++ "Content-Length: ".toList)) := by decide +kernel
  refine ⟨"<html><head></head><body><a href='".toList ++ portalUrl cfg "/portal".toList ++
    "'>Click here to sign in</a></body></html>".toList, ?_⟩
  unfold redirectResponse
  simp only [hhead, hlength, message_eq, location_line, List.flatMap_cons, List.flatMap_nil,
    List.append_assoc, List.append_nil]

theorem notFoundResponse_eq :
    notFoundResponse = message "HTTP/1.1 404 Not Found".toList [] [] := by
  decide +kernel

theorem notImplementedResponse_eq :
    notImplementedResponse = message "HTTP/1.1 501 Not Implemented".toList [] [] := by
  decide +kernel

def captiveType : Field := ("Content-Type".toList, " application/captive+json".toList)

def noCache : Field := ("Cache-Control".toList, " no-cache".toList)

theorem capportResponse_eq (body : List Char) :
    capportResponse body = message "HTTP/1.1 200 OK".toList [captiveType, noCache] body := by
  have hhead : "HTTP/1.1 200 OK\r\nContent-Type: application/captive+json\r\n".toList =
      "HTTP/1.1 200 OK".toList ++ (crlf ++ (captiveType.line ++ crlf)) := by decide +kernel
  have hcache : "Cache-Control: no-cache\r\nContent-Length: ".toList =
      noCache.line ++ (crlf ++ "Content-Length: ".toList) := by decide +kernel
  unfold capportResponse
  simp only [hhead, hcache, message_eq, List.flatMap_cons, List.flatMap_nil, List.append_assoc,
    List.append_nil]

/-- The status line of the answer to a probe. -/
def OsProbe.statusLine (probe : OsProbe) : List Char :=
  "HTTP/1.1 ".toList ++ decimal probe.status ++ " ".toList ++
    (if probe.status = 200 then "OK".toList else "No Content".toList)

def OsProbe.fields (probe : OsProbe) : List Field :=
  probe.contentType.elim [] fun t => [("Content-Type".toList, ' ' :: t)]

theorem OsProbe.response_eq (probe : OsProbe) :
    probe.response = message probe.statusLine probe.fields (probe.body.getD []) := by
  have htype : ∀ t : List Char, Field.line ("Content-Type".toList, ' ' :: t) =
      "Content-Type: ".toList ++ t := fun _ => rfl
  have hcrlf : "\r\n".toList = crlf := by decide +kernel
  have hempty : "Content-Length: 0\r\n\r\n".toList =
      "Content-Length: ".toList ++ (decimal ([] : List Char).length ++ "\r\n\r\n".toList) := by
    decide +kernel
  unfold OsProbe.response OsProbe.statusLine OsProbe.fields
  cases probe.contentType with
  | none =>
    cases probe.body with
    | none =>
      simp only [Option.elim_none, Option.getD_none, hcrlf, hempty, message_eq, List.flatMap_nil,
        List.append_assoc, List.append_nil]
    | some b =>
      simp only [Option.elim_none, Option.elim_some, Option.getD_some, hcrlf, message_eq,
        List.flatMap_nil, List.append_assoc, List.append_nil]
  | some t =>
    cases probe.body with
    | none =>
      simp only [Option.elim_none, Option.elim_some, Option.getD_none, hcrlf, hempty, htype,
        message_eq, List.flatMap_cons, List.flatMap_nil, List.append_assoc, List.append_nil]
    | some b =>
      simp only [Option.elim_some, Option.getD_some, hcrlf, htype, message_eq, List.flatMap_cons,
        List.flatMap_nil, List.append_assoc, List.append_nil]

/-! ## Each response is framed -/

/-- A field that is no length, with a text on one line. -/
def Field.Plain (f : Field) : Prop := f.Proper ∧ toLower f.1 ≠ "content-length".toList

theorem jsonType_plain : jsonType.Plain :=
  ⟨⟨by decide, not_crlf_of_not_mem (by decide), not_crlf_of_not_mem (by decide)⟩, by decide⟩

theorem htmlType_plain : htmlType.Plain :=
  ⟨⟨by decide, not_crlf_of_not_mem (by decide), not_crlf_of_not_mem (by decide)⟩, by decide⟩

theorem captiveType_plain : captiveType.Plain :=
  ⟨⟨by decide, not_crlf_of_not_mem (by decide), not_crlf_of_not_mem (by decide)⟩, by decide⟩

theorem noCache_plain : noCache.Plain :=
  ⟨⟨by decide, not_crlf_of_not_mem (by decide), not_crlf_of_not_mem (by decide)⟩, by decide⟩

theorem location_plain {url : List Char} (h : '\n' ∉ url) : (location url).Plain := by
  refine ⟨⟨(by decide : ':' ∉ "Location".toList),
    not_crlf_of_not_mem (by decide : '\n' ∉ "Location".toList),
    not_crlf_of_not_mem ?_⟩, (by decide : toLower "Location".toList ≠ "content-length".toList)⟩
  change '\n' ∉ ' ' :: url
  rw [List.mem_cons, not_or]
  exact ⟨by decide, h⟩

/-- The address of the portal stays on its line. -/
theorem portalUrl_line {cfg : HgConfig} (h : '\n' ∉ cfg.portalIp) {path : List Char}
    (hpath : '\n' ∉ path) : '\n' ∉ portalUrl cfg path := by
  unfold portalUrl
  simp only [List.mem_append, not_or]
  exact ⟨⟨⟨⟨by decide, h⟩, by decide⟩, not_mem_decimal (by decide) _⟩, hpath⟩

theorem framed_jsonResponse {status : List Char} (hhttp : "HTTP/1.1 ".toList <+: status)
    (hstatus : ¬ crlf <:+: status) (body : List Char) : Framed (jsonResponse status body) := by
  rw [jsonResponse_eq]
  exact framed_message hhttp hstatus (List.forall_mem_singleton.mpr jsonType_plain)

theorem framed_htmlResponse (body : List Char) : Framed (htmlResponse body) := by
  rw [htmlResponse_eq]
  exact framed_message (by decide) (not_crlf_of_not_mem (by decide))
    (List.forall_mem_singleton.mpr htmlType_plain)

theorem framed_capportResponse (body : List Char) : Framed (capportResponse body) := by
  rw [capportResponse_eq]
  exact framed_message (by decide) (not_crlf_of_not_mem (by decide))
    (List.forall_mem_cons.mpr ⟨captiveType_plain, List.forall_mem_singleton.mpr noCache_plain⟩)

theorem framed_notFoundResponse : Framed notFoundResponse := by
  rw [notFoundResponse_eq]
  exact framed_message (by decide) (not_crlf_of_not_mem (by decide)) (List.forall_mem_nil _)

theorem framed_notImplementedResponse : Framed notImplementedResponse := by
  rw [notImplementedResponse_eq]
  exact framed_message (by decide) (not_crlf_of_not_mem (by decide)) (List.forall_mem_nil _)

theorem framed_loggedInResponse {cfg : HgConfig} (h : '\n' ∉ cfg.portalIp) :
    Framed (loggedInResponse cfg) := by
  rw [loggedInResponse_eq]
  exact framed_message (by decide) (not_crlf_of_not_mem (by decide))
    (List.forall_mem_singleton.mpr (location_plain (portalUrl_line h (by decide))))

theorem framed_redirectResponse {cfg : HgConfig} (h : '\n' ∉ cfg.portalIp) :
    Framed (redirectResponse cfg) := by
  obtain ⟨body, heq⟩ := redirectResponse_eq cfg
  rw [heq]
  exact framed_message (by decide) (not_crlf_of_not_mem (by decide))
    (List.forall_mem_cons.mpr ⟨location_plain (portalUrl_line h (by decide)),
      List.forall_mem_singleton.mpr htmlType_plain⟩)

/-- The types that the probes expect stay on their line. -/
theorem osProbes_contentType :
    ∀ probe ∈ osProbes, ∀ t ∈ probe.contentType, '\n' ∉ t := by
  decide +kernel

theorem framed_probe {probe : OsProbe} (hprobe : probe ∈ osProbes) : Framed probe.response := by
  rw [OsProbe.response_eq]
  refine framed_message ?_ (not_crlf_of_not_mem ?_) ?_
  · unfold OsProbe.statusLine
    simp only [List.append_assoc]
    exact List.prefix_append _ _
  · have hreason : '\n' ∉ if probe.status = 200 then "OK".toList else "No Content".toList := by
      split
      · decide
      · decide
    unfold OsProbe.statusLine
    simp only [List.mem_append, not_or]
    exact ⟨⟨⟨by decide, not_mem_decimal (by decide) _⟩, by decide⟩, hreason⟩
  · have htype := osProbes_contentType probe hprobe
    unfold OsProbe.fields
    cases hct : probe.contentType with
    | none => exact List.forall_mem_nil _
    | some t =>
      refine List.forall_mem_singleton.mpr ⟨⟨(by decide : ':' ∉ "Content-Type".toList),
        not_crlf_of_not_mem (by decide : '\n' ∉ "Content-Type".toList), not_crlf_of_not_mem ?_⟩,
        (by decide : toLower "Content-Type".toList ≠ "content-length".toList)⟩
      change '\n' ∉ ' ' :: t
      rw [List.mem_cons, not_or]
      exact ⟨by decide, htype t hct⟩

/-! ## The router -/

theorem handleAuth_framed {cfg : HgConfig} (h : '\n' ∉ cfg.portalIp) (provider : AuthProvider)
    (req : HttpRequest) (clientIp : List Char) (port : UInt16) :
    (handleAuth cfg provider req clientIp port).Ensures Framed := by
  unfold handleAuth
  dsimp only
  by_cases hok : (provider (loginCredentials req clientIp)).success = true
  · rw [if_pos hok]
    refine Prog.ensures_bind _ fun applied => ?_
    by_cases happlied : applied = true
    · rw [if_pos happlied]
      exact Prog.ensures_bind _ fun _ => Prog.ensures_pure (framed_loggedInResponse h)
    · rw [if_neg happlied]
      exact Prog.ensures_pure (framed_jsonResponse (by decide) (not_crlf_of_not_mem (by decide)) _)
  · rw [if_neg hok]
    exact Prog.ensures_pure (framed_jsonResponse (by decide) (not_crlf_of_not_mem (by decide)) _)

theorem handlePortal_framed {cfg : HgConfig} (h : '\n' ∉ cfg.portalIp) (req : HttpRequest)
    (clientIp : List Char) : (handlePortal cfg req clientIp).Ensures Framed := by
  unfold handlePortal
  refine Prog.ensures_bind _ fun stats => ?_
  split
  · split
    · next probe hprobe => exact Prog.ensures_pure (framed_probe (List.mem_of_find?_eq_some hprobe))
    · exact Prog.ensures_pure framed_notFoundResponse
  · split
    · exact Prog.ensures_bind _ fun body => Prog.ensures_pure (framed_htmlResponse body)
    · exact Prog.ensures_pure (framed_redirectResponse h)

theorem route_ensures_framed {cfg : HgConfig} (h : '\n' ∉ cfg.portalIp) (provider : AuthProvider)
    (req : HttpRequest) (clientIp : List Char) (port : UInt16) :
    (route cfg provider req clientIp port).Ensures Framed := by
  unfold route
  split
  · exact handleAuth_framed h provider req clientIp port
  · split
    · exact handlePortal_framed h req clientIp
    · split
      · exact Prog.ensures_bind _ fun page => Prog.ensures_pure (framed_htmlResponse _)
      · split
        · exact Prog.ensures_bind _ fun stats => Prog.ensures_pure (framed_capportResponse _)
        · split
          · exact Prog.ensures_pure framed_notImplementedResponse
          · exact handlePortal_framed h req clientIp

/-! ## The configuration -/

/-- What a line without a line feed assigns has none. -/
theorem readLine_value {line key value : List Char} (h : readLine line = .assign key value)
    (hline : '\n' ∉ line) : '\n' ∉ value := by
  have hassign : ∀ r, splitFirst '=' line = some r → '\n' ∉ trim r.2 := by
    intro r hr hin
    exact hline (splitFirst_subset hr (trim_subset _ hin))
  unfold readLine at h
  split at h
  · cases h
  · cases h
  · split at h
    · cases h
    · cases h
  · split at h
    · cases h
    · next hsplit =>
      obtain ⟨-, rfl⟩ := ConfigLine.assign.inj h
      exact hassign _ hsplit

theorem portalIp_setKey {cfg cfg' : HgConfig} {k : ConfigKey} {value : List Char}
    (hvalue : '\n' ∉ value) (h : '\n' ∉ cfg.portalIp) (hset : cfg.setKey k value = some cfg') :
    '\n' ∉ cfg'.portalIp := by
  cases k with
  | logLevel | ifaceName | gatewayFqdn | portalMode =>
    obtain rfl := Option.some.inj hset
    exact h
  | portalIp =>
    simp only [HgConfig.setKey] at hset
    split at hset
    · obtain rfl := Option.some.inj hset
      exact hvalue
    · cases hset
  | httpPort | maxClients | quota | sessionTimeout | uRate | dRate =>
    obtain ⟨v, -, rfl⟩ := Option.map_eq_some_iff.mp hset
    exact h

/-- The address of the portal has no line feed while lines without one are read. -/
theorem portalIp_read {st st' : LoadState} {line : List Char} (hline : '\n' ∉ line)
    (h : '\n' ∉ st.cfg.portalIp) (hread : st.read line = some st') : '\n' ∉ st'.cfg.portalIp := by
  unfold LoadState.read at hread
  cases hl : readLine line with
  | skip =>
    rw [hl] at hread
    obtain rfl := Option.some.inj hread
    exact h
  | sectionName name =>
    rw [hl] at hread
    obtain rfl := Option.some.inj hread
    exact h
  | assign key value =>
    simp only [hl] at hread
    split at hread
    · obtain rfl := Option.some.inj hread
      obtain ⟨l2, l3, l4, heq⟩ := addPreauth_frame st.cfg key value
      exact heq ▸ h
    · split at hread
      · obtain rfl := Option.some.inj hread
        obtain ⟨ips, heq⟩ := addWalledGarden_frame st.cfg key value
        exact heq ▸ h
      · cases hkey : ConfigKey.ofText key with
        | none =>
          rw [hkey] at hread
          obtain rfl := Option.some.inj hread
          exact h
        | some k =>
          simp only [hkey] at hread
          obtain ⟨cfg, hset, rfl⟩ := Option.map_eq_some_iff.mp hread
          exact portalIp_setKey (readLine_value hl hline) h hset

/-- The address of the portal in an accepted configuration stays on one line. -/
theorem portalIp_of_loadConfig {text : List Char} {cfg : HgConfig} (h : loadConfig text = some cfg) :
    '\n' ∉ cfg.portalIp := by
  have hlines : ∀ (lines : List (List Char)) {st st' : LoadState}, (∀ l ∈ lines, '\n' ∉ l) →
      '\n' ∉ st.cfg.portalIp → lines.foldlM LoadState.read st = some st' →
      '\n' ∉ st'.cfg.portalIp := by
    intro lines
    induction lines with
    | nil =>
      intro st st' _ hst hfold
      obtain rfl := Option.some.inj hfold
      exact hst
    | cons line lines ih =>
      intro st st' hall hst hfold
      rw [List.forall_mem_cons] at hall
      rw [List.foldlM_cons] at hfold
      obtain ⟨st₁, hread, hrest⟩ := Option.bind_eq_some_iff.mp hfold
      exact ih hall.2 (portalIp_read hall.1 hst hread) hrest
  obtain ⟨st, hfold, hvalid⟩ := Option.bind_eq_some_iff.mp h
  split at hvalid
  · obtain rfl := Option.some.inj hvalid
    exact hlines _ (fun l hl => not_mem_of_mem_splitOn hl) List.not_mem_nil hfold
  · cases hvalid

/-- Under an accepted configuration every response of the router is one framed message, whatever the
    request, the client, the provider, and the answers of the reader, of the commands and of the
    file system are. -/
theorem route_framed {text : List Char} {cfg : HgConfig} (h : loadConfig text = some cfg)
    (provider : AuthProvider) (req : HttpRequest) (clientIp : List Char) (port : UInt16)
    {σ : Type} (answer : ∀ {β : Type}, σ → DaemonOp β → β × σ) (s : σ) :
    Framed (Prog.run answer s (route cfg provider req clientIp port)).1 :=
  (route_ensures_framed (portalIp_of_loadConfig h) provider req clientIp port).run answer s

/-- The answer to a login. -/
theorem route_framed_login :
    Framed (Prog.run (DaemonOp.exec (.good ⟨0, 0⟩ fun _ => none)) knownClient
      (route (limitsConfig 3600 8000) localAuth loginRequest "192.168.99.82".toList 40000)).1 :=
  route_framed loadConfig_limitsFile localAuth loginRequest _ _ _ _

end HawkGate
