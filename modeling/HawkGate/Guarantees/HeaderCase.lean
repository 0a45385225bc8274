-- SUMMARY: When spelling header names in another letter case leaves the handling of a request as it is.
import HawkGate.Daemon.Portal
import HawkGate.Daemon.RequestText
import HawkGate.Guarantees.ExplicitLogin
import Mathlib.Data.Bool.AllAny
import Mathlib.Data.List.Infix

/-!
# Letter case of header names

The parser compares header names with `Content-Length` and the portal looks up
`Host`, both as exact texts. Another spelling of a name hides a header from them
or uncovers one. The handling of two spellings of a request is compared: how the
parser ends, the body, and what the router answers and does.
-/

namespace HawkGate

open CString StdString Bytes

/-! ## Two spellings of a request -/

/-- The same field with its name in another letter case. -/
def Field.SameUpToCase (f g : Field) : Prop := toLower f.1 = toLower g.1 ∧ f.2 = g.2

/-- A request and its field lines in another spelling. -/
structure RespelledRequest extends RequestLine where
  fields : List Field
  others : List Field
  /-- The bytes behind the empty line. -/
  rest : List Char
  proper : ∀ f ∈ fields, f.Proper
  respelled : List.Forall₂ Field.SameUpToCase fields others

/-- The parser after the two spellings are handled in the same way: it ends in the same state with
    the same body, and if the request is complete, the router gives every client the same answer and
    does the same to the maps, whatever the configuration, the provider and the system are. -/
structure SameHandling (p q : HgParser) : Prop where
  state : p.state = q.state
  body : p.request.body = q.request.body
  route : p.state = .complete → ∀ (ncpu : Nat) (cfg : HgConfig) (provider : AuthProvider)
    (clientIp : List Char) (port : UInt16) (env : DaemonEnv) (s : HgMaps ncpu),
    (route cfg provider p.request clientIp port).run env s =
      (route cfg provider q.request clientIp port).run env s

/-! ## What depends on the spelling -/

/-- The value that the parser leaves under a name: the last one, by the exact name. -/
def lastValue (name : List Char) (fields : List Field) : Option (List Char) :=
  ((fields.filter (·.1 = name)).getLast?).map fun f => headerValue f.2

/-- The host that the portal sees. -/
def hostField (fields : List Field) : List Char := (lastValue "Host".toList fields).getD []

/-- What a client with a session is answered for a host and a path. -/
def probeAnswer (host path : List Char) : List Char :=
  match osProbes.find? fun probe => host = probe.host ∧ path = probe.path with
  | some probe => probe.response
  | none => notFoundResponse

/-- The router answers the path with the help of the host. -/
def HostMatters (path : List Char) : Prop :=
  path ∉ ["/login".toList, "/portal".toList, "/portal/success".toList] ∧
    "/api/v1/".toList.isPrefixOf path = false

/-- Two hosts that no answer tells apart. -/
def SameHost (path host host' : List Char) : Prop :=
  hostName host = hostName host' ∧ probeAnswer host path = probeAnswer host' path

/-- Two lengths that end the parser in the same way, with `size` bytes behind the head: they are
    the same, or the body of neither is there. -/
def SameLength (size : Nat) (o o' : Option UInt64) : Prop :=
  o = o' ∨ ∃ n n', o = some n ∧ o' = some n' ∧ size < n.toNat ∧ size < n'.toNat

namespace RespelledRequest

variable (r : RespelledRequest)

/-- The parser at the end of the request. -/
def parsed : HgParser := HgParser.init.feed (requestText r.toRequestLine r.fields r.rest)

/-- The parser at the end of the request in its other spelling. -/
def otherParsed : HgParser := HgParser.init.feed (requestText r.toRequestLine r.others r.rest)

/-- The body is there. -/
def Complete : Prop := ∃ n, lengthOf 0 r.fields = some n ∧ n.toNat ≤ r.rest.length

/-- The names `Content-Length` and `Host` in their exact spelling give both spellings of the
    request the same meaning. -/
def Harmless : Prop :=
  SameLength r.rest.length (lengthOf 0 r.fields) (lengthOf 0 r.others) ∧
    (r.Complete → HostMatters r.path → SameHost r.path (hostField r.fields) (hostField r.others))

end RespelledRequest

/-! ## The parser -/

theorem Field.SameUpToCase.proper {f g : Field} (h : f.SameUpToCase g) (hf : f.Proper) :
    g.Proper := by
  have hname : ∀ pat : List Char, (∀ c ∈ pat, c.toNat < 65) → (pat <:+: g.1 ↔ pat <:+: f.1) := by
    intro pat hpat
    rw [← infix_toLower hpat, ← h.1, infix_toLower hpat]
  refine ⟨?_, ?_, h.2 ▸ hf.text⟩
  · intro hin
    have hcolon := (hname [':'] (List.forall_mem_singleton.mpr (by decide))).mp ((List.singleton_infix_iff _ _).mpr hin)
    exact hf.colon ((List.singleton_infix_iff _ _).mp hcolon)
  · exact fun hin => hf.name ((hname crlf (List.all_iff_forall_prop.mp rfl)).mp hin)

/-- The header map holds the last value of a name. -/
theorem header_withFields (req : HttpRequest) (fields : List Field) (name : List Char) :
    (req.withFields fields).header name = (lastValue name fields).or (req.header name) := by
  induction fields generalizing req with
  | nil => rfl
  | cons f fields ih =>
    have hstep : req.withFields (f :: fields) =
        (req.setHeader f.1 (headerValue f.2)).withFields fields := rfl
    rw [hstep, ih, HttpRequest.header_setHeader, lastValue, lastValue]
    by_cases hname : f.1 = name
    · rw [List.filter_cons_of_pos (by simpa using hname), if_pos hname.symm, List.getLast?_cons]
      cases (fields.filter (·.1 = name)).getLast? with
      | none => rfl
      | some g => rfl
    · rw [List.filter_cons_of_neg (by simpa using hname), if_neg (Ne.symm hname)]

/-- How the parser ends a request with the given length and bytes behind the head. -/
def outcome (rest : List Char) : Option UInt64 → ParseState × List Char
  | none => (.error, [])
  | some n => if n.toNat ≤ rest.length then (.complete, rest.take n.toNat) else (.body, [])

theorem outcome_eq_iff {rest : List Char} {o o' : Option UInt64} :
    outcome rest o = outcome rest o' ↔ SameLength rest.length o o' := by
  constructor
  · intro h
    cases o with
    | none =>
      cases o' with
      | none => exact Or.inl rfl
      | some n' =>
        simp only [outcome] at h
        split at h
        · cases h
        · cases h
    | some n =>
      cases o' with
      | none =>
        simp only [outcome] at h
        split at h
        · cases h
        · cases h
      | some n' =>
        simp only [outcome] at h
        by_cases hn : n.toNat ≤ rest.length
        · by_cases hn' : n'.toNat ≤ rest.length
          · rw [if_pos hn, if_pos hn'] at h
            have hlen := congrArg (fun r => r.2.length) h
            simp only [List.length_take, Nat.min_eq_left hn, Nat.min_eq_left hn'] at hlen
            exact Or.inl (congrArg some (UInt64.toNat_inj.mp hlen))
          · rw [if_pos hn, if_neg hn'] at h
            cases h
        · by_cases hn' : n'.toNat ≤ rest.length
          · rw [if_neg hn, if_pos hn'] at h
            cases h
          · exact Or.inr ⟨n, n', rfl, rfl, by omega, by omega⟩
  · rintro (rfl | ⟨n, n', rfl, rfl, hn, hn'⟩)
    · rfl
    · rw [outcome, outcome, if_neg (by omega), if_neg (by omega)]

theorem outcome_requestText (l : RequestLine) {fields : List Field} (h : ∀ f ∈ fields, f.Proper)
    (rest : List Char) :
    ((HgParser.init.feed (requestText l fields rest)).state,
      (HgParser.init.feed (requestText l fields rest)).request.body) =
      outcome rest (lengthOf 0 fields) := by
  cases hlen : lengthOf 0 fields with
  | none =>
    obtain ⟨hstate, hbody⟩ := feed_requestText_of_none l h hlen rest
    rw [hstate, hbody]
    rfl
  | some n =>
    rw [feed_requestText_of_some l h hlen, outcome]
    by_cases hle : n.toNat ≤ rest.length
    · rw [if_pos hle, if_pos hle]
    · rw [if_neg hle, if_neg hle, HttpRequest.withFields_eq]
      rfl

/-! ## The router -/

def hostOf (req : HttpRequest) : List Char := (req.header "Host".toList).getD []

theorem handlePortal_eq (cfg : HgConfig) (req : HttpRequest) (clientIp : List Char) :
    handlePortal cfg req clientIp = (do
      let stats ← pollOne clientIp
      if stats.any fun stats => stats.AuthOk then pure (probeAnswer (hostOf req) req.path)
      else if hostName (hostOf req) = cfg.gatewayFqdn ∨ req.path = "/portal".toList then
        let body ← readHtmlFile loginPage
        pure (htmlResponse body)
      else pure (redirectResponse cfg)) := by
  unfold handlePortal
  refine congrArg (pollOne clientIp >>= ·) (funext fun stats => ?_)
  by_cases hauth : (stats.any fun stats => stats.AuthOk) = true
  · rw [if_pos hauth, if_pos hauth, probeAnswer]
    change (match osProbes.find? fun probe => hostOf req = probe.host ∧ req.path = probe.path with
      | some probe => pure probe.response
      | none => pure notFoundResponse) = _
    cases osProbes.find? fun probe => hostOf req = probe.host ∧ req.path = probe.path with
    | some probe => rfl
    | none => rfl
  · rw [if_neg hauth, if_neg hauth]
    rfl

/-- No operating system probes the portal path. -/
theorem probeAnswer_portal (host : List Char) :
    probeAnswer host "/portal".toList = notFoundResponse := by
  have hnone : osProbes.find? (fun probe => host = probe.host ∧ "/portal".toList = probe.path) =
      none := by
    rw [List.find?_eq_none]
    intro probe hprobe
    rw [decide_eq_true_iff]
    rintro ⟨-, hpath⟩
    revert probe
    decide
  rw [probeAnswer, hnone]

/-- Requests with the same path and body whose hosts no answer tells apart are routed alike. -/
theorem route_congr {req req' : HttpRequest} (hpath : req.path = req'.path)
    (hbody : req.body = req'.body)
    (hhost : HostMatters req.path → SameHost req.path (hostOf req) (hostOf req'))
    (cfg : HgConfig) (provider : AuthProvider) (clientIp : List Char) (port : UInt16) :
    route cfg provider req clientIp port = route cfg provider req' clientIp port := by
  have hportal : req.path = "/portal".toList ∨ HostMatters req.path →
      handlePortal cfg req clientIp = handlePortal cfg req' clientIp := by
    intro h
    rw [handlePortal_eq, handlePortal_eq, ← hpath]
    by_cases hp : req.path = "/portal".toList
    · simp only [hp, probeAnswer_portal, or_true, if_true]
    · obtain ⟨hname, hans⟩ := hhost (h.resolve_left hp)
      simp only [hname, hans]
  unfold route
  rw [← hpath]
  by_cases hlogin : req.path = "/login".toList
  · rw [if_pos hlogin, if_pos hlogin, handleAuth, handleAuth, loginCredentials, loginCredentials,
      hbody]
  · rw [if_neg hlogin, if_neg hlogin]
    by_cases hp : req.path = "/portal".toList
    · rw [if_pos hp, if_pos hp, hportal (Or.inl hp)]
    · rw [if_neg hp, if_neg hp]
      by_cases hsuccess : req.path = "/portal/success".toList
      · rw [if_pos hsuccess, if_pos hsuccess]
      · rw [if_neg hsuccess, if_neg hsuccess]
        by_cases hcapport : req.path = "/api/v1/capport".toList
        · rw [if_pos hcapport, if_pos hcapport]
        · rw [if_neg hcapport, if_neg hcapport]
          cases hapi : "/api/v1/".toList.isPrefixOf req.path with
          | true => rfl
          | false =>
            refine hportal (Or.inr ⟨?_, hapi⟩)
            simp only [List.mem_cons, List.not_mem_nil, or_false, not_or]
            exact ⟨hlogin, hp, hsuccess⟩

/-- A path for which the host matters is one for the portal. -/
theorem route_of_hostMatters {req : HttpRequest} (h : HostMatters req.path) (cfg : HgConfig)
    (provider : AuthProvider) (clientIp : List Char) (port : UInt16) :
    route cfg provider req clientIp port = handlePortal cfg req clientIp := by
  obtain ⟨hmem, hapi⟩ := h
  simp only [List.mem_cons, List.not_mem_nil, or_false, not_or] at hmem
  have hcapport : req.path ≠ "/api/v1/capport".toList := by
    intro heq
    rw [heq] at hapi
    exact absurd hapi (by decide)
  rw [route, if_neg hmem.1, if_neg hmem.2.1, if_neg hmem.2.2, if_neg hcapport, hapi]
  exact if_neg Bool.false_ne_true

/-- A client with a session. -/
def activeClient : HgMaps 1 :=
  ((hgctlAdd [.iface "br0".toList, .client "192.168.99.82".toList]).run (.good ⟨0, 0⟩)
    knownClient).2

theorem run_pollOne_activeClient :
    ((pollOne "192.168.99.82".toList).run (.good ⟨0, 0⟩ fun _ => none) activeClient).1.any
      (fun stats => stats.AuthOk) = true := by
  decide +kernel

/-- A page and a redirection are told apart by their status. -/
theorem htmlResponse_ne (body : List Char) (cfg : HgConfig) :
    htmlResponse body ≠ redirectResponse cfg := by
  intro h
  have hstatus := congrArg (fun r => r[9]?) h
  have hhtml : (htmlResponse body)[9]? = some '2' := rfl
  have hredirect : (redirectResponse cfg)[9]? = some '3' := rfl
  rw [hhtml, hredirect] at hstatus
  exact absurd hstatus (by decide)

section
variable {req req' : HttpRequest} (hpath : req.path = req'.path) (hmatters : HostMatters req.path)
  (h : ∀ (ncpu : Nat) (cfg : HgConfig) (provider : AuthProvider) (clientIp : List Char)
    (port : UInt16) (env : DaemonEnv) (s : HgMaps ncpu),
    (route cfg provider req clientIp port).run env s =
      (route cfg provider req' clientIp port).run env s)
include hpath hmatters h

/-- The answer to a client with a session tells probes apart. -/
theorem probeAnswer_of_route :
    probeAnswer (hostOf req) req.path = probeAnswer (hostOf req') req.path := by
  have hactive := h 1 .init localAuth "192.168.99.82".toList 0 (.good ⟨0, 0⟩ fun _ => none)
    activeClient
  rw [route_of_hostMatters hmatters, route_of_hostMatters (hpath ▸ hmatters), handlePortal_eq,
    handlePortal_eq, Daemon.run_bind, Daemon.run_bind, if_pos run_pollOne_activeClient,
    if_pos run_pollOne_activeClient, ← hpath] at hactive
  exact congrArg Prod.fst hactive

/-- The answer to a client without a session tells host names apart. -/
theorem hostName_of_route : hostName (hostOf req) = hostName (hostOf req') := by
  by_contra hne
  have hportal : req.path ≠ "/portal".toList := by
    intro heq
    exact hmatters.1 (by rw [heq]; decide)
  let cfg : HgConfig := { HgConfig.init with gatewayFqdn := hostName (hostOf req) }
  have hpoll : ∀ s : HgMaps 1, ¬ (((pollOne []).run (.good ⟨0, 0⟩ fun _ => none) s).1.any
      fun stats => stats.AuthOk) = true := fun s => Bool.false_ne_true
  have hnone := h 1 cfg localAuth [] 0 (.good ⟨0, 0⟩ fun _ => none) activeClient
  rw [route_of_hostMatters hmatters, route_of_hostMatters (hpath ▸ hmatters), handlePortal_eq,
    handlePortal_eq, Daemon.run_bind, Daemon.run_bind, if_neg (hpoll _), if_neg (hpoll _), ← hpath,
    if_pos (Or.inl rfl), if_neg (not_or.mpr ⟨fun heq => hne heq.symm, hportal⟩)] at hnone
  exact htmlResponse_ne _ cfg (congrArg Prod.fst hnone)

theorem sameHost_of_route : SameHost req.path (hostOf req) (hostOf req') :=
  ⟨hostName_of_route hpath hmatters h, probeAnswer_of_route hpath hmatters h⟩

end

/-! ## The two spellings -/

namespace RespelledRequest

variable (r : RespelledRequest)

theorem others_proper : ∀ f ∈ r.others, f.Proper := by
  have hall : ∀ {fields others : List Field}, List.Forall₂ Field.SameUpToCase fields others →
      (∀ f ∈ fields, f.Proper) → ∀ g ∈ others, g.Proper := by
    intro fields others hforall
    induction hforall with
    | nil => exact fun h => h
    | cons hfg _ ih =>
      intro hproper
      rw [List.forall_mem_cons] at hproper ⊢
      exact ⟨hfg.proper hproper.1, ih hproper.2⟩
  exact hall r.respelled r.proper

/-- The request that a complete parser hands to the router. -/
theorem request_of_complete (l : RequestLine) {fields : List Field} (h : ∀ f ∈ fields, f.Proper)
    {rest : List Char}
    (hst : (HgParser.init.feed (requestText l fields rest)).state = .complete) :
    (HgParser.init.feed (requestText l fields rest)).request.path = l.path ∧
      hostOf (HgParser.init.feed (requestText l fields rest)).request = hostField fields ∧
      ∃ n, lengthOf 0 fields = some n ∧ n.toNat ≤ rest.length := by
  cases hlen : lengthOf 0 fields with
  | none =>
    rw [(feed_requestText_of_none l h hlen rest).1] at hst
    cases hst
  | some n =>
    rw [feed_requestText_of_some l h hlen] at hst ⊢
    by_cases hle : n.toNat ≤ rest.length
    · rw [if_pos hle]
      refine ⟨?_, ?_, n, rfl, hle⟩
      · rw [HttpRequest.withFields_eq]
        rfl
      · change ((l.request.withFields fields).header "Host".toList).getD [] = _
        have hnone : l.request.header "Host".toList = none := rfl
        rw [header_withFields, hnone, Option.or_none, hostField]
    · rw [if_neg hle] at hst
      cases hst

theorem parsed_complete (h : r.Complete) : r.parsed.state = .complete := by
  obtain ⟨n, hlen, hle⟩ := h
  rw [parsed, feed_requestText_of_some r.toRequestLine r.proper hlen, if_pos hle]

/-- Two spellings of a request are handled in the same way exactly if the headers that are spelled
    `Content-Length` and `Host` mean the same in both. -/
theorem sameHandling_iff : SameHandling r.parsed r.otherParsed ↔ r.Harmless := by
  have hout := outcome_requestText r.toRequestLine r.proper r.rest
  have hout' := outcome_requestText r.toRequestLine r.others_proper r.rest
  constructor
  · intro h
    refine ⟨outcome_eq_iff.mp ?_, fun hcomplete hmatters => ?_⟩
    · rw [← hout, ← hout']
      exact Prod.ext h.state h.body
    · have hst := r.parsed_complete hcomplete
      obtain ⟨hpath, hhost, -⟩ := request_of_complete r.toRequestLine r.proper hst
      obtain ⟨hpath', hhost', -⟩ := request_of_complete r.toRequestLine r.others_proper
        (h.state.symm.trans hst)
      have hsame := sameHost_of_route (hpath.trans hpath'.symm) (hpath.symm ▸ hmatters) (h.route hst)
      rw [hpath, hhost, hhost'] at hsame
      exact hsame
  · rintro ⟨hlen, hsame⟩
    have heq := outcome_eq_iff.mpr hlen
    rw [← hout, ← hout'] at heq
    have hstate : r.parsed.state = r.otherParsed.state := congrArg Prod.fst heq
    have hbody : r.parsed.request.body = r.otherParsed.request.body := congrArg Prod.snd heq
    refine ⟨hstate, hbody, fun hst ncpu cfg provider clientIp port env s => ?_⟩
    obtain ⟨hpath, hhost, hcomplete⟩ := request_of_complete r.toRequestLine r.proper hst
    obtain ⟨hpath', hhost', -⟩ := request_of_complete r.toRequestLine r.others_proper
      (hstate.symm.trans hst)
    have hroute := route_congr (hpath.trans hpath'.symm) hbody (fun hmatters => by
      rw [hpath, hhost, hhost']
      exact hsame hcomplete (hpath ▸ hmatters)) cfg provider clientIp port
    exact congrArg (fun prog : Daemon (List Char) => prog.run env s) hroute

/-- A login whose length is spelled in lower case. -/
def lowerCaseLogin : RespelledRequest where
  toRequestLine := loginLine
  fields := [("Content-Length".toList, " 3".toList)]
  others := [("content-length".toList, " 3".toList)]
  rest := "a=b".toList
  proper := List.forall_mem_singleton.mpr
    ⟨by decide, cut_eq_none_iff.mp rfl, cut_eq_none_iff.mp rfl⟩
  respelled := .cons ⟨by decide, rfl⟩ .nil

/-- The form of a login is lost with the spelling of its length. -/
theorem lower_case_length_loses_body : ¬ SameHandling lowerCaseLogin.parsed lowerCaseLogin.otherParsed := by
  intro h
  have hbody : lowerCaseLogin.parsed.request.body = "a=b".toList := by decide +kernel
  have hother : lowerCaseLogin.otherParsed.request.body = [] := by decide +kernel
  have hsame := h.body
  rw [hbody, hother] at hsame
  cases hsame

end RespelledRequest

end HawkGate
