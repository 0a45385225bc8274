-- SUMMARY: The handlers behind the HTTP server: the login, the portal pages, and the router that picks one.
import HawkGate.Daemon.BpfCtrl
import HawkGate.Daemon.HttpParser

/-!
# Request handlers

`hg_auth.cpp`, `local_auth.cpp`, `hg_portal.cpp` and `hg_router.cpp`. A handler
is a program of the daemon that returns the text of the response. The global
configuration and the authentication provider are arguments.
-/

namespace HawkGate

open CString StdString

/-! ## Authentication -/

structure Credentials where
  username : List Char
  password : List Char
  clientIp : List Char

/-- What a provider decides; 0 stands for the value of the configuration. -/
structure AuthResult where
  success : Bool
  message : List Char
  expireSec : UInt32
  downKbps : UInt32
  upKbps : UInt32

abbrev AuthProvider := Credentials → AuthResult

/-- `LocalAuth::authenticate`: click-through, no credentials needed. -/
def localAuth : AuthProvider := fun _ => ⟨true, "Connected.".toList, 0, 0, 0⟩

def parseFormField (body fieldName : List Char) : List Char :=
  match cut (fieldName ++ ['=']) body with
  | none => []
  | some (_, rest) => (splitFirst '&' rest).elim rest Prod.fst

/-- The credentials of a login request. -/
def loginCredentials (req : HttpRequest) (clientIp : List Char) : Credentials where
  username := parseFormField req.body "username".toList
  password := parseFormField req.body "password".toList
  clientIp := clientIp

/-- The session that a successful result asks for. -/
def AuthResult.clientAuth (result : AuthResult) (cfg : HgConfig) (clientIp : List Char)
    (clientPort : UInt16) : ClientAuth where
  ip := clientIp
  mac := []
  expirySec := if result.expireSec ≠ 0 then result.expireSec else cfg.sessionTimeout.toUInt32
  idleSec := 0
  dnRate := if result.downKbps ≠ 0 then result.downKbps else cfg.dRate
  upRate := if result.upKbps ≠ 0 then result.upKbps else cfg.uRate
  clientPort := clientPort

/-- The start of a URL of the portal. -/
def portalUrl (cfg : HgConfig) (path : List Char) : List Char :=
  "http://".toList ++ cfg.portalIp ++ ":".toList ++ decimal cfg.httpPort.toNat ++ path

/-- A JSON body behind the given status line. -/
def jsonResponse (status body : List Char) : List Char :=
  status ++ "\r\nContent-Type: application/json\r\nContent-Length: ".toList ++
    decimal body.length ++ "\r\n\r\n".toList ++ body

def kernelFailedResponse : List Char :=
  jsonResponse "HTTP/1.1 500 Internal Server Error".toList
    ("\x7b\"message\": \"Authentication succeeded but failed to apply in kernel\"\x7d").toList

def loggedInResponse (cfg : HgConfig) : List Char :=
  "HTTP/1.1 302 Found\r\nLocation: ".toList ++ portalUrl cfg "/portal/success".toList ++
    "\r\nContent-Length: 0\r\n\r\n".toList

def refusedResponse (message : List Char) : List Char :=
  jsonResponse "HTTP/1.1 401 Unauthorized".toList
    ("\x7b\"message\": \"".toList ++ message ++ "\"\x7d".toList)

def handleAuth (cfg : HgConfig) (provider : AuthProvider) (req : HttpRequest)
    (clientIp : List Char) (clientPort : UInt16) : Daemon (List Char) := do
  let result := provider (loginCredentials req clientIp)
  if result.success then
    if ← authenticate cfg (result.clientAuth cfg clientIp clientPort) then
      let _ ← mapEleDel "hg_conntrack".toList
        (clientIp ++ ":".toList ++ decimal clientPort.toNat)
      pure (loggedInResponse cfg)
    else pure kernelFailedResponse
  else pure (refusedResponse result.message)

/-! ## Portal pages -/

def loginPage : List Char := "/etc/hawkgate/static/login.html".toList

def successPage : List Char := "/etc/hawkgate/static/success.html".toList

/-- A connectivity check of an operating system and the answer it expects. -/
structure OsProbe where
  host : List Char
  path : List Char
  status : Nat
  body : Option (List Char)
  contentType : Option (List Char)

def osProbes : List OsProbe :=
  [⟨"connectivitycheck.gstatic.com".toList, "/generate_204".toList, 204, none, none⟩,
    ⟨"www.google.com".toList, "/generate_204".toList, 204, none, none⟩,
    ⟨"captive.apple.com".toList, "/hotspot-detect.html".toList, 200,
      some "<HTML><HEAD><TITLE>Success</TITLE></HEAD><BODY>Success</BODY></HTML>".toList,
      some "text/html".toList⟩,
    ⟨"www.msftconnecttest.com".toList, "/connecttest.txt".toList, 200,
      some "Microsoft Connect Test".toList, some "text/plain".toList⟩,
    ⟨"www.msftncsi.com".toList, "/ncsi.txt".toList, 200, some "Microsoft NCSI".toList,
      some "text/plain".toList⟩,
    ⟨"detectportal.firefox.com".toList, "/success.txt".toList, 200, some "success\n".toList,
      some "text/plain".toList⟩]

def OsProbe.response (probe : OsProbe) : List Char :=
  "HTTP/1.1 ".toList ++ decimal probe.status ++ " ".toList ++
    (if probe.status = 200 then "OK".toList else "No Content".toList) ++ "\r\n".toList ++
    probe.contentType.elim [] (fun t => "Content-Type: ".toList ++ t ++ "\r\n".toList) ++
    probe.body.elim "Content-Length: 0\r\n\r\n".toList
      fun b => "Content-Length: ".toList ++ decimal b.length ++ "\r\n\r\n".toList ++ b

def readHtmlFile (path : List Char) : Daemon (List Char) := do
  let content ← Prog.perform (.readFile path)
  pure (content.getD "<html><body><h2>Portal unavailable</h2></body></html>".toList)

/-- A host without its port. -/
def hostName (host : List Char) : List Char := (splitFirst ':' host).elim host Prod.fst

/-- The kernel reports the client's session as active. -/
def HgClientStats.AuthOk (stats : HgClientStats) : Prop :=
  stats.state = ClientStatus.authOk.code.toInt32

instance (stats : HgClientStats) : Decidable stats.AuthOk := inferInstanceAs (Decidable (_ = _))

def htmlResponse (body : List Char) : List Char :=
  "HTTP/1.1 200 OK\r\nContent-Type: text/html\r\nContent-Length: ".toList ++
    decimal body.length ++ "\r\n\r\n".toList ++ body

def notFoundResponse : List Char := "HTTP/1.1 404 Not Found\r\nContent-Length: 0\r\n\r\n".toList

/-- The redirection of everything else to the portal. -/
def redirectResponse (cfg : HgConfig) : List Char :=
  let loc := portalUrl cfg "/portal".toList
  let fallback := "<html><head></head><body><a href='".toList ++ loc ++
    "'>Click here to sign in</a></body></html>".toList
  "HTTP/1.1 307 Temporary Redirect\r\nLocation: ".toList ++ loc ++
    "\r\nContent-Type: text/html\r\nContent-Length: ".toList ++ decimal fallback.length ++
    "\r\n\r\n".toList ++ fallback

def handlePortal (cfg : HgConfig) (req : HttpRequest) (clientIp : List Char) :
    Daemon (List Char) := do
  let host := (req.header "Host".toList).getD []
  let stats ← pollOne clientIp
  if stats.any fun stats => stats.AuthOk then
    match osProbes.find? fun probe => host = probe.host ∧ req.path = probe.path with
    | some probe => pure probe.response
    | none => pure notFoundResponse
  else if hostName host = cfg.gatewayFqdn ∨ req.path = "/portal".toList then
    let body ← readHtmlFile loginPage
    pure (htmlResponse body)
  else pure (redirectResponse cfg)

def capportAuthenticated (stats : HgClientStats) : List Char :=
  let ttl : Int64 := if 0 < stats.ttlSec then stats.ttlSec else 0
  "\x7b\"captive\":false,\"seconds-remaining\":".toList ++ decimal ttl.toInt.toNat ++
    "\x7d".toList

def capportCaptive (cfg : HgConfig) : List Char :=
  let url := "http://".toList ++ cfg.gatewayFqdn ++ ":".toList ++ decimal cfg.httpPort.toNat ++
    "/portal".toList
  "\x7b\"captive\":true,\"user-portal-url\":\"".toList ++ url ++
    "\",\"venue-info-url\":\"".toList ++ url ++ "\"\x7d".toList

/-- The response of the captive-portal API with the given body. -/
def capportResponse (body : List Char) : List Char :=
  "HTTP/1.1 200 OK\r\nContent-Type: application/captive+json\r\n".toList ++
    "Cache-Control: no-cache\r\nContent-Length: ".toList ++ decimal body.length ++
    "\r\n\r\n".toList ++ body

def handleCapport (cfg : HgConfig) (clientIp : List Char) : Daemon (List Char) := do
  let stats ← pollOne clientIp
  let body :=
    match stats.filter fun stats => stats.AuthOk with
    | some stats => capportAuthenticated stats
    | none => capportCaptive cfg
  pure (capportResponse body)

def placeholder : List Char := "http://example.com".toList

def successRedirect : List Char := "https://www.google.com".toList

/-- Replace each placeholder. The source searches on from the replacement, here the search goes
    on behind it; `cut_successRedirect` says that this is the same. -/
def injectRedirect (s : List Char) : List Char :=
  match _h : cut placeholder s with
  | none => s
  | some (a, b) => a ++ successRedirect ++ injectRedirect b
termination_by s.length
decreasing_by
  have hlen : placeholder.length = 18 := rfl
  rw [eq_of_cut _h, List.length_append, List.length_append]
  omega

/-- No placeholder starts in a replacement. -/
theorem cut_successRedirect (s : List Char) :
    cut placeholder (successRedirect ++ s) =
      (cut placeholder s).map fun r => (successRedirect ++ r.1, r.2) :=
  cut_append s (by decide)

def handleSuccess : Daemon (List Char) := do
  let page ← readHtmlFile successPage
  pure (htmlResponse (injectRedirect page))

/-! ## Routing -/

def notImplementedResponse : List Char :=
  "HTTP/1.1 501 Not Implemented\r\nContent-Length: 0\r\n\r\n".toList

def route (cfg : HgConfig) (provider : AuthProvider) (req : HttpRequest) (clientIp : List Char)
    (clientPort : UInt16) : Daemon (List Char) :=
  if req.path = "/login".toList then handleAuth cfg provider req clientIp clientPort
  else if req.path = "/portal".toList then handlePortal cfg req clientIp
  else if req.path = "/portal/success".toList then handleSuccess
  else if req.path = "/api/v1/capport".toList then handleCapport cfg clientIp
  else if "/api/v1/".toList.isPrefixOf req.path then pure notImplementedResponse
  else handlePortal cfg req clientIp

end HawkGate
