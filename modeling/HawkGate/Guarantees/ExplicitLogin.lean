-- SUMMARY: Which HTTP requests create a session: every request for the login path, whatever its method and host.
import HawkGate.Daemon.Portal
import HawkGate.Kernel.Hooks

/-!
# Explicit login

A session is to be created by the submission of the login form: a POST of the
login path to the portal itself. The router looks at the path alone, and after
DNAT it sees every plain HTTP request of every application.
-/

namespace HawkGate

open CString StdString

variable {ncpu : Nat}

/-- The command that creates a session. -/
def DaemonOp.IsAdd {β : Type} : DaemonOp β → Prop
  | .execCmd (.add _) => True
  | _ => False

/-- The operations that only read. -/
def DaemonOp.Reads {β : Type} : DaemonOp β → Prop
  | .readOne _ | .readFile _ => True
  | .execCmd _ => False

/-- The handler asks the kernel to authenticate the client. -/
def Authenticates {α : Type} (p : Daemon α) : Prop := p.Performs DaemonOp.IsAdd

/-- The `Host` of a request is the address or the name of the portal, with or without a port. -/
def HostNamesPortal (cfg : HgConfig) (req : HttpRequest) : Prop :=
  ∃ host ∈ req.header "Host".toList,
    hostName host = cfg.portalIp ∨ hostName host = cfg.gatewayFqdn

instance (cfg : HgConfig) (req : HttpRequest) : Decidable (HostNamesPortal cfg req) :=
  inferInstanceAs (Decidable (∃ host ∈ req.header "Host".toList, _))

/-- The login form is submitted to the portal. -/
structure LoginSubmission (cfg : HgConfig) (req : HttpRequest) : Prop where
  method : req.method = "POST".toList
  path : req.path = "/login".toList
  host : HostNamesPortal cfg req

/-- The router authenticates the client only if the request is a submission of the login form;
    any other request leaves the maps as they are. -/
def LoginExplicit (cfg : HgConfig) (req : HttpRequest) (client : IpAddr) (port : UInt16) : Prop :=
  (Authenticates (route cfg localAuth req (inetNtop client) port) → LoginSubmission cfg req) ∧
    (¬ LoginSubmission cfg req → ∀ (ncpu : Nat) (env : DaemonEnv) (s : HgMaps ncpu),
      ((route cfg localAuth req (inetNtop client) port).run env s).2 = s)

/-! ## What the handlers do -/

theorem DaemonOp.Reads.exec_state {β : Type} {op : DaemonOp β} (h : op.Reads) (env : DaemonEnv)
    (s : HgMaps ncpu) : (DaemonOp.exec env s op).2 = s := by
  cases op with
  | execCmd cmd => exact h.elim
  | readOne ip => exact run_hgReadOne_maps ip env.readerSys s
  | readFile path => rfl

theorem only_readHtmlFile (path : List Char) : (readHtmlFile path).Only DaemonOp.Reads :=
  (Prog.only_perform trivial).bind fun _ => Prog.only_pure _

theorem only_handlePortal (cfg : HgConfig) (req : HttpRequest) (clientIp : List Char) :
    (handlePortal cfg req clientIp).Only DaemonOp.Reads := by
  refine (Prog.only_perform trivial).bind fun stats => ?_
  split
  · split
    · exact Prog.only_pure _
    · exact Prog.only_pure _
  · split
    · exact (only_readHtmlFile loginPage).bind fun _ => Prog.only_pure _
    · exact Prog.only_pure _

/-- Away from the login path the router reads only. -/
theorem only_route {cfg : HgConfig} {provider : AuthProvider} {req : HttpRequest}
    (hpath : req.path ≠ "/login".toList) (clientIp : List Char) (port : UInt16) :
    (route cfg provider req clientIp port).Only DaemonOp.Reads := by
  unfold route
  rw [if_neg hpath]
  split
  · exact only_handlePortal cfg req clientIp
  · split
    · exact (only_readHtmlFile successPage).bind fun _ => Prog.only_pure _
    · split
      · exact (Prog.only_perform trivial).bind fun _ => Prog.only_pure _
      · split
        · exact Prog.only_pure _
        · exact only_handlePortal cfg req clientIp

/-- The login path authenticates every client. -/
theorem authenticates_login {cfg : HgConfig} {req : HttpRequest}
    (hpath : req.path = "/login".toList) (client : IpAddr) (port : UInt16) :
    Authenticates (route cfg localAuth req (inetNtop client) port) := by
  have hadd : (authenticate cfg
      ((localAuth (loginCredentials req (inetNtop client))).clientAuth cfg (inetNtop client)
        port)).Performs DaemonOp.IsAdd := by
    rw [authenticate_inetNtop client rfl]
    exact Prog.performs_perform trivial
  rw [Authenticates, route, if_pos hpath]
  exact hadd.bind _

/-- A session is created only by a submission of the login form exactly for those requests that
    are not for the login path, or are such a submission. -/
theorem login_explicit_iff (cfg : HgConfig) (req : HttpRequest) (client : IpAddr)
    (port : UInt16) :
    LoginExplicit cfg req client port ↔
      (req.path = "/login".toList → req.method = "POST".toList ∧ HostNamesPortal cfg req) := by
  constructor
  · intro h hpath
    have hsub := h.1 (authenticates_login hpath client port)
    exact ⟨hsub.method, hsub.host⟩
  · intro h
    by_cases hpath : req.path = "/login".toList
    · have hsub : LoginSubmission cfg req := ⟨(h hpath).1, hpath, (h hpath).2⟩
      exact ⟨fun _ => hsub, fun hnot => absurd hsub hnot⟩
    · have honly : (route cfg localAuth req (inetNtop client) port).Only DaemonOp.Reads :=
        only_route hpath _ _
      refine ⟨fun hauth => ?_, fun _ ncpu env s => ?_⟩
      · refine absurd hauth (honly.not_performs fun op hread hadd => ?_)
        cases op with
        | execCmd cmd => exact hread
        | readOne ip => exact hadd
        | readFile path => exact hadd
      · exact honly.run_state (fun s _ hop => hop.exec_state env s) s

/-- The configuration of the examples. -/
def exampleConfig : HgConfig :=
  { HgConfig.init with
    ifaceName := "br0".toList
    httpPort := 2050
    portalIp := "192.168.99.1".toList
    sessionTimeout := 3600
    gatewayFqdn := "gateway.local".toList }

/-- A client that is known by its packets. -/
def knownClient : HgMaps 1 :=
  (hgTcIngress (.good ⟨0, Nat.one_pos⟩ 0) (.start 1 .standard 0)
    ⟨tcpFrame (localMac 1) (Bytes.addrOfOctets 192 168 99 82) (Bytes.addrOfOctets 9 9 9 9) 40000 80,
      54⟩).maps

/-- A background GET of the login path of some other host is redirected to the portal and logs
    the client in. -/
theorem background_get_logs_in :
    let p := HgParser.init.feed "GET /login HTTP/1.1\r\nHost: example.com\r\n\r\n".toList
    let client := Bytes.addrOfOctets 192 168 99 82
    let s := ((route exampleConfig localAuth p.request (inetNtop client) 40000).run
      (.good ⟨0, 0⟩ fun _ => none) knownClient).2
    p.state = .complete ∧ p.request.method = "GET".toList ∧
      ¬ HostNamesPortal exampleConfig p.request ∧
      (knownClient.clients.lookup (localMac 1)).isSome = false ∧
      (s.clients.lookup (localMac 1)).isSome = true ∧
      ¬ LoginExplicit exampleConfig p.request client 40000 := by
  intro p client s
  have hp : p = ⟨.complete, ⟨"GET".toList, "/login".toList,
      [("Host".toList, "example.com".toList)], [], 0, "HTTP/1.1".toList⟩, []⟩ := by decide +kernel
  have hhost : ¬ HostNamesPortal exampleConfig p.request := by
    rw [hp]
    decide +kernel
  refine ⟨by rw [hp], by rw [hp], hhost, by decide +kernel, by decide +kernel, fun h => ?_⟩
  exact hhost (h.1 (authenticates_login (by rw [hp]) client 40000)).host

end HawkGate
