/-
The egress guard of the outbound HTTP client.

`Do` checks the destination of a request before it is sent, and the library's client
calls `CheckRedirect` before it follows a redirect.  What the resolver answers, what
comes back from a server and whether the rate limiter lets a request through is given;
what the client does is the list of requests it sends, in their order.
-/
import GenaiBridge.Bridge.LogsSettings
import GenaiBridge.Bridge.Texts
import GenaiBridge.Lib.IPAddress

namespace GenaiBridge

namespace Httpx

open Lib (IP)

/-- What is read of a URL: `Scheme` and `Hostname()`. -/
structure URL where
  scheme : String
  hostname : String
deriving DecidableEq, Repr

/-- `httpx.Config`, as far as destinations go. -/
structure Config where
  allowHosts : List String
  allowPrivate : Bool

/-- The errors of the guard, each with what its message is made of. -/
inductive EgressError
  /-- `egress: blocked cloud-metadata/CGNAT address %s`. -/
  | metadata (ip : IP)
  /-- `egress: blocked link-local/metadata %s`. -/
  | linkLocal (ip : IP)
  /-- `egress: blocked loopback/RFC-1918/unspecified %s`. -/
  | privateAddress (ip : IP)
  | notAllowed (hostname : String)
  | emptyHost
  | unresolvable (host cause : String)
  | crossHost (hostname : String)
  | downgrade (scheme hostname : String)
  | tooManyRedirects
  | rateLimiter (cause : String)
  | badAddress (address cause : String)
  | unresolved (address : String)
  /-- An error of the transport. -/
  | transport (cause : String)
deriving DecidableEq, Repr

/-- `cloudMetadataIPs`. -/
def cloudMetadataIPs : List String := ["169.254.169.254", "100.100.100.200", "fd00:ec2::254"]

/-- `cgnatNet.Contains`, of `100.64.0.0/10`. -/
def inCgnat (ip : IP) : Bool := IP.maskContains [100, 64, 0, 0] [255, 192, 0, 0] ip

/-- `blockedIP`. -/
def blockedIP (ip : IP) (allowPrivate : Bool) : Except EgressError Unit :=
  if String.ofList ip.text ∈ cloudMetadataIPs ∨ inCgnat ip = true then .error (.metadata ip)
  else if ip.isLinkLocalUnicast || ip.isLinkLocalMulticast then .error (.linkLocal ip)
  else if !allowPrivate && (ip.isLoopback || ip.isPrivate || ip.isUnspecified) then
    .error (.privateAddress ip)
  else .ok ()

/-- What the library answers about a host: `net.ParseIP` and `LookupIPAddr`. -/
structure Lookups where
  parseIP : String → Option IP
  lookupIPAddr : String → Except String (List IP)

/-- The loop of `checkDest` over the resolved addresses. -/
def checkAddrs (allowPrivate : Bool) : List IP → Except EgressError Unit
  | [] => .ok ()
  | ip :: addrs =>
    match blockedIP ip allowPrivate with
    | .error e => .error e
    | .ok () => checkAddrs allowPrivate addrs

variable (casing : Casing)

/-- `checkDest`. -/
def checkDest (cfg : Config) (lookups : Lookups) (u : URL) : Except EgressError Unit :=
  let host := casing.toLower u.hostname
  if cfg.allowHosts ≠ [] ∧ ¬ ∃ h ∈ cfg.allowHosts, casing.toLower h = host then
    .error (.notAllowed u.hostname)
  else if host = "" then .error .emptyHost
  else
    match lookups.parseIP host with
    | some ip => blockedIP ip cfg.allowPrivate
    | none =>
      match lookups.lookupIPAddr host with
      | .error cause => .error (.unresolvable host cause)
      | .ok addrs => checkAddrs cfg.allowPrivate addrs

/-- `checkRedirectCreds`. -/
def checkRedirectCreds (u : URL) (via : List URL) : Except EgressError Unit :=
  match via.head? with
  | none => .ok ()
  | some origin =>
    if !casing.equalFold u.hostname origin.hostname then .error (.crossHost u.hostname)
    else if casing.equalFold origin.scheme "https" ∧ !casing.equalFold u.scheme "https" then
      .error (.downgrade u.scheme u.hostname)
    else .ok ()

/-- `CheckRedirect`. -/
def checkRedirect (cfg : Config) (lookups : Lookups) (u : URL) (via : List URL) :
    Except EgressError Unit :=
  if 10 ≤ via.length then .error .tooManyRedirects
  else
    match checkRedirectCreds casing u via with
    | .error e => .error e
    | .ok () => checkDest casing cfg lookups u

/-- What comes back from a request that was sent. -/
inductive Answer
  | failed (cause : String)
  | response (status : Nat)
  /-- A redirect that the library's client wants to follow. -/
  | redirect (target : URL)

/-- An answer, and what the library says about the host it leads to. -/
structure Hop where
  answer : Answer
  lookups : Lookups

/-- What a call did: the requests it sent, in order, and what it returned, if it has. -/
structure Exchange where
  sent : List URL
  result : Option (Except EgressError Nat)

/-- The loop of the library's client: send, and follow redirects as long as `CheckRedirect`
allows. -/
def follow (cfg : Config) (via : List URL) (u : URL) : List Hop → Exchange
  | [] => ⟨[u], none⟩
  | hop :: hops =>
    match hop.answer with
    | .failed cause => ⟨[u], some (.error (.transport cause))⟩
    | .response status => ⟨[u], some (.ok status)⟩
    | .redirect v =>
      match checkRedirect casing cfg hop.lookups v (via ++ [u]) with
      | .error e => ⟨[u], some (.error e)⟩
      | .ok () =>
        let rest := follow cfg (via ++ [u]) v hops
        ⟨u :: rest.sent, rest.result⟩

/-- `Do`; `limiter` is the error of `Limiter.Wait`, if there is one. -/
def Config.doRequest (cfg : Config) (lookups : Lookups) (limiter : Option String) (u : URL)
    (hops : List Hop) : Exchange :=
  match checkDest casing cfg lookups u with
  | .error e => ⟨[], some (.error e)⟩
  | .ok () =>
    match limiter with
    | some cause => ⟨[], some (.error (.rateLimiter cause))⟩
    | none => follow casing cfg [] u hops

/-- The dialer's `Control`, on an address and what `net.SplitHostPort` makes of it. -/
def guardControl (allowPrivate : Bool) (parseIP : String → Option IP)
    (splitHostPort : String → Except String (String × String)) (address : String) :
    Except EgressError Unit :=
  match splitHostPort address with
  | .error cause => .error (.badAddress address cause)
  | .ok (host, _) =>
    match parseIP host with
    | none => .error (.unresolved address)
    | some ip => blockedIP ip allowPrivate

end Httpx

/-- The client signed URLs are downloaded with. -/
def LogsExportLoop.dlConfig {R : Type} (l : LogsExportLoop R) : Httpx.Config :=
  ⟨l.signedURLAllowHosts, l.allowPrivate⟩

end GenaiBridge
