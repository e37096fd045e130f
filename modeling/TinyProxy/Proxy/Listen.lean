import TinyProxy.Config.Address
import Mathlib.Data.List.AList

/-!
# Listeners

`startWithAddr` and `startAll` up to the listeners they go on to bind, with the
`tls` feature enabled.  Reading the certificates is a parameter.  The map of
socket groups is walked in an order of its own, given by `walk`.
-/

set_option autoImplicit false

namespace TinyProxy

open Rust

/-- What `rsplitn(2, ':')` leaves in front of the port. -/
def hostText (siteAddress : Str) : Str := ((rsplitOnce ':' siteAddress).map Prod.fst).getD []

def siteAddrMatches (siteAddress : Str) (listenAddr : SocketAddr) : Bool :=
  match parseU16 (afterLast ':' siteAddress) with
  | none => false
  | some sitePort =>
      let host := hostText siteAddress
      if sitePort ≠ listenAddr.port then false
      else if host = [] ∨ host = "0.0.0.0".toList ∨ host = "::".toList then true
      else if host = "localhost".toList then IpAddr.v4 .localhost = listenAddr.ip
      else
        match parseIpAddr host with
        | some siteIp => siteIp = listenAddr.ip
        | none => true

/-- A host name for SNI with its certificate. -/
abbrev TlsEntry := Str × TlsConfig

def SiteConfig.tlsEntry (site : SiteConfig) : Option TlsEntry :=
  site.tls.map fun tls => (extractHostname site.address, tls)

inductive Listener where
  | http (listenAddr : SocketAddr)
  | https (listenAddr : SocketAddr) (entries : List TlsEntry)
deriving DecidableEq

section Start
variable (buildTlsAcceptor : List TlsEntry → Except Str Unit)

/-- The sites that decide how `startWithAddr` serves the address. -/
def matchedEntries (config : Config) (addr : SocketAddr) : List TlsEntry :=
  (config.values.filter fun site =>
    siteAddrMatches site.address addr && site.tls.isSome).filterMap SiteConfig.tlsEntry

def startWithAddr (config : Config) (addr : SocketAddr) : Except Str Listener :=
  let tlsSites := matchedEntries config addr
  if tlsSites ≠ [] then do
    buildTlsAcceptor tlsSites
    .ok (.https addr tlsSites)
  else .ok (.http addr)

abbrev SocketGroups := AList fun _ : SocketAddr => List SiteConfig

def groupSites : List SiteConfig → SocketGroups → Except Str SocketGroups
  | [], groups => .ok groups
  | site :: rest, groups => do
      let listenAddr ← resolveListenAddr site.address
      groupSites rest
        (groups.insert listenAddr ((groups.lookup listenAddr).getD [] ++ [site]))

/-- `SocketAddr::new`. -/
def socketAddr : IpAddr → UInt16 → SocketAddr
  | .v4 ip, port => .v4 ip port
  | .v6 ip, port => .v6 ip port 0

/-- What has been spawned, and how the function returned. -/
structure Started where
  listeners : List Listener
  redirects : List (SocketAddr × UInt16)
  result : Except Str Unit

/-- The loop over the groups: an error leaves the listeners before it running. -/
def startGroups : List (SocketAddr × List SiteConfig) → Started
  | [] => ⟨[], [], .ok ()⟩
  | (listenAddr, sites) :: rest =>
      let tlsSites := sites.filter fun site => site.tls.isSome
      if tlsSites ≠ [] ∧ tlsSites.length ≠ sites.length then
        ⟨[], [], .error ("Mixed TLS and non-TLS sites on the same listen address ".toList ++
          listenAddr.display ++ " is not supported".toList)⟩
      else if tlsSites ≠ [] then
        let tlsEntries := tlsSites.filterMap SiteConfig.tlsEntry
        match buildTlsAcceptor tlsEntries with
        | .error e => ⟨[], [], .error e⟩
        | .ok () =>
            let later := startGroups rest
            let redirect :=
              (socketAddr listenAddr.ip (tlsRedirectPort listenAddr.port), listenAddr.port)
            ⟨.https listenAddr tlsEntries :: later.listeners,
              later.redirects.insert redirect, later.result⟩
      else
        let later := startGroups rest
        ⟨.http listenAddr :: later.listeners, later.redirects, later.result⟩

/-- Redirects are spawned only once every group has its listener. -/
def startAll (walk : List (SocketAddr × List SiteConfig) → List (SocketAddr × List SiteConfig))
    (config : Config) : Started :=
  match groupSites config.values ∅ with
  | .error e => ⟨[], [], .error e⟩
  | .ok groups =>
      let started := startGroups buildTlsAcceptor
        (walk (groups.entries.map fun entry => (entry.1, entry.2)))
      match started.result with
      | .ok () => started
      | .error e => ⟨started.listeners, [], .error e⟩

end Start

example : siteAddrMatches "localhost:8080".toList (.v4 .localhost 8080) = true := by rfl

end TinyProxy
