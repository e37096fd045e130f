import TinyProxy.Http.Message
import TinyProxy.Rust.Net

/-!
# Configuration

The site map is an association list without repeated keys.  Its order stands
for the order in which the program's hash map is walked.
-/

set_option autoImplicit false

namespace TinyProxy

open Rust Http

inductive FailureMode where
  | closed
  | open
deriving DecidableEq

structure ForwardAuthConfig where
  endpoint : Uri
  requestHeaders : List HeaderName
  responseHeaders : List HeaderName
  failureMode : FailureMode
  timeoutSecs : UInt64
deriving DecidableEq

def defaultRequestHeaders : List HeaderName := [.authorization, .cookie]

def defaultAuthTimeoutSecs : UInt64 := 5

/-- A header operation; without a value the header is removed. -/
structure HeaderDirective where
  name : Str
  value : Option Str
deriving DecidableEq

inductive Directive where
  | reverseProxy (to_ : Str) (connectTimeout readTimeout : Option UInt64)
      (headerUp : List HeaderDirective)
  | handlePath (pattern : Str) (directives : List Directive)
  | uriReplace (find replacement : Str)
  | header (name : Str) (value : Option Str)
  | method (methods : List Str) (directives : List Directive)
  | stripPrefix (pattern : Str)
  | redirect (status : UInt16) (url : Str)
  | respond (status : UInt16) (body : Str)
  | forwardAuth (config : ForwardAuthConfig)

/-- The directives written inside a block. -/
def Directive.block : Directive → List Directive
  | .handlePath _ directives => directives
  | .method _ directives => directives
  | _ => []

theorem Directive.sizeOf_block (directive : Directive) :
    sizeOf directive.block ≤ sizeOf directive := by
  cases directive <;> simp only [Directive.block, Directive.handlePath.sizeOf_spec,
    Directive.method.sizeOf_spec, Directive.uriReplace.sizeOf_spec,
    Directive.stripPrefix.sizeOf_spec, Directive.header.sizeOf_spec,
    Directive.redirect.sizeOf_spec, Directive.respond.sizeOf_spec,
    Directive.reverseProxy.sizeOf_spec, Directive.forwardAuth.sizeOf_spec, List.nil.sizeOf_spec]
    <;> omega

structure TlsConfig where
  certPath : Str
  keyPath : Str
deriving DecidableEq

structure SiteConfig where
  address : Str
  directives : List Directive
  tls : Option TlsConfig

structure Config where
  sites : AList fun _ : Str => SiteConfig

def Config.values (config : Config) : List SiteConfig := config.sites.entries.map Sigma.snd

/-! ## Authorization endpoints -/

/-- An absolute `http` or `https` URI with an authority; an empty path becomes `/`. -/
def normalizeAuthEndpoint (parser : UriParser) (uri : Uri) : Except Str Uri :=
  match uri.scheme with
  | none => .error "missing scheme (use http:// or https://)".toList
  | some scheme =>
      if scheme ≠ "http".toList ∧ scheme ≠ "https".toList then
        .error ("unsupported scheme '".toList ++ scheme ++ "' (use http or https)".toList)
      else if uri.authority = none then .error "missing host".toList
      else if uri.pathAndQuery = none then
        match parser.parsePathAndQuery ['/'] with
        | .error e => .error ("failed to set default path: ".toList ++ e)
        | .ok path => parser.fromParts { uri with pathAndQuery := some path }
      else .ok uri

end TinyProxy
