import TinyProxy.Proxy.Directives
import TinyProxy.Config.Address
import TinyProxy.Proxy.ForwardAuth

/-!
# Directive processing

`runDirectives` is the loop of `process_directives`, `stepDirective` its body.
What the loop mutates is a `Pipeline`; its log records, with its position in the
site's tree, every header directive that is executed, every authorization
subrequest and the terminal directive.  `none` says that a placeholder
substitution ran out of fuel.
-/

set_option autoImplicit false

namespace TinyProxy

open Rust Http

/-- What one request finds outside the program: the environment, the UUIDs in
the order they are drawn, the exchanges of its authorization subrequests and
the one with the backend. -/
structure World where
  fuel : Nat
  env : Environment
  uuids : Nat → Uuid
  authExchanges : Nat → Exchange
  backendExchange : Exchange

/-- The indices of the enclosing blocks and of the directive, outermost first. -/
abbrev Position := List Nat

inductive Event where
  | header (position : Position) (name : Str) (value : Option Str)
  | auth (position : Position) (cfg : ForwardAuthConfig) (before : Request) (result : AuthResult)
  | action (position : Position)

structure Pipeline where
  req : Request
  uuidsUsed : Nat
  authCalls : Nat
  log : List Event

def Pipeline.record (s : Pipeline) (event : Event) : Pipeline := { s with log := s.log ++ [event] }

/-- What the body of the loop does next. -/
inductive Flow where
  | next (path : Str) (s : Pipeline)
  | done (result : Except Str ActionResult) (s : Pipeline)

def noActionMessage (currentPath : Str) : Str :=
  "No action directive (respond or reverse_proxy) found in configuration for path: ".toList ++
    currentPath

/-- The arm for `header`: a failure is logged and ignored. -/
def stepHeader (world : World) (position : Position) (name : Str) (value : Option Str)
    (s : Pipeline) : Option Pipeline :=
  match handleHeader world.fuel world.env (world.uuids s.uuidsUsed) name value s.req with
  | none => none
  | some result =>
      some ({ s with req := result.toOption.getD s.req, uuidsUsed := s.uuidsUsed + 1 }.record
        (.header position name value))

/-- The arm for `forward_auth`. -/
def stepForwardAuth (world : World) (ctx : AuthCtx) (position : Position)
    (cfg : ForwardAuthConfig) (path : Str) (s : Pipeline) : Flow :=
  let scrubbed := scrubIdentityHeaders s.req cfg
  let result := resolveAuth ctx scrubbed cfg (world.authExchanges s.authCalls)
  let s := { s with req := scrubbed, authCalls := s.authCalls + 1 }.record
    (.auth position cfg scrubbed result)
  match result with
  | .allowed identity => .next path { s with req := applyIdentityHeaders s.req identity }
  | .denied status wwwAuthenticate => .done (.ok (.authDenied status.asU16 wwwAuthenticate)) s
  | .failed _ =>
      match cfg.failureMode with
      | .closed => .done (.ok (.authDenied StatusCode.serviceUnavailable.asU16 none)) s
      | .open => .next path s

section Loop
variable (world : World) (ctx : AuthCtx)

mutual

def stepDirective (enclosing : Position) (index : Nat) :
    Directive → Str → Pipeline → Option Flow
  | .header name value, path, s =>
      (stepHeader world (enclosing ++ [index]) name value s).map (.next path)
  | .uriReplace find replacement, path, s =>
      some (.next (handleUriReplace find replacement path) s)
  | .stripPrefix pattern, path, s => some (.next (handleStripPrefix pattern path) s)
  | .handlePath pattern directives, path, s =>
      match matchPattern pattern path with
      | some remaining =>
          (runDirectives (enclosing ++ [index]) 0 directives remaining remaining s).map
            fun (result, s) => .done result s
      | none => some (.next path s)
  | .method methods directives, path, s =>
      if handleMethod methods s.req then
        (runDirectives (enclosing ++ [index]) 0 directives path path s).map
          fun (result, s) => .done result s
      else some (.next path s)
  | .redirect status url, _, s =>
      some (.done (.ok (.redirect status url)) (s.record (.action (enclosing ++ [index]))))
  | .respond status body, _, s =>
      some (.done (.ok (.respond status body)) (s.record (.action (enclosing ++ [index]))))
  | .reverseProxy to_ connectTimeout readTimeout headerUp, path, s =>
      some (.done (.ok (.reverseProxy to_ path connectTimeout readTimeout headerUp))
        (s.record (.action (enclosing ++ [index]))))
  | .forwardAuth cfg, path, s => some (stepForwardAuth world ctx (enclosing ++ [index]) cfg path s)

/-- The directives from `index` on; `currentPath` is the path the block was entered with. -/
def runDirectives (enclosing : Position) (index : Nat) :
    List Directive → (currentPath modifiedPath : Str) → Pipeline →
      Option (Except Str ActionResult × Pipeline)
  | [], currentPath, _, s => some (.error (noActionMessage currentPath), s)
  | directive :: rest, currentPath, modifiedPath, s =>
      match stepDirective enclosing index directive modifiedPath s with
      | none => none
      | some (.done result s) => some (result, s)
      | some (.next path s) => runDirectives enclosing (index + 1) rest currentPath path s

end

def processDirectives (directives : List Directive) (currentPath : Str) (s : Pipeline) :
    Option (Except Str ActionResult × Pipeline) :=
  runDirectives world ctx [] 0 directives currentPath currentPath s

end Loop

/-- The first UUID is set aside for the request identifier. -/
def Pipeline.initial (req : Request) : Pipeline := ⟨req, 1, 0, []⟩

/-! ## Site selection -/

def hasPort (host : Str) : Bool :=
  if startsWith ['['] host then
    match Text.splitOnce [']'] host with
    | some (_, after) => after.contains ':'
    | none => false
  else host.contains ':'

/-- The host with its port cut off. -/
def stripPort (host : Str) : Str :=
  if startsWith ['['] host then
    match Text.splitOnce [']'] host with
    | some (before, _) => before.drop 1
    | none => host.drop 1
  else
    match rsplitOnce ':' host with
    | some (name, _) => name
    | none => host

def defaultPort (isTls : Bool) : Nat := if isTls then 443 else 80

/-- The only TLS site with this SNI name, if there is exactly one. -/
def findBySni (config : Config) (host : Str) : Option SiteConfig :=
  match config.values.filter fun site =>
      site.tls.isSome && eqIgnoreAsciiCase (extractHostname site.address) host with
  | [site] => some site
  | _ => none

def findSite (config : Config) (host : Str) (isTls : Bool) : Option SiteConfig :=
  match config.sites.lookup host with
  | some site => some site
  | none =>
      if hasPort host then config.sites.lookup (stripPort host)
      else
        match config.sites.lookup (host ++ ':' :: decimal (defaultPort isTls)) with
        | some site => some site
        | none => if isTls then findBySni config host else none

end TinyProxy
