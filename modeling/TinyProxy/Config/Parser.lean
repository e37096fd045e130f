import TinyProxy.Config.Address

/-!
# The configuration parser

`Config::from_str` reads the text line by line.  Its local variables are the
fields of `ParserState`; both stacks have their innermost entry first.  Line
numbers count from one.
-/

set_option autoImplicit false

namespace TinyProxy

open Rust Http

/-- `ProxyError::Parse`, or an `expect` that failed. -/
inductive Failure where
  | parse (message : Str)
  | panic (message : Str)
deriving DecidableEq

/-- Raw state of a `forward_auth` block, validated when the block closes. -/
structure ForwardAuthBlock where
  to_ : Option Str
  requestHeaders : Option (List Str)
  responseHeaders : Option (List Str)
  failureMode : Option FailureMode
  timeout : Option UInt64
deriving DecidableEq

def ForwardAuthBlock.default : ForwardAuthBlock := ⟨none, none, none, none, none⟩

structure PendingBlock where
  directiveType : Str
  args : List Str
  connectTimeout : Option UInt64
  readTimeout : Option UInt64
  headerUp : List HeaderDirective
  forwardAuth : Option ForwardAuthBlock
deriving DecidableEq

structure ParserState where
  sites : AList fun _ : Str => SiteConfig
  currentSiteAddress : Option Str
  currentSiteTls : Option TlsConfig
  directiveStack : List (List Directive)
  blockStack : List PendingBlock

def ParserState.initial : ParserState := ⟨∅, none, none, [[]], []⟩

/-! ## Values -/

/-- The product wraps, as it does in a release build. -/
def parseDuration (s : Str) : Except Failure UInt64 :=
  let s := trim s
  if s = [] then .error (.parse "Empty duration value".toList)
  else
    match parseU64 s with
    | some secs => .ok secs
    | none =>
        let suffixed :=
          ((stripSuffix ['s'] s).map fun n => (n, (1 : UInt64))).or <|
          ((stripSuffix ['m'] s).map fun n => (n, 60)).or <|
          ((stripSuffix ['h'] s).map fun n => (n, 3600)).or <|
          (stripSuffix ['d'] s).map fun n => (n, 86400)
        match suffixed with
        | none =>
            .error (.parse ("Invalid duration '".toList ++ s ++
              "'. Use a plain number or Ns/Nm/Nh/Nd".toList))
        | some (numPart, multiplier) =>
            match parseU64 numPart with
            | none =>
                .error (.parse ("Invalid numeric value in duration: '".toList ++ s ++ ['\'']))
            | some value => .ok (value * multiplier)

def Failure.display : Failure → Str
  | .parse message => "Parse error: ".toList ++ message
  | .panic message => message

/-- `map_err` with a message that quotes the inner error. -/
def withContext {β : Type} (context : Str) : Except Failure β → Except Failure β
  | .ok value => .ok value
  | .error (.panic message) => .error (.panic message)
  | .error e => .error (.parse (context ++ e.display))

def onLine (line : Nat) : Str := " on line ".toList ++ decimal line

/-! ## `forward_auth` blocks -/

def parseHeaders (what : Str) (line : Nat) (names : List Str) :
    Except Failure (List HeaderName) :=
  names.mapM fun n =>
    match HeaderName.fromBytes n with
    | some name => .ok name
    | none =>
        .error (.parse ("Invalid header name '".toList ++ n ++ "' in forward_auth ".toList ++
          what ++ onLine line))

def buildForwardAuth (parser : UriParser) (pending : ForwardAuthBlock) (line : Nat) :
    Except Failure Directive :=
  match pending.to_ with
  | none =>
      .error (.parse ("forward_auth block closed".toList ++ onLine line ++
        " is missing 'to <url>'".toList))
  | some rawTo =>
      match parser.parseUri rawTo with
      | .error e =>
          .error (.parse ("forward_auth 'to' is not a valid URI".toList ++ onLine line ++
            ": ".toList ++ e))
      | .ok uri =>
          match normalizeAuthEndpoint parser uri with
          | .error e =>
              .error (.parse ("Invalid forward_auth 'to' URL '".toList ++ rawTo ++ ['\''] ++
                onLine line ++ ": ".toList ++ e))
          | .ok endpoint => do
              let requestHeaders ←
                match pending.requestHeaders with
                | some names => parseHeaders "request_headers".toList line names
                | none => .ok defaultRequestHeaders
              let responseHeaders ←
                match pending.responseHeaders with
                | some names => parseHeaders "response_headers".toList line names
                | none => .ok []
              .ok (.forwardAuth
                { endpoint, requestHeaders, responseHeaders
                  failureMode := pending.failureMode.getD .closed
                  timeoutSecs := pending.timeout.getD defaultAuthTimeoutSecs })

def parseFailureMode (raw : Str) (line : Nat) : Except Failure FailureMode :=
  if raw = "closed".toList then .ok .closed
  else if raw = "open".toList then .ok .open
  else
    .error (.parse ("Invalid failure_mode '".toList ++ raw ++ ['\''] ++ onLine line ++
      ". Expected 'open' or 'closed'".toList))

/-- A setting line inside a `forward_auth` block. -/
def forwardAuthSetting (name : Str) (args : List Str) (line : Nat)
    (pending : ForwardAuthBlock) : Except Failure ForwardAuthBlock :=
  if name = "to".toList then
    match args.head? with
    | none => .error (.parse ("Missing URL for forward_auth 'to'".toList ++ onLine line))
    | some raw => .ok { pending with to_ := some raw }
  else if name = "request_headers".toList ∨ name = "response_headers".toList then
    if args = [] then
      .error (.parse ("Missing header names for '".toList ++ name ++ ['\''] ++ onLine line))
    else if name = "request_headers".toList then
      .ok { pending with requestHeaders := some args }
    else .ok { pending with responseHeaders := some args }
  else if name = "failure_mode".toList then
    match args.head? with
    | none => .error (.parse ("Missing value for failure_mode".toList ++ onLine line))
    | some raw => do
        let mode ← parseFailureMode raw line
        .ok { pending with failureMode := some mode }
  else if name = "timeout".toList then
    match args.head? with
    | none => .error (.parse ("Missing value for forward_auth timeout".toList ++ onLine line))
    | some raw => do
        let seconds ← withContext
          ("Invalid forward_auth timeout".toList ++ onLine line ++ ": ".toList)
          (parseDuration raw)
        .ok { pending with timeout := some seconds }
  else
    .error (.parse ("Unexpected directive '".toList ++ name ++
      "' inside forward_auth block".toList ++ onLine line ++
      ". Allowed: to, request_headers, response_headers, failure_mode, timeout.".toList))

/-! ## `reverse_proxy` blocks -/

/-- A timeout line; both settings differ in the field only. -/
def timeoutSetting (name : Str) (args : List Str) (line : Nat) : Except Failure UInt64 :=
  match args.head? with
  | none => .error (.parse ("Missing value for ".toList ++ name))
  | some raw =>
      withContext ("Invalid ".toList ++ name ++ onLine line ++ ": ".toList) (parseDuration raw)

def headerUpSetting (args : List Str) (line : Nat) : Except Failure HeaderDirective :=
  match args with
  | [] => .error (.parse ("Missing header name for header_up".toList ++ onLine line))
  | rawName :: values =>
      match stripPrefix ['-'] rawName with
      | some name =>
          if name = [] then
            .error (.parse ("Missing header name after '-' in header_up".toList ++ onLine line))
          else .ok ⟨name, none⟩
      | none =>
          let value := join [' '] values
          if value = [] then
            .error (.parse ("Missing value for header_up ".toList ++ rawName ++ onLine line))
          else .ok ⟨rawName, some value⟩

/-- A setting line inside a `reverse_proxy` block. -/
def reverseProxySetting (name : Str) (args : List Str) (line : Nat) (block : PendingBlock) :
    Except Failure PendingBlock :=
  if name = "connect_timeout".toList then do
    let seconds ← timeoutSetting name args line
    .ok { block with connectTimeout := some seconds }
  else if name = "read_timeout".toList then do
    let seconds ← timeoutSetting name args line
    .ok { block with readTimeout := some seconds }
  else if name = "header_up".toList then do
    let directive ← headerUpSetting args line
    .ok { block with headerUp := block.headerUp ++ [directive] }
  else
    .error (.parse ("Unexpected directive '".toList ++ name ++
      "' inside reverse_proxy block".toList ++ onLine line ++
      ". Allowed: connect_timeout, read_timeout, header_up.".toList))

/-! ## Directive lines -/

def tlsSetting (args : List Str) (line : Nat) (current : Option TlsConfig) :
    Except Failure TlsConfig :=
  match args with
  | [] => .error (.parse ("Missing cert path for tls directive".toList ++ onLine line))
  | [_] => .error (.parse ("Missing key path for tls directive".toList ++ onLine line))
  | certPath :: keyPath :: _ =>
      if current.isSome then
        .error (.parse ("Duplicate tls directive".toList ++ onLine line ++
          ". Only one tls per site is allowed.".toList))
      else .ok ⟨certPath, keyPath⟩

def headerLine (args : List Str) : Except Failure Directive :=
  match args with
  | [] => .error (.parse "Missing 'name' arg for header".toList)
  | rawName :: values =>
      match stripPrefix ['-'] rawName with
      | some name =>
          if name = [] then
            .error (.parse "Missing header name after '-' for header removal".toList)
          else .ok (.header name none)
      | none =>
          match values with
          | [] => .error (.parse "Missing 'value' arg for header".toList)
          | value :: _ => .ok (.header rawName (some value))

def redirectLine (args : List Str) : Except Failure Directive :=
  match args with
  | [] => .error (.parse "Missing 'url' arg for redirect".toList)
  | [url] => .ok (.redirect 301 url)
  | rawStatus :: url =>
      match parseU16 rawStatus with
      | none => .error (.parse ("Invalid status code for redirect: ".toList ++ rawStatus))
      | some status => .ok (.redirect status (join [' '] url))

/-- A directive written on one line. -/
def parseDirective (name : Str) (args : List Str) (line : Nat) : Except Failure Directive :=
  if name = "reverse_proxy".toList then
    match args with
    | [] => .error (.parse "Missing backend URL for reverse_proxy".toList)
    | to_ :: _ => .ok (.reverseProxy to_ none none [])
  else if name = "uri_replace".toList then
    match args with
    | [] => .error (.parse "Missing 'find' arg for uri_replace".toList)
    | [_] => .error (.parse "Missing 'replace' arg for uri_replace".toList)
    | find :: replacement :: _ => .ok (.uriReplace find replacement)
  else if name = "header".toList then headerLine args
  else if name = "respond".toList then
    match args.head?.bind parseU16 with
    | none => .error (.parse "Invalid status for respond".toList)
    | some status => .ok (.respond status (args[1]?.getD []))
  else if name = "strip_prefix".toList then
    match args with
    | [] => .error (.parse "Missing 'prefix' arg for strip_prefix".toList)
    | pattern :: _ => .ok (.stripPrefix pattern)
  else if name = "redirect".toList then redirectLine args
  else
    .error (.parse ("Unknown directive '".toList ++ name ++ ['\''] ++ onLine line))

/-! ## Blocks -/

/-- The directive a closing brace completes. -/
def completeBlock (parser : UriParser) (block : PendingBlock) (finished : List Directive)
    (line : Nat) : Except Failure Directive :=
  if block.directiveType = "handle_path".toList then
    .ok (.handlePath (block.args.head?.getD []) finished)
  else if block.directiveType = "method".toList then .ok (.method block.args finished)
  else if block.directiveType = "reverse_proxy".toList then
    .ok (.reverseProxy (block.args.head?.getD []) block.connectTimeout block.readTimeout
      block.headerUp)
  else if block.directiveType = "forward_auth".toList then
    if finished.isEmpty then
      match block.forwardAuth with
      | none => .error (.parse "internal error: forward_auth block state missing".toList)
      | some pending => buildForwardAuth parser pending line
    else
      .error (.parse
        ("Nested directives are not allowed inside a forward_auth block (line ".toList ++
          decimal line ++
          "). Allowed: to, request_headers, response_headers, failure_mode, timeout.".toList))
  else .error (.parse ("Unknown block type: ".toList ++ block.directiveType))

def openBlock (parts : List Str) (s : ParserState) : ParserState :=
  match parts with
  | [] => s
  | directiveType :: rest =>
      if s.directiveStack.length = 1 ∧ s.currentSiteAddress = none then
        { s with currentSiteAddress := some directiveType }
      else
        { s with
          blockStack :=
            { directiveType
              args := rest.filter fun arg => arg ≠ ['\x7b']
              connectTimeout := none
              readTimeout := none
              headerUp := []
              forwardAuth :=
                if directiveType = "forward_auth".toList then some .default else none } ::
              s.blockStack
          directiveStack := [] :: s.directiveStack }

def closeSite (s : ParserState) : Except Failure ParserState :=
  match s.currentSiteAddress with
  | none => .ok s
  | some address =>
      match s.directiveStack with
      | [] => .error (.panic "site directive_stack is non-empty".toList)
      | directives :: outer =>
          if address ∈ s.sites then
            .error (.parse ("Duplicate site address '".toList ++ address ++
              "'. Each address may appear only once in the configuration.".toList))
          else
            .ok
              { sites := s.sites.insert address ⟨address, directives, s.currentSiteTls⟩
                currentSiteAddress := none
                currentSiteTls := none
                directiveStack := [] :: outer
                blockStack := s.blockStack }

def closeBlock (parser : UriParser) (line : Nat) (s : ParserState) :
    Except Failure ParserState :=
  match s.directiveStack with
  | finished :: parent :: outer =>
      match s.blockStack with
      | [] => .error (.panic "block_stack has matching entry".toList)
      | block :: blocks => do
          let directive ← completeBlock parser block finished line
          .ok { s with
            directiveStack := (parent ++ [directive]) :: outer
            blockStack := blocks }
  | _ => closeSite s

/-! ## Lines -/

def pushDirective (directive : Directive) (s : ParserState) : Except Failure ParserState :=
  match s.directiveStack with
  | [] => .error (.panic "directive_stack is non-empty".toList)
  | current :: outer =>
      .ok { s with directiveStack := (current ++ [directive]) :: outer }

def regularLine (name : Str) (args : List Str) (line : Nat) (s : ParserState) :
    Except Failure ParserState := do
  let directive ← parseDirective name args line
  pushDirective directive s

def simpleLine (name : Str) (args : List Str) (line : Nat) (s : ParserState) :
    Except Failure ParserState :=
  match s.blockStack with
  | block :: blocks =>
      if block.directiveType = "forward_auth".toList then
        match block.forwardAuth with
        | none => .error (.parse "internal error: forward_auth block state missing".toList)
        | some pending => do
            let pending ← forwardAuthSetting name args line pending
            .ok { s with blockStack := { block with forwardAuth := some pending } :: blocks }
      else if block.directiveType = "reverse_proxy".toList then do
        let block ← reverseProxySetting name args line block
        .ok { s with blockStack := block :: blocks }
      else regularLine name args line s
  | [] =>
      if name = "tls".toList then do
        let tls ← tlsSetting args line s.currentSiteTls
        .ok { s with currentSiteTls := some tls }
      else regularLine name args line s

def parseLine (parser : UriParser) (line : Nat) (raw : Str) (s : ParserState) :
    Except Failure ParserState :=
  let text := trim raw
  if text = [] ∨ startsWith ['#'] text then .ok s
  else if endsWith ['\x7b'] text then .ok (openBlock (splitWhitespace text) s)
  else if text = ['\x7d'] then closeBlock parser line s
  else
    match splitWhitespace text with
    | [] => .ok s
    | name :: args => simpleLine name args line s

def parseLines (parser : UriParser) : Nat → List Str → ParserState → Except Failure ParserState
  | _, [], s => .ok s
  | line, raw :: rest, s => do
      let s ← parseLine parser line raw s
      parseLines parser (line + 1) rest s

/-! ## Listen sockets -/

/-- What has been seen on each socket: its protocol, and the site of each SNI name. -/
structure SocketTable where
  tls : List (SocketAddr × Bool)
  sni : List ((SocketAddr × Str) × Str)

def checkSite (site : SiteConfig) (seen : SocketTable) : Except Failure SocketTable :=
  match resolveListenAddr site.address with
  | .error e => .error (.parse e)
  | .ok listenAddr =>
      let isTls := site.tls.isSome
      match seen.tls.lookup listenAddr with
      | some prevTls =>
          if prevTls ≠ isTls then
            .error (.parse
              ("Mixed TLS and non-TLS sites on the same listen address ".toList ++
                listenAddr.display ++ " is not supported. Site '".toList ++ site.address ++
                "' is ".toList ++ (if isTls then "TLS".toList else "plain HTTP".toList) ++
                " but conflicts with another site on this socket.".toList))
          else checkSni listenAddr isTls seen
      | none => checkSni listenAddr isTls { seen with tls := (listenAddr, isTls) :: seen.tls }
where
  checkSni (listenAddr : SocketAddr) (isTls : Bool) (seen : SocketTable) :
      Except Failure SocketTable :=
    if isTls then
      let sni := toAsciiLowercase (extractHostname site.address)
      match seen.sni.lookup (listenAddr, sni) with
      | some existing =>
          .error (.parse ("Duplicate SNI hostname '".toList ++ sni ++
            "' on listen address ".toList ++ listenAddr.display ++ " (sites '".toList ++
            existing ++ "' and '".toList ++ site.address ++ "')".toList))
      | none => .ok { seen with sni := ((listenAddr, sni), site.address) :: seen.sni }
    else .ok seen

def checkSites : List SiteConfig → SocketTable → Except Failure SocketTable
  | [], seen => .ok seen
  | site :: rest, seen => do
      let seen ← checkSite site seen
      checkSites rest seen

def validateListenSockets (config : Config) : Except Failure Unit :=
  (checkSites config.values ⟨[], []⟩).map fun _ => ()

def Config.fromStr (parser : UriParser) (content : Str) : Except Failure Config := do
  let s ← parseLines parser 1 (lines content) .initial
  validateListenSockets ⟨s.sites⟩
  .ok ⟨s.sites⟩

end TinyProxy
