import TinyProxy.Proxy.Paths

/-!
# The query of the upstream URI

Directives rewrite the path, and the client's query is put back after them.  A
rewritten path that has a `?` is sent as it is, and whatever follows a `#` is cut.
-/

set_option autoImplicit false

namespace TinyProxy

open Rust Http

/-! ## Targets -/

/-- The query of a request target. -/
def targetQuery (target : Str) : Option Str := (Text.splitOnce ['?'] target).map Prod.snd

/-- The target without its fragment. -/
def cutFragment (target : Str) : Str := target.takeWhile (· ≠ '#')

/-- `q` is a run of whole parameters of the query. -/
def CarriesQuery (q query : Str) : Prop := ['&'] ++ q ++ ['&'] <:+: ['&'] ++ query ++ ['&']

theorem cutFragment_of_not_mem {target : Str} (clean : '#' ∉ target) :
    cutFragment target = target := by
  rw [cutFragment, List.takeWhile_eq_self_iff]
  intro c member
  simpa using fun same : c = '#' => clean (same ▸ member)

theorem cutFragment_append {front : Str} (cut : '#' ∈ front) (back : Str) :
    cutFragment (front ++ back) = cutFragment front := by
  induction front with
  | nil => cases cut
  | cons c rest ih =>
      rw [List.cons_append, cutFragment, cutFragment, List.takeWhile_cons, List.takeWhile_cons]
      by_cases here : c = '#'
      · simp [here]
      · have later : '#' ∈ rest := (List.mem_cons.mp cut).resolve_left (Ne.symm here)
        have tail := ih later
        rw [cutFragment, cutFragment] at tail
        simp only [here, ne_eq, not_false_eq_true, decide_true, if_true, tail]

theorem targetQuery_append {path : Str} (query : Str) (clean : '?' ∉ path) :
    targetQuery (path ++ '?' :: query) = some query := by
  rw [targetQuery, Text.splitOnce_singleton '?' query clean]
  rfl

theorem targetQuery_eq_none {target : Str} (clean : '?' ∉ target) : targetQuery target = none := by
  rw [targetQuery, Text.splitOnce_singleton_eq_none_iff.mpr clean]
  rfl

theorem mem_uri_path {uri : Uri} {c : Char} (member : c ∈ uri.path) :
    c = '/' ∨ c ≠ '?' ∧ ∃ target, uri.pathAndQuery = some target ∧ c ∈ target := by
  unfold Uri.path at member
  split at member
  · cases member
  · next target given =>
      dsimp only at member
      split at member
      · exact Or.inl (List.mem_singleton.mp member)
      · have notMark : c ≠ '?' := by simpa using List.mem_takeWhile_imp member
        exact Or.inr ⟨notMark, target, given, (List.takeWhile_prefix _).subset member⟩

/-! ## The upstream URI -/

/-- The target is left alone by both cuts, or it brings the query itself. -/
def QueryFits (q path : Str) : Prop :=
  ('?' ∉ path ∧ '#' ∉ path) ∨
    '?' ∈ path ∧ ∃ query, targetQuery (cutFragment path) = some query ∧ CarriesQuery q query

section Upstream
variable {parser : UriParser} {backendUrl path q : Str} {req : Request} {newUri : Uri}

/-- The documented behaviour of the HTTP library's request targets. -/
structure SplitsTargets (parser : UriParser) : Prop where
  parsed : ∀ text target, parser.parsePathAndQuery text = .ok target →
    targetQuery target = targetQuery (cutFragment text)
  kept : ∀ parts uri, parser.fromParts parts = .ok uri → uri.query = parts.query

theorem upstream_query (splits : SplitsTargets parser) (sent : req.uri.query = some q)
    (built : backendUri parser backendUrl path req = .ok newUri) :
    newUri.query =
      targetQuery (cutFragment (if path.contains '?' = true then path else path ++ '?' :: q)) := by
  obtain ⟨parts, _, rest⟩ := bind_ok built
  rw [sent] at rest
  obtain ⟨target, parsed, made⟩ := bind_ok rest
  exact (splits.kept _ _ made).trans (splits.parsed _ _ parsed)

theorem carries_iff_fits (splits : SplitsTargets parser) (sent : req.uri.query = some q)
    (clean : '#' ∉ q) (built : backendUri parser backendUrl path req = .ok newUri) :
    (∃ query, newUri.query = some query ∧ CarriesQuery q query) ↔ QueryFits q path := by
  rw [upstream_query splits sent built, QueryFits]
  by_cases own : '?' ∈ path
  · rw [if_pos (List.contains_iff_mem.mpr own)]
    exact ⟨fun carried => Or.inr ⟨own, carried⟩, fun fits =>
      (fits.resolve_left fun both => both.1 own).2⟩
  · rw [if_neg fun has => own (List.contains_iff_mem.mp has)]
    by_cases cut : '#' ∈ path
    · have inside : '?' ∉ cutFragment path := fun member =>
        own ((List.takeWhile_prefix _).subset member)
      rw [cutFragment_append cut, targetQuery_eq_none inside]
      constructor
      · rintro ⟨_, absent, _⟩
        cases absent
      · rintro (both | both)
        · exact absurd cut both.2
        · exact absurd both.1 own
    · have whole : '#' ∉ path ++ '?' :: q := by
        rw [List.mem_append, List.mem_cons, not_or, not_or]
        exact ⟨cut, by decide, clean⟩
      rw [cutFragment_of_not_mem whole, targetQuery_append q own]
      exact ⟨fun _ => Or.inl ⟨own, cut⟩, fun _ => ⟨q, rfl, List.infix_refl _⟩⟩

end Upstream

/-! ## Paths of a run -/

theorem mem_replaceFrom {pattern new : Str} {c : Char} : ∀ {text : Str} {skip : Nat},
    c ∈ Text.replaceFrom pattern new skip text → c ∈ new ∨ c ∈ text := by
  intro text
  induction text with
  | nil =>
      intro skip member
      rw [Text.replaceFrom] at member
      cases member
  | cons d rest ih =>
      intro skip member
      cases skip with
      | succ skip => exact (ih member).imp_right (List.mem_cons_of_mem d)
      | zero =>
          rw [Text.replaceFrom] at member
          split at member
          · rcases List.mem_append.mp member with inNew | later
            · exact Or.inl inNew
            · exact (ih later).imp_right (List.mem_cons_of_mem d)
          · rcases List.mem_cons.mp member with rfl | later
            · exact Or.inr (List.mem_cons_self ..)
            · exact (ih later).imp_right (List.mem_cons_of_mem d)

theorem mem_replace {find replacement path : Str} {c : Char}
    (member : c ∈ replace find replacement path) : c ∈ replacement ∨ c ∈ path := by
  rw [replace] at member
  split at member
  · rcases List.mem_append.mp member with inNew | spread
    · exact Or.inl inNew
    · obtain ⟨d, inPath, among⟩ := List.mem_flatMap.mp spread
      rcases List.mem_cons.mp among with rfl | inNew
      · exact Or.inr inPath
      · exact Or.inl inNew
  · exact mem_replaceFrom member

/-- The symbol is written by a replacement of the tree. -/
def Writes (directives : List Directive) (c : Char) : Prop :=
  ∃ find replacement, Occurs (.uriReplace find replacement) directives ∧ c ∈ replacement

section Runs
variable {world : World} {ctx : AuthCtx} {directives : List Directive} {path : Str}
variable {s : Pipeline} {visit : Visit}

theorem mem_handleStripPrefix {pattern : Str} {c : Char}
    (member : c ∈ handleStripPrefix pattern path) : c = '/' ∨ c ∈ path := by
  rw [handleStripPrefix] at member
  cases stripped : stripPrefix pattern path with
  | none =>
      rw [stripped] at member
      exact Or.inr member
  | some rest =>
      rw [stripped] at member
      have split := stripPrefix_eq_some_iff.mp stripped
      have kept : c ∈ rest → c ∈ path := fun inRest => split ▸ List.mem_append_right _ inRest
      dsimp only at member
      split at member
      · exact (List.mem_cons.mp member).imp_right kept
      · exact Or.inr (kept member)

theorem mem_entered {directive : Directive} {req : Request} {inner : Str} {c : Char}
    (enters : entered directive path req = some inner) (member : c ∈ inner) :
    c = '/' ∨ c ∈ path := by
  rcases entered_cases enters with ⟨pattern, nested, _, matched⟩ | ⟨_, _, _, _, rfl⟩
  · rw [matchPattern] at matched
    split at matched
    · exact Or.inr (stripPrefix_eq_some_iff.mp matched ▸ List.mem_append_right _ member)
    · split at matched
      · obtain rfl := Option.some.inj matched
        exact Or.inl (List.mem_singleton.mp member)
      · cases matched
  · exact Or.inr member

/-- Other symbols than `/` are the request's own, unless a replacement writes them. -/
theorem mem_visit_path {c : Char} (notSlash : c ≠ '/') (unwritten : ¬ Writes directives c)
    (absent : c ∉ path) (visits : Visits world ctx [] 0 directives path s visit) :
    c ∉ visit.path := by
  refine @visits_path world ctx (fun before => c ∉ before) [] 0 directives path s visit visits
    ?_ ?_ ?_ absent
  · intro pattern before _ clean member
    exact (mem_handleStripPrefix member).elim notSlash clean
  · intro find replacement before occurs clean member
    rcases mem_replace member with inNew | inPath
    · exact unwritten ⟨find, replacement, occurs, inNew⟩
    · exact clean inPath
  · intro other inner _ clean enters member
    exact (mem_entered enters member).elim notSlash clean

theorem stepHeader_uri {position : Position} {name : Str} {value : Option Str} {t : Pipeline}
    (step : stepHeader world position name value s = some t) : t.req.uri = s.req.uri := by
  unfold stepHeader at step
  cases handled : handleHeader world.fuel world.env (world.uuids s.uuidsUsed) name value s.req with
  | none => simp [handled] at step
  | some result =>
      rw [handled] at step
      obtain rfl := Option.some.inj step
      cases result with
      | error e => rfl
      | ok out =>
          obtain ⟨w, _, rfl⟩ := handleHeader_ok handled
          rfl

/-- Directives never touch the request target. -/
theorem processDirectives_uri {req : Request} {result : Except Str ActionResult}
    (run : processDirectives world ctx directives path (.initial req) = some (result, s)) :
    s.req.uri = req.uri := by
  refine @run_invariant world ctx (fun t => t.req.uri = req.uri) ?_ _ _ _ _ _ _ _ _ run rfl
  intro before after step same
  cases step with
  | header step => exact (stepHeader_uri step).trans same
  | auth position cfg =>
      unfold afterAuth
      cases authResult world ctx cfg before <;> exact same
  | action position => exact same

end Runs

/-! ## The client's query -/

/-- The query of a request that is proxied is in the query of the upstream URI exactly when
it fits the rewritten path, as it always does where no replacement writes a `?` or a `#`. -/
theorem query_carried_iff {parser : UriParser} {world : World} {ctx : AuthCtx}
    {directives : List Directive} {req : Request} {backendUrl pathToSend q : Str}
    {connectTimeout readTimeout : Option UInt64} {headerUp : List HeaderDirective} {s : Pipeline}
    {newUri : Uri} (splits : SplitsTargets parser)
    (noFragment : ∀ target, req.uri.pathAndQuery = some target → '#' ∉ target)
    (run : processDirectives world ctx directives req.uri.path (.initial req) =
      some (.ok (.reverseProxy backendUrl pathToSend connectTimeout readTimeout headerUp), s))
    (built : backendUri parser backendUrl pathToSend s.req = .ok newUri)
    (sent : req.uri.query = some q) :
    ((∃ query, newUri.query = some query ∧ CarriesQuery q query) ↔ QueryFits q pathToSend) ∧
    (¬ Writes directives '?' → ¬ Writes directives '#' →
      ∃ query, newUri.query = some query ∧ CarriesQuery q query) := by
  obtain ⟨cut, parted, isQuery⟩ := Option.map_eq_some_iff.mp sent
  obtain ⟨target, given, split⟩ := Option.bind_eq_some_iff.mp parted
  have whole : target = cut.1 ++ ['?'] ++ cut.2 := Text.splitOnce_eq_append split
  have clean := noFragment target given
  have queryClean : '#' ∉ q := fun member => clean
    (whole ▸ List.mem_append_right _ (isQuery ▸ member))
  have kept : s.req.uri.query = some q := by rw [processDirectives_uri run, sent]
  have carried := carries_iff_fits splits kept queryClean built
  refine ⟨carried, fun noQuery noCut => carried.mpr (Or.inl ?_)⟩
  obtain ⟨visit, visits, rfl, _⟩ := reverseProxy_visited run
  have noMark : '?' ∉ req.uri.path := fun member =>
    (mem_uri_path member).elim (by decide) fun inside => inside.1 rfl
  have noHash : '#' ∉ req.uri.path := fun member =>
    (mem_uri_path member).elim (by decide) fun inside =>
      inside.2.elim fun other within => noFragment other within.1 within.2
  exact ⟨mem_visit_path (by decide) noQuery noMark visits,
    mem_visit_path (by decide) noCut noHash visits⟩

/-! ## Two rewritings -/

/-- `plainUriParser` that cuts fragments. -/
def cuttingUriParser : UriParser :=
  { plainUriParser with
    parsePathAndQuery := fun text =>
      if startsWith ['/'] text then .ok (cutFragment text)
      else .error "invalid uri character".toList }

theorem cuttingUriParser_splits : SplitsTargets cuttingUriParser := by
  refine ⟨fun text target parsed => ?_, fun parts uri made => ?_⟩
  · dsimp only [cuttingUriParser] at parsed
    split at parsed
    · rw [Except.ok.inj parsed]
    · cases parsed
  · rw [Except.ok.inj made]

/-- `/a?x=1` -/
def queryRequest : Request :=
  ⟨"GET".toList, ⟨none, none, some "/a?x=1".toList⟩, exampleRequest.headers⟩

def rewritingTree (replacement : Str) : List Directive :=
  [.uriReplace "/a".toList replacement, .reverseProxy "http://b".toList none none []]

/-- The upstream URI of `queryRequest`. -/
def rewrittenUri (replacement : Str) : Option Uri :=
  match processDirectives quietWorld exampleCtx (rewritingTree replacement) queryRequest.uri.path
      (.initial queryRequest) with
  | some (.ok (.reverseProxy backendUrl pathToSend _ _ _), s) =>
      (backendUri cuttingUriParser backendUrl pathToSend s.req).toOption
  | _ => none

theorem query_carried_iff_renamed :
    ∃ newUri, rewrittenUri "/b".toList = some newUri ∧
      ∃ query, newUri.query = some query ∧ CarriesQuery "x=1".toList query := by
  have noFragment : ∀ target, queryRequest.uri.pathAndQuery = some target → '#' ∉ target := by
    rintro _ ⟨⟩
    decide
  have run : processDirectives quietWorld exampleCtx (rewritingTree "/b".toList)
      queryRequest.uri.path (.initial queryRequest) =
        some (.ok (.reverseProxy "http://b".toList "/b".toList none none []),
          ⟨queryRequest, 1, 0, [.action [1]]⟩) := rfl
  have built : backendUri cuttingUriParser "http://b".toList "/b".toList queryRequest =
      .ok ⟨some "http".toList, some ['b'], some "/b?x=1".toList⟩ := rfl
  have fits : QueryFits "x=1".toList "/b".toList := Or.inl (by decide)
  exact ⟨_, rfl, (query_carried_iff cuttingUriParser_splits noFragment run built rfl).1.mpr fits⟩

/-- A replacement with a query of its own, or with a fragment, loses the client's. -/
theorem client_query_is_lost :
    queryRequest.uri.query = some "x=1".toList ∧
      (rewrittenUri "/b?v=1".toList).map Uri.query = some (some "v=1".toList) ∧
      ¬ CarriesQuery "x=1".toList "v=1".toList ∧
      (rewrittenUri "/b#top".toList).map Uri.query = some none := by
  refine ⟨rfl, rfl, ?_, rfl⟩
  rw [CarriesQuery]
  decide

end TinyProxy
