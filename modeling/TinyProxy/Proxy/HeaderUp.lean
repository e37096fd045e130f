import TinyProxy.Proxy.Handler

/-!
# Header operations as writes

`header` and `header_up` write one header of the request they find, or leave it
as it is.  After a list of them the last successful write to a header decides its
values.
-/

set_option autoImplicit false

namespace TinyProxy

open Rust Http

/-! ## One operation -/

/-- The substitution ends, if there is one. -/
def WriteSettles (substitute : Str → Option (Except Str Str)) (name : Str) (value : Option Str) :
    Prop :=
  HeaderName.fromBytes name ≠ none → ∀ template, value = some template → substitute template ≠ none

section Operations
variable {fuel : Nat} {env : Environment} {uuid : Uuid} {req : Request}

theorem WriteSettles.tries {substitute : Str → Option (Except Str Str)} {name : Str}
    {value : Option Str} (settles : WriteSettles substitute name value) (req : Request) :
    ∃ result, tryHeader substitute name value req = some result := by
  rw [← Option.isSome_iff_exists, Option.isSome_iff_ne_none]
  intro stuck
  obtain ⟨valid, template, given, ends⟩ := tryHeader_eq_none stuck
  exact settles valid template given ends

theorem applyHeaderDirective_eq {ctx : UpstreamCtx} {directive : HeaderDirective}
    (settles : WriteSettles (ctx.substitute fuel env uuid req.headers) directive.name
      directive.value) :
    applyHeaderDirective fuel env uuid ctx directive req =
      some { req with
        headers := Multimap.attempt req.headers
          (headerWrite (ctx.substitute fuel env uuid req.headers) directive.name
            directive.value) } := by
  obtain ⟨result, tried⟩ := settles.tries req
  have applied := @applyHeaderDirective_eq_try fuel env uuid req ctx directive
  rw [tried, Option.map_some] at applied
  rw [applied, applyHeaderDirective_write applied]

theorem handleHeader_eq {name : Str} {value : Option Str}
    (settles : WriteSettles (processHeaderSubstitution fuel env uuid req.headers) name value) :
    ∃ result, handleHeader fuel env uuid name value req = some result ∧
      result.toOption.getD req =
        { req with
          headers := Multimap.attempt req.headers
            (headerWrite (processHeaderSubstitution fuel env uuid req.headers) name value) } := by
  obtain ⟨result, tried⟩ := settles.tries req
  refine ⟨result, handleHeader_eq_try name value ▸ tried, ?_⟩
  rw [tryHeader_write tried]
  cases headerWrite (processHeaderSubstitution fuel env uuid req.headers) name value <;> rfl

end Operations

/-! ## A list of operations -/

section Lists
variable {fuel : Nat} {env : Environment} {uuids : Nat → Uuid} {ctx : UpstreamCtx}

theorem applyHeaderUp_append (front back : List HeaderDirective) :
    ∀ {start : Nat} {req : Request},
      applyHeaderUp fuel env uuids ctx start (front ++ back) req =
        (applyHeaderUp fuel env uuids ctx start front req).bind
          (applyHeaderUp fuel env uuids ctx (start + front.length) back) := by
  induction front with
  | nil => exact fun {_} {_} => rfl
  | cons directive rest ih =>
      intro start req
      rw [List.cons_append, applyHeaderUp, applyHeaderUp, List.length_cons, Option.bind_assoc,
        Nat.add_comm rest.length, ← Nat.add_assoc]
      simp only [ih]

/-- The write of the `n`-th operation of the list, on the headers it finds. -/
def upstreamWrite (fuel : Nat) (env : Environment) (uuids : Nat → Uuid) (ctx : UpstreamCtx)
    (start : Nat) (directives : List HeaderDirective) (n : Nat) (headers : HeaderMap) :
    Option (Multimap.Write HeaderName HeaderValue) :=
  directives[n]?.bind fun directive =>
    headerWrite (ctx.substitute fuel env (uuids (start + n)) headers) directive.name
      directive.value

variable {start : Nat} {directives : List HeaderDirective} {req : Request}

theorem upstreamWrite_key {n : Nat} {headers : HeaderMap}
    {w : Multimap.Write HeaderName HeaderValue}
    (written : upstreamWrite fuel env uuids ctx start directives n headers = some w) :
    ∃ directive ∈ directives, HeaderName.fromBytes directive.name = some w.key := by
  obtain ⟨directive, present, written⟩ := Option.bind_eq_some_iff.mp written
  exact ⟨directive, List.mem_of_getElem? present, headerWrite_key written⟩

/-- Every substitution that the list comes to ends. -/
def ListSettles (fuel : Nat) (env : Environment) (uuids : Nat → Uuid) (ctx : UpstreamCtx)
    (start : Nat) (directives : List HeaderDirective) (req : Request) : Prop :=
  ∀ n directive before, directives[n]? = some directive →
    applyHeaderUp fuel env uuids ctx start (directives.take n) req = some before →
      WriteSettles (ctx.substitute fuel env (uuids (start + n)) before.headers) directive.name
        directive.value

/-- The list is a loop of attempts on the headers; the rest of the request stays. -/
theorem applyHeaderUp_attempts
    (settles : ListSettles fuel env uuids ctx start directives req) (n : Nat) :
    applyHeaderUp fuel env uuids ctx start (directives.take n) req =
      some { req with
        headers := Multimap.attempts (upstreamWrite fuel env uuids ctx start directives)
          req.headers n } := by
  induction n with
  | zero => rfl
  | succ n ih =>
      cases present : directives[n]? with
      | none =>
          have short : directives.length ≤ n := List.getElem?_eq_none_iff.mp present
          have nothing : ∀ headers, upstreamWrite fuel env uuids ctx start directives n headers =
              none := fun headers => by rw [upstreamWrite, present, Option.bind_none]
          rw [List.take_of_length_le short] at ih
          rw [List.take_of_length_le (Nat.le_succ_of_le short), ih, Multimap.attempts, nothing]
          rfl
      | some directive =>
          have inside : n < directives.length := (List.getElem?_eq_some_iff.mp present).1
          have cut : (directives.take n).length = n := List.length_take_of_le (le_of_lt inside)
          have written : ∀ headers, upstreamWrite fuel env uuids ctx start directives n headers =
              headerWrite (ctx.substitute fuel env (uuids (start + n)) headers) directive.name
                directive.value :=
            fun headers => by rw [upstreamWrite, present, Option.bind_some]
          rw [List.take_add_one, present, applyHeaderUp_append, ih, Option.bind_some, cut,
            Multimap.attempts, written]
          rw [Option.toList_some, applyHeaderUp,
            applyHeaderDirective_eq (settles n directive _ present ih)]
          rfl

end Lists

/-- The last successful write to a header decides its values, in a list of `header_up`
operations; every header without one keeps its values, and an operation that fails changes
nothing, as does a `header` directive that fails. -/
theorem header_last_writer_wins {fuel : Nat} {env : Environment} {uuids : Nat → Uuid}
    {ctx : UpstreamCtx} {start : Nat} {directives : List HeaderDirective} {req : Request}
    (settles : ListSettles fuel env uuids ctx start directives req) :
    (∃ (out : Request) (after : Nat → Request),
      applyHeaderUp fuel env uuids ctx start directives req = some out ∧
      (∀ n, applyHeaderUp fuel env uuids ctx start (directives.take n) req = some (after n)) ∧
      out = { req with headers := out.headers } ∧
      (∀ n w, upstreamWrite fuel env uuids ctx start directives n (after n).headers = some w →
        (∀ later, n < later → ∀ other,
          upstreamWrite fuel env uuids ctx start directives later (after later).headers =
            some other → other.key ≠ w.key) →
        Multimap.getAll out.headers w.key = w.value.toList) ∧
      (∀ name, (∀ n w,
          upstreamWrite fuel env uuids ctx start directives n (after n).headers = some w →
            w.key ≠ name) →
        Multimap.getAll out.headers name = Multimap.getAll req.headers name) ∧
      ∀ n, upstreamWrite fuel env uuids ctx start directives n (after n).headers = none →
        after (n + 1) = after n) ∧
    ∀ (world : World) (auth : AuthCtx) (enclosing : Position) (index : Nat) (name : Str)
      (value : Option Str) (rest : List Directive) (currentPath path : Str) (s : Pipeline),
      WriteSettles (processHeaderSubstitution world.fuel world.env (world.uuids s.uuidsUsed)
        s.req.headers) name value →
      ∃ t, runDirectives world auth enclosing index (.header name value :: rest) currentPath path s =
          runDirectives world auth enclosing (index + 1) rest currentPath path t ∧
        (∀ w, headerWrite (processHeaderSubstitution world.fuel world.env
            (world.uuids s.uuidsUsed) s.req.headers) name value = some w →
          t.req = { s.req with headers := Multimap.write s.req.headers w }) ∧
        (headerWrite (processHeaderSubstitution world.fuel world.env
            (world.uuids s.uuidsUsed) s.req.headers) name value = none → t.req = s.req) := by
  constructor
  · have states := applyHeaderUp_attempts settles
    have whole := states directives.length
    rw [List.take_length] at whole
    refine ⟨_, _, whole, states, rfl, ?_, ?_, ?_⟩
    · intro n w written latest
      dsimp only at written latest ⊢
      have inside : n < directives.length := by
        by_contra outside
        rw [upstreamWrite, List.getElem?_eq_none_iff.mpr (by omega), Option.bind_none] at written
        cases written
      exact Multimap.getAll_attempts_last inside written fun later after _ => latest later after
    · intro name untouched
      exact Multimap.getAll_attempts_kept (Nat.zero_le _) fun n _ _ => untouched n
    · intro n failed
      dsimp only at failed ⊢
      rw [Multimap.attempts, failed]
      rfl
  · intro world auth enclosing index name value rest currentPath path s ends
    obtain ⟨result, handled, kept⟩ := handleHeader_eq ends
    obtain ⟨t, stepped, left⟩ : ∃ t, stepHeader world (enclosing ++ [index]) name value s = some t ∧
        t.req = result.toOption.getD s.req := by
      rw [stepHeader, handled]
      exact ⟨_, rfl, rfl⟩
    refine ⟨t, ?_, fun w written => ?_, fun failed => ?_⟩
    · rw [runDirectives, stepDirective, stepped]
      rfl
    · rw [left, kept, written]
      rfl
    · rw [left, kept, failed]
      rfl

/-! ## An overridden header -/

def tenantUpdates : List HeaderDirective :=
  [⟨"X-Tenant".toList, some ['a']⟩, ⟨"Bad Name".toList, some ['b']⟩,
    ⟨"x-tenant".toList, some "\x7bheader.X-Tenant\x7d-c".toList⟩]

def tenantName : HeaderName := ⟨"x-tenant".toList, by decide⟩

/-- Two tenants, and a cookie. -/
def tenantRequest : Request :=
  ⟨"GET".toList, ⟨none, none, some ['/']⟩,
    [(tenantName, ⟨utf8 ['y'], by decide⟩), (tenantName, ⟨utf8 ['z'], by decide⟩),
      (.cookie, ⟨utf8 "k=1".toList, by decide⟩)]⟩

def tenantUpstream : UpstreamCtx := ⟨"b:80".toList, ['/'], "127.0.0.1".toList⟩

/-- The first value, read back by the third operation. -/
theorem header_last_writer_wins_example :
    ∃ out, applyHeaderUp 8 .empty (fun _ => exampleUuid) tenantUpstream 0 tenantUpdates
        tenantRequest = some out ∧
      Multimap.getAll out.headers tenantName = [⟨utf8 "a-c".toList, by decide⟩] ∧
      Multimap.getAll out.headers .cookie = Multimap.getAll tenantRequest.headers .cookie := by
  have settles : ListSettles 8 .empty (fun _ => exampleUuid) tenantUpstream 0 tenantUpdates
      tenantRequest := by
    intro n directive before present reached valid template given
    rcases n with _ | _ | _ | n
    · obtain rfl := Option.some.inj present
      obtain rfl := Option.some.inj reached
      obtain rfl := Option.some.inj given
      exact Option.isSome_iff_ne_none.mp rfl
    · obtain rfl := Option.some.inj present
      exact absurd rfl valid
    · obtain rfl := Option.some.inj present
      obtain rfl := Option.some.inj reached
      obtain rfl := Option.some.inj given
      exact Option.isSome_iff_ne_none.mp rfl
    · cases present
  obtain ⟨⟨out, after, whole, states, _, last, untouched, _⟩, _⟩ :=
    header_last_writer_wins settles
  have beyond : ∀ n headers, upstreamWrite 8 .empty (fun _ => exampleUuid) tenantUpstream 0
      tenantUpdates (n + 3) headers = none := fun _ _ => rfl
  have third : after 2 = { tenantRequest with
      headers := [(.cookie, ⟨utf8 "k=1".toList, by decide⟩), (tenantName, ⟨utf8 ['a'], by decide⟩)] } :=
    Option.some.inj ((states 2).symm.trans rfl)
  refine ⟨out, whole, ?_, ?_⟩
  · refine last 2 ⟨tenantName, some ⟨utf8 "a-c".toList, by decide⟩⟩ (by rw [third]; rfl) ?_
    intro later after_ other written
    obtain ⟨n, rfl⟩ : ∃ n, later = n + 3 := Nat.exists_eq_add_of_le' after_
    rw [beyond] at written
    cases written
  · refine untouched .cookie fun n w written same => ?_
    obtain ⟨directive, member, named⟩ := upstreamWrite_key written
    have others : ∀ directive ∈ tenantUpdates,
        HeaderName.fromBytes directive.name ≠ some .cookie := by decide
    exact others directive member (same ▸ named)

end TinyProxy
