import TinyProxy.Config.Conservation
import TinyProxy.Config.RoundTrip

/-!
# The timeouts of a `reverse_proxy` block

Of the settings of one name that stand directly in the block the last one counts.
-/

set_option autoImplicit false

namespace TinyProxy

open Rust Http

/-- What a statement directly inside the block makes of the timeout. -/
def setTimeout (name : Str) (before : Option UInt64) : Stmt → Option UInt64
  | .line head args =>
      if head = name then args.head?.bind fun raw => (parseDuration raw).toOption else before
  | .block _ _ _ => before

def blockTimeout (name : Str) (body : List Stmt) : Option UInt64 :=
  body.foldl (setTimeout name) none

section Settings
variable {parser : UriParser} {name : Str} {args : List Str} {line : Nat}

theorem timeoutSetting_ok {seconds : UInt64} (run : timeoutSetting name args line = .ok seconds) :
    (args.head?.bind fun raw => (parseDuration raw).toOption) = some seconds := by
  unfold timeoutSetting at run
  cases given : args.head? with
  | none =>
      rw [given] at run
      cases run
  | some raw =>
      rw [given] at run
      dsimp only [Option.bind_some] at run ⊢
      cases read : parseDuration raw with
      | ok value =>
          rw [read] at run
          exact congrArg some (Except.ok.inj run)
      | error e =>
          rw [read] at run
          cases e <;> cases run

/-- The heading stays, the timeouts are as the line sets them. -/
structure TimeoutsFrom (stmts : List Stmt) (block block' : PendingBlock) : Prop where
  heading : block'.directiveType = block.directiveType ∧ block'.args = block.args
  connect : block.directiveType = "reverse_proxy".toList →
    block'.connectTimeout = stmts.foldl (setTimeout "connect_timeout".toList) block.connectTimeout
  read : block.directiveType = "reverse_proxy".toList →
    block'.readTimeout = stmts.foldl (setTimeout "read_timeout".toList) block.readTimeout

theorem TimeoutsFrom.trans {first rest : List Stmt} {block middle block' : PendingBlock}
    (start : TimeoutsFrom first block middle) (finish : TimeoutsFrom rest middle block') :
    TimeoutsFrom (first ++ rest) block block' where
  heading := ⟨finish.heading.1.trans start.heading.1, finish.heading.2.trans start.heading.2⟩
  connect isProxy := by
    rw [finish.connect (start.heading.1.trans isProxy), start.connect isProxy, List.foldl_append]
  read isProxy := by
    rw [finish.read (start.heading.1.trans isProxy), start.read isProxy, List.foldl_append]

theorem TimeoutsFrom.refl (block : PendingBlock) : TimeoutsFrom [] block block :=
  ⟨⟨rfl, rfl⟩, fun _ => rfl, fun _ => rfl⟩

theorem reverseProxySetting_timeouts {block block' : PendingBlock}
    (run : reverseProxySetting name args line block = .ok block') :
    TimeoutsFrom [.line name args] block block' := by
  have other : ∀ {wanted : Str} {before : Option UInt64}, name ≠ wanted →
      [Stmt.line name args].foldl (setTimeout wanted) before = before :=
    fun differs => if_neg differs
  have set : ∀ {seconds : UInt64} {before : Option UInt64},
      timeoutSetting name args line = .ok seconds →
      some seconds = [Stmt.line name args].foldl (setTimeout name) before :=
    fun given => ((if_pos rfl).trans (timeoutSetting_ok given)).symm
  unfold reverseProxySetting at run
  split at run
  next isConnect =>
    subst isConnect
    obtain ⟨seconds, given, same⟩ := bind_ok run
    obtain rfl := Except.ok.inj same
    exact ⟨⟨rfl, rfl⟩, fun _ => set given, fun _ => (other (by decide)).symm⟩
  next notConnect =>
    split at run
    next isRead =>
      subst isRead
      obtain ⟨seconds, given, same⟩ := bind_ok run
      obtain rfl := Except.ok.inj same
      exact ⟨⟨rfl, rfl⟩, fun _ => (other (by decide)).symm, fun _ => set given⟩
    next notRead =>
      split at run
      next =>
        obtain ⟨_, _, same⟩ := bind_ok run
        obtain rfl := Except.ok.inj same
        exact ⟨⟨rfl, rfl⟩, fun _ => (other notConnect).symm, fun _ => (other notRead).symm⟩
      next => cases run

/-- A line inside a block changes the settings of the innermost block only. -/
theorem simpleLine_timeouts {s s' : ParserState} {block : PendingBlock}
    {blocks : List PendingBlock} (stack : s.blockStack = block :: blocks)
    (run : simpleLine name args line s = .ok s') :
    ∃ block', s'.blockStack = block' :: blocks ∧ TimeoutsFrom [.line name args] block block' := by
  have elsewhere : ∀ {block' : PendingBlock}, block.directiveType ≠ "reverse_proxy".toList →
      block'.directiveType = block.directiveType → block'.args = block.args →
      TimeoutsFrom [.line name args] block block' :=
    fun notProxy sameType sameArgs => ⟨⟨sameType, sameArgs⟩, fun isProxy => absurd isProxy notProxy,
      fun isProxy => absurd isProxy notProxy⟩
  unfold simpleLine at run
  rw [stack] at run
  dsimp only at run
  split at run
  next isAuth =>
    have notProxy : block.directiveType ≠ "reverse_proxy".toList := by
      rw [isAuth]
      decide
    split at run
    next => cases run
    next =>
      obtain ⟨pending, _, same⟩ := bind_ok run
      obtain rfl := Except.ok.inj same
      exact ⟨_, rfl, elsewhere notProxy rfl rfl⟩
  next =>
    split at run
    next =>
      obtain ⟨block', set, same⟩ := bind_ok run
      obtain rfl := Except.ok.inj same
      exact ⟨block', rfl, reverseProxySetting_timeouts set⟩
    next notProxy =>
      obtain ⟨directive, _, pushed⟩ := bind_ok run
      refine ⟨block, ?_, elsewhere notProxy rfl rfl⟩
      unfold pushDirective at pushed
      split at pushed
      next => cases pushed
      next =>
        obtain rfl := Except.ok.inj pushed
        exact stack

end Settings

section Blocks
variable {parser : UriParser}

/-- The body of a block settles the timeouts of this block and of no other. -/
theorem laid_timeouts {raws : List Str} {stmts : List Stmt} (laid : Laid raws stmts) :
    ∀ {line : Nat} {s s' : ParserState} {block : PendingBlock} {blocks : List PendingBlock},
      parseLines parser line raws s = .ok s' → s.currentSiteAddress ≠ none →
      s.directiveStack ≠ [] → s.blockStack = block :: blocks →
      ∃ block', s'.blockStack = block' :: blocks ∧ TimeoutsFrom stmts block block' := by
  induction laid with
  | nil =>
      intro line s s' block blocks run _ _ stack
      obtain rfl := Except.ok.inj run
      exact ⟨block, stack, .refl block⟩
  | skip kind _ ih =>
      intro line s s' block blocks run inSite nonempty stack
      obtain ⟨next, first, later⟩ := bind_ok run
      obtain rfl := parseLine_skip kind first
      exact ih later inSite nonempty stack
  | line kind _ ih =>
      intro line s s' block blocks run inSite nonempty stack
      obtain ⟨next, first, later⟩ := bind_ok run
      have step := parseLine_simple kind first
      obtain ⟨middle, nextStack, set⟩ := simpleLine_timeouts stack step
      obtain ⟨produced, grown⟩ := simpleLine_grows step
      obtain ⟨nextInSite, nextNonempty⟩ := grown.stays inSite nonempty
      obtain ⟨block', finalStack, rest⟩ := ih later nextInSite nextNonempty nextStack
      exact ⟨block', finalStack, set.trans rest⟩
  | @block opening closing head args inner raws body stmts opens closes insideLaid _ insideIh
      restIh =>
      intro line s s' block blocks run inSite nonempty stack
      obtain ⟨number, inside, closed, bodyRun, close, later⟩ := parseLines_block opens closes run
      obtain ⟨openStack, _, openSite, _, _⟩ := openBlock_nested head args inSite
      obtain ⟨_, bodyGrown, _, _⟩ := laid_run insideLaid bodyRun
        (openSite ▸ inSite) (openStack ▸ List.cons_ne_nil _ _)
      obtain ⟨directive, grown, _⟩ := block_grown inSite nonempty bodyGrown close
      obtain ⟨top, outer, shape⟩ := List.exists_cons_of_ne_nil nonempty
      have insideStack := bodyGrown.stack _ _ (shape ▸ openStack)
      obtain ⟨nestedBlock, nestedStack⟩ : ∃ nestedBlock,
          (openBlock (head :: args) s).blockStack = nestedBlock :: block :: blocks := by
        have nested : ¬ (s.directiveStack.length = 1 ∧ s.currentSiteAddress = none) :=
          fun siteLevel => inSite siteLevel.2
        rw [openBlock, if_neg nested, ← stack]
        exact ⟨_, rfl⟩
      obtain ⟨nestedBlock', insideBlocks, _⟩ := insideIh bodyRun (openSite ▸ inSite)
        (openStack ▸ List.cons_ne_nil _ _) nestedStack
      obtain ⟨closedBlock, rest, _, closedStack, _, rfl⟩ := closeBlock_nested close insideStack
      rw [insideBlocks] at closedStack
      obtain ⟨_, rfl⟩ := List.cons.inj closedStack
      obtain ⟨nextInSite, nextNonempty⟩ := grown.stays inSite nonempty
      obtain ⟨block', finalStack, set⟩ := restIh later nextInSite nextNonempty rfl
      exact ⟨block', finalStack, ⟨set.heading, set.connect, set.read⟩⟩

/-- An accepted `reverse_proxy` block becomes a directive with the timeouts of its body. -/
theorem reverseProxy_block_timeouts {opening closing : Str} {args inner : List Str}
    {body : List Stmt} {line : Nat} {s s' : ParserState}
    (opens : lineKind opening = .opener ("reverse_proxy".toList :: args))
    (closes : lineKind closing = .closer) (laid : Laid inner body)
    (inSite : s.currentSiteAddress ≠ none) {top : List Directive} {outer : List (List Directive)}
    (stack : s.directiveStack = top :: outer)
    (run : parseLines parser line (opening :: (inner ++ [closing])) s = .ok s') :
    ∃ headerUp, s'.directiveStack =
      (top ++ [.reverseProxy ((blockArgs args).head?.getD [])
        (blockTimeout "connect_timeout".toList body) (blockTimeout "read_timeout".toList body)
        headerUp]) :: outer := by
  obtain ⟨number, inside, closed, bodyRun, close, later⟩ := parseLines_block opens closes run
  obtain rfl := Except.ok.inj later
  obtain ⟨openStack, _, openSite, _, _⟩ := openBlock_nested "reverse_proxy".toList args inSite
  obtain ⟨_, bodyGrown, _, _⟩ := laid_run laid bodyRun
    (openSite ▸ inSite) (openStack ▸ List.cons_ne_nil _ _)
  rw [stack] at openStack
  have insideStack := bodyGrown.stack _ _ openStack
  obtain ⟨opened, openBlocks, isProxy, sameArgs, noConnect, noRead⟩ : ∃ opened,
      (openBlock ("reverse_proxy".toList :: args) s).blockStack = opened :: s.blockStack ∧
      opened.directiveType = "reverse_proxy".toList ∧ opened.args = blockArgs args ∧
      opened.connectTimeout = none ∧ opened.readTimeout = none := by
    have nested : ¬ (s.directiveStack.length = 1 ∧ s.currentSiteAddress = none) :=
      fun siteLevel => inSite siteLevel.2
    rw [openBlock, if_neg nested]
    exact ⟨_, rfl, rfl, rfl, rfl, rfl⟩
  obtain ⟨block', insideBlocks, set⟩ := laid_timeouts laid bodyRun (openSite ▸ inSite)
    (openStack ▸ List.cons_ne_nil _ _) openBlocks
  obtain ⟨block, blocks, directive, blockStack, completed, rfl⟩ :=
    closeBlock_nested close insideStack
  rw [insideBlocks] at blockStack
  obtain ⟨rfl, rfl⟩ := List.cons.inj blockStack
  have isProxy' := set.heading.1.trans isProxy
  rw [completeBlock_proxy isProxy', set.heading.2, sameArgs, set.connect isProxy,
    set.read isProxy, noConnect, noRead] at completed
  obtain rfl := Except.ok.inj completed
  exact ⟨block'.headerUp, rfl⟩

end Blocks

end TinyProxy
