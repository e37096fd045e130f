import Mathlib.Data.List.Nodup
import Mathlib.Data.List.Sublists

/-!
# Linearizable histories

Calls of concurrent clients on one object.  A trace records when a call is made,
when it takes effect and when it is answered; the clients see only the first and
the last.  The order of the effects is the order of a single client.
-/

set_option autoImplicit false

namespace Linearization

/-- What happens to the call with this identifier. -/
inductive Label (Call Answer : Type) where
  | invoke (id : Nat) (call : Call)
  | effect (id : Nat) (call : Call) (answer : Answer)
  | respond (id : Nat) (answer : Answer)

structure Entry (Call Answer : Type) where
  id : Nat
  call : Call
  answer : Answer

section Traces
variable {State Call Answer : Type}

def Label.entry : Label Call Answer → Option (Entry Call Answer)
  | .effect id call answer => some ⟨id, call, answer⟩
  | _ => none

/-- The calls that have taken effect, in this order. -/
def effects (trace : List (Label Call Answer)) : List (Entry Call Answer) :=
  trace.filterMap Label.entry

/-- What the clients see. -/
def history (trace : List (Label Call Answer)) : List (Label Call Answer) :=
  trace.filter fun label => label.entry.isNone

/-! ## Sequential clients -/

section Sequential
variable (apply : Call → State → Answer × State)

/-- The state after the calls. -/
def final : State → List (Entry Call Answer) → State
  | s, [] => s
  | s, entry :: rest => final (apply entry.call s).2 rest

/-- The answers that a client gets which makes the calls one after the other. -/
def Sequential : State → List (Entry Call Answer) → Prop
  | _, [] => True
  | s, entry :: rest =>
      entry.answer = (apply entry.call s).1 ∧ Sequential (apply entry.call s).2 rest

variable {apply}

theorem final_append (first second : List (Entry Call Answer)) : ∀ s : State,
    final apply s (first ++ second) = final apply (final apply s first) second := by
  induction first with
  | nil => exact fun _ => rfl
  | cons entry rest ih => exact fun s => ih _

theorem sequential_append (first second : List (Entry Call Answer)) : ∀ s : State,
    Sequential apply s (first ++ second) ↔
      Sequential apply s first ∧ Sequential apply (final apply s first) second := by
  induction first with
  | nil => exact fun s => by simp [Sequential, final]
  | cons entry rest ih =>
      intro s
      simp only [List.cons_append, Sequential, final, ih, and_assoc]

/-- Calls that only look leave the state as it is. -/
theorem final_of_kept {s : State} {entries : List (Entry Call Answer)}
    (kept : ∀ entry ∈ entries, ∀ s, (apply entry.call s).2 = s) : final apply s entries = s := by
  induction entries with
  | nil => rfl
  | cons entry rest ih =>
      rw [final, kept entry (List.mem_cons_self ..)]
      exact ih fun other member => kept other (List.mem_cons_of_mem _ member)

/-- What every call keeps holds at the end, and of the state that each call has found. -/
theorem Sequential.invariant {invariant : State → Prop} {entries : List (Entry Call Answer)} :
    ∀ {s : State}, invariant s →
      (∀ entry ∈ entries, ∀ s, invariant s → invariant (apply entry.call s).2) →
      Sequential apply s entries →
      invariant (final apply s entries) ∧
        ∀ entry ∈ entries, ∃ found, invariant found ∧
          entry.answer = (apply entry.call found).1 := by
  induction entries with
  | nil => exact fun holds _ _ => ⟨holds, fun _ member => absurd member List.not_mem_nil⟩
  | cons entry rest ih =>
      intro s holds kept sequential
      obtain ⟨keepsFirst, keepsLater⟩ := List.forall_mem_cons.mp kept
      obtain ⟨later, found⟩ := ih (keepsFirst s holds) keepsLater sequential.2
      exact ⟨later, List.forall_mem_cons.mpr ⟨⟨s, holds, sequential.1⟩, found⟩⟩

end Sequential

/-! ## Linearizations -/

/-- One order of the calls that explains the history: its answers are those of a single
client, every call is in it at most once and every answered call is, and a call that was
answered before another was made comes before it. -/
structure Linearizes (apply : Call → State → Answer × State) (start : State)
    (seen : List (Label Call Answer)) (order : List (Entry Call Answer)) : Prop where
  sequential : Sequential apply start order
  once : (order.map Entry.id).Nodup
  invoked : ∀ entry ∈ order, .invoke entry.id entry.call ∈ seen
  answered : ∀ id answer, .respond id answer ∈ seen → ∃ call, ⟨id, call, answer⟩ ∈ order
  realTime : ∀ id answer id' call, [.respond id answer, .invoke id' call].Sublist seen →
    ∀ entry ∈ order, ∀ entry' ∈ order, entry.id = id → entry'.id = id' →
      [entry, entry'].Sublist order

/-- A trace in which each call is made, then takes effect, then is answered, each at most
once. -/
inductive WellFormed : List (Label Call Answer) → Prop where
  | nil : WellFormed []
  | invoke {trace : List (Label Call Answer)} (id : Nat) (call : Call)
      (before : WellFormed trace) (fresh : ∀ call', .invoke id call' ∉ trace) :
      WellFormed (trace ++ [.invoke id call])
  | effect {trace : List (Label Call Answer)} (id : Nat) (call : Call) (answer : Answer)
      (before : WellFormed trace) (made : .invoke id call ∈ trace)
      (fresh : ∀ entry ∈ effects trace, entry.id ≠ id) :
      WellFormed (trace ++ [.effect id call answer])
  | respond {trace : List (Label Call Answer)} (id : Nat) (call : Call) (answer : Answer)
      (before : WellFormed trace) (done : ⟨id, call, answer⟩ ∈ effects trace)
      (fresh : ∀ answer', .respond id answer' ∉ trace) :
      WellFormed (trace ++ [.respond id answer])

@[simp] theorem effects_append (first second : List (Label Call Answer)) :
    effects (first ++ second) = effects first ++ effects second := List.filterMap_append

@[simp] theorem history_append (first second : List (Label Call Answer)) :
    history (first ++ second) = history first ++ history second := List.filter_append ..

@[simp] theorem effects_invoke (id : Nat) (call : Call) :
    effects [(.invoke id call : Label Call Answer)] = [] := rfl

@[simp] theorem effects_effect (id : Nat) (call : Call) (answer : Answer) :
    effects [.effect id call answer] = [⟨id, call, answer⟩] := rfl

@[simp] theorem effects_respond (id : Nat) (answer : Answer) :
    effects [(.respond id answer : Label Call Answer)] = [] := rfl

@[simp] theorem history_invoke (id : Nat) (call : Call) :
    history [(.invoke id call : Label Call Answer)] = [.invoke id call] := rfl

@[simp] theorem history_effect (id : Nat) (call : Call) (answer : Answer) :
    history [.effect id call answer] = [] := rfl

@[simp] theorem history_respond (id : Nat) (answer : Answer) :
    history [(.respond id answer : Label Call Answer)] = [.respond id answer] := rfl

@[simp] theorem mem_history_invoke {trace : List (Label Call Answer)} {id : Nat} {call : Call} :
    .invoke id call ∈ history trace ↔ .invoke id call ∈ trace := by
  simp [history, Label.entry]

@[simp] theorem mem_history_respond {trace : List (Label Call Answer)} {id : Nat}
    {answer : Answer} : .respond id answer ∈ history trace ↔ .respond id answer ∈ trace := by
  simp [history, Label.entry]

/-- A pair in a list that grew by one element was there before, or ends with it. -/
theorem pair_sublist_snoc {α : Type} {a b last : α} {xs : List α} :
    [a, b].Sublist (xs ++ [last]) ↔ [a, b].Sublist xs ∨ a ∈ xs ∧ b = last := by
  rw [← List.reverse_sublist]
  simp only [List.reverse_append, List.reverse_cons, List.reverse_nil, List.nil_append,
    List.cons_append, List.sublist_cons_iff, List.cons.injEq]
  rw [← @List.reverse_sublist _ [a, b]]
  simp [List.singleton_sublist, and_comm]

section WellFormed
variable {trace : List (Label Call Answer)}

theorem WellFormed.invoked (wf : WellFormed trace) :
    ∀ entry ∈ effects trace, .invoke entry.id entry.call ∈ trace := by
  induction wf with
  | nil => simp [effects]
  | invoke id call _ _ ih =>
      intro entry member
      simp only [effects_append, effects_invoke, List.append_nil] at member
      exact List.mem_append_left _ (ih entry member)
  | effect id call answer _ made _ ih =>
      intro entry member
      simp only [effects_append, effects_effect, List.mem_append, List.mem_singleton] at member
      rcases member with before | rfl
      · exact List.mem_append_left _ (ih entry before)
      · exact List.mem_append_left _ made
  | respond id call answer _ _ _ ih =>
      intro entry member
      simp only [effects_append, effects_respond, List.append_nil] at member
      exact List.mem_append_left _ (ih entry member)

theorem WellFormed.once (wf : WellFormed trace) : ((effects trace).map Entry.id).Nodup := by
  induction wf with
  | nil => simp [effects]
  | invoke id call _ _ ih => simpa using ih
  | effect id call answer _ _ fresh ih =>
      simp only [effects_append, effects_effect, List.map_append, List.map_cons, List.map_nil]
      refine List.Nodup.append ih (List.nodup_singleton _) ?_
      simpa [List.disjoint_singleton] using fresh
  | respond id call answer _ _ _ ih => simpa using ih

theorem WellFormed.answered (wf : WellFormed trace) {id : Nat} {answer : Answer}
    (seen : .respond id answer ∈ trace) : ∃ call, ⟨id, call, answer⟩ ∈ effects trace := by
  induction wf with
  | nil => simp at seen
  | invoke id call _ _ ih => simpa using ih (by simpa using seen)
  | effect id call answer _ _ _ ih =>
      obtain ⟨call', member⟩ := ih (by simpa using seen)
      exact ⟨call', by simp [member]⟩
  | respond id' call answer' _ done _ ih =>
      simp only [List.mem_append, List.mem_singleton, Label.respond.injEq] at seen
      rcases seen with before | ⟨rfl, rfl⟩
      · simpa using ih before
      · exact ⟨call, by simpa using done⟩

/-- A call that was answered before another was made has taken effect before it. -/
theorem WellFormed.realTime (wf : WellFormed trace) {id id' : Nat} {answer : Answer}
    {call : Call} (earlier : [.respond id answer, .invoke id' call].Sublist (history trace)) :
    ∀ entry ∈ effects trace, ∀ entry' ∈ effects trace, entry.id = id → entry'.id = id' →
      [entry, entry'].Sublist (effects trace) := by
  induction wf with
  | nil => simp [effects]
  | invoke last lastCall before fresh ih =>
      intro entry member entry' member' same same'
      simp only [effects_append, effects_invoke, List.append_nil] at member member' ⊢
      simp only [history_append, history_invoke, pair_sublist_snoc, Label.invoke.injEq] at earlier
      rcases earlier with earlier | ⟨_, rfl, rfl⟩
      · exact ih earlier entry member entry' member' same same'
      · -- a call that is made only now has not taken effect
        subst same'
        exact absurd (before.invoked entry' member') (fresh _)
  | @effect trace last lastCall lastAnswer before made fresh ih =>
      intro entry member entry' member' same same'
      simp only [history_append, history_effect, List.append_nil] at earlier
      have answered : ∃ call, ⟨id, call, answer⟩ ∈ effects trace := by
        apply before.answered
        exact mem_history_respond.mp (earlier.subset (List.mem_cons_self ..))
      obtain ⟨_, done⟩ := answered
      have notLast : id ≠ last := fresh _ done
      simp only [effects_append, effects_effect, List.mem_append, List.mem_singleton]
        at member member'
      rw [effects_append, effects_effect, pair_sublist_snoc]
      rcases member with member | rfl
      · rcases member' with member' | rfl
        · exact Or.inl (ih earlier entry member entry' member' same same')
        · exact Or.inr ⟨member, rfl⟩
      · exact absurd same.symm notLast
  | respond last lastCall lastAnswer _ _ _ ih =>
      intro entry member entry' member' same same'
      simp only [effects_append, effects_respond, List.append_nil] at member member' ⊢
      simp only [history_append, history_respond, pair_sublist_snoc, reduceCtorEq, and_false,
        or_false] at earlier
      exact ih earlier entry member entry' member' same same'

/-- The order of the effects explains what the clients see. -/
theorem WellFormed.linearizes (wf : WellFormed trace)
    {apply : Call → State → Answer × State} {start : State}
    (sequential : Sequential apply start (effects trace)) :
    Linearizes apply start (history trace) (effects trace) where
  sequential := sequential
  once := wf.once
  invoked entry member := mem_history_invoke.mpr (wf.invoked entry member)
  answered _ _ seen := wf.answered (mem_history_respond.mp seen)
  realTime _ _ _ _ earlier := wf.realTime earlier

/-! ## The last write -/

theorem WellFormed.call_unique (wf : WellFormed trace) {id : Nat} {call call' : Call}
    (made : .invoke id call ∈ trace) (made' : .invoke id call' ∈ trace) : call = call' := by
  induction wf with
  | nil => simp at made
  | invoke last lastCall _ fresh ih =>
      simp only [List.mem_append, List.mem_singleton, Label.invoke.injEq] at made made'
      rcases made with made | ⟨rfl, rfl⟩
      · rcases made' with made' | ⟨rfl, rfl⟩
        · exact ih made made'
        · exact absurd made (fresh _)
      · rcases made' with made' | ⟨_, rfl⟩
        · exact absurd made' (fresh _)
        · rfl
  | effect _ _ _ _ _ _ ih => exact ih (by simpa using made) (by simpa using made')
  | respond _ _ _ _ _ _ ih => exact ih (by simpa using made) (by simpa using made')

/-- Without duplicates no two elements are in both orders. -/
theorem pair_antisymm {α : Type} {a b : α} {xs : List α} (nodup : xs.Nodup)
    (forth : [a, b].Sublist xs) : ¬ [b, a].Sublist xs := by
  induction xs with
  | nil => simp at forth
  | cons x rest ih =>
      obtain ⟨notIn, nodup⟩ := List.nodup_cons.mp nodup
      intro back
      simp only [List.sublist_cons_iff, List.cons.injEq] at forth back
      rcases forth with forth | ⟨_, ⟨rfl, rfl⟩, later⟩
      · rcases back with back | ⟨_, ⟨rfl, rfl⟩, _⟩
        · exact ih nodup forth back
        · exact notIn (forth.subset (by simp))
      · rcases back with back | ⟨_, ⟨rfl, rfl⟩, _⟩
        · exact notIn (back.subset (by simp))
        · exact notIn (later.subset (by simp))

theorem pair_sublist_split {α : Type} {a b : α} {xs : List α} (pair : [a, b].Sublist xs) :
    ∃ before between after, xs = before ++ a :: (between ++ b :: after) := by
  obtain ⟨front, back, rfl, inFront, inBack⟩ := List.cons_sublist_iff.mp pair
  obtain ⟨before, first, rfl⟩ := List.append_of_mem inFront
  obtain ⟨second, after, rfl⟩ := List.append_of_mem (List.singleton_sublist.mp inBack)
  exact ⟨before, first ++ second, after, by simp⟩

/-- A call made after a write was answered finds what it has written, if every other call
that changes the state was answered before the write was made. -/
theorem WellFormed.answer_of_last_write (wf : WellFormed trace)
    {apply : Call → State → Answer × State} {start value : State}
    (sequential : Sequential apply start (effects trace)) {written id : Nat} {write call : Call}
    {ack answer : Answer} (sets : ∀ s, (apply write s).2 = value)
    (isWrite : .invoke written write ∈ trace)
    (earlier : [.respond written ack, .invoke id call].Sublist (history trace))
    (seen : .respond id answer ∈ trace)
    (last : ∀ other otherCall, .invoke other otherCall ∈ trace → other ≠ written → other ≠ id →
      (∀ s, (apply otherCall s).2 = s) ∨
        ∃ answer', [.respond other answer', .invoke written write].Sublist (history trace)) :
    answer = (apply call value).1 := by
  obtain ⟨write', wrote⟩ := wf.answered
    (mem_history_respond.mp (earlier.subset (List.mem_cons_self ..)))
  obtain rfl := wf.call_unique isWrite (wf.invoked _ wrote)
  obtain ⟨call', done⟩ := wf.answered seen
  have made : .invoke id call ∈ trace := mem_history_invoke.mp (earlier.subset (by simp))
  obtain rfl := wf.call_unique made (wf.invoked _ done)
  have nodup := wf.once.of_map
  obtain ⟨before, between, after, shape⟩ :=
    pair_sublist_split (wf.realTime earlier _ wrote _ done rfl rfl)
  -- between the write and the call there are calls that only look
  have kept : ∀ entry ∈ between, ∀ s, (apply entry.call s).2 = s := by
    intro entry member
    have inOrder : entry ∈ effects trace := by
      rw [shape]
      exact List.mem_append_right _ (List.mem_cons_of_mem _ (List.mem_append_left _ member))
    have afterWrite : [⟨written, write, ack⟩, entry].Sublist (effects trace) := by
      rw [shape, List.cons_sublist_iff]
      refine ⟨before ++ [⟨written, write, ack⟩], between ++ ⟨id, call, answer⟩ :: after,
        by simp, by simp, List.singleton_sublist.mpr (List.mem_append_left _ member)⟩
    have ids := wf.once
    rw [shape, List.map_append, List.map_cons, List.map_append, List.map_cons] at ids
    have inIds : entry.id ∈ between.map Entry.id := List.mem_map_of_mem member
    have others : entry.id ≠ written ∧ entry.id ≠ id := by grind
    rcases last entry.id entry.call (wf.invoked entry inOrder) others.1 others.2 with
      kept | ⟨answer', answered⟩
    · exact kept
    · exact absurd (wf.realTime answered _ inOrder _ wrote rfl rfl)
        (pair_antisymm nodup afterWrite)
  rw [shape, sequential_append, Sequential, sequential_append, Sequential] at sequential
  obtain ⟨_, _, _, same, _⟩ := sequential
  rw [final_of_kept kept, sets] at same
  exact same

end WellFormed

end Traces

end Linearization
