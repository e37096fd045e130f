import Mathlib

/-!
# Multimaps

A key may have several values, kept in order of arrival.  `insert` leaves one
value, `append` adds one, `remove` leaves none.  The order of entries under
different keys carries no meaning: every fact below is about the values of one
key, and a loop of updates is described by what it does to each key.
-/

set_option autoImplicit false

abbrev Multimap (κ ν : Type) := List (κ × ν)

namespace Multimap

variable {κ ν : Type} [DecidableEq κ]

def empty : Multimap κ ν := []

def getAll (m : Multimap κ ν) (key : κ) : List ν :=
  (m.filter fun entry => entry.1 = key).map Prod.snd

/-- The first value. -/
def get (m : Multimap κ ν) (key : κ) : Option ν := (getAll m key).head?

def remove (m : Multimap κ ν) (key : κ) : Multimap κ ν := m.filter fun entry => entry.1 ≠ key

def append (m : Multimap κ ν) (key : κ) (value : ν) : Multimap κ ν := m ++ [(key, value)]

def insert (m : Multimap κ ν) (key : κ) (value : ν) : Multimap κ ν :=
  append (remove m key) key value

/-! ## One update -/

section Updates
variable (m : Multimap κ ν) (key : κ) (value : ν)

@[simp] theorem getAll_union (other : Multimap κ ν) :
    getAll (m ++ other) key = getAll m key ++ getAll other key := by
  simp [getAll]

@[simp] theorem getAll_append (other : κ) :
    getAll (append m key value) other =
      getAll m other ++ (if key = other then [value] else []) := by
  by_cases same : key = other
  · simp [append, getAll, same]
  · simp [append, getAll, same]

@[simp] theorem getAll_remove (other : κ) :
    getAll (remove m key) other = if key = other then [] else getAll m other := by
  by_cases same : key = other
  · subst same
    simp [remove, getAll, List.filter_filter]
  · have keep : ∀ entry ∈ m, (decide (entry.1 = other) && decide (entry.1 ≠ key)) =
        decide (entry.1 = other) := by
      intro entry _
      by_cases here : entry.1 = other
      · simp [here, Ne.symm same]
      · simp [here]
    rw [remove, getAll, List.filter_filter, List.filter_congr keep, if_neg same, getAll]

@[simp] theorem getAll_insert (other : κ) :
    getAll (insert m key value) other = if key = other then [value] else getAll m other := by
  by_cases same : key = other
  · simp [insert, same]
  · simp [insert, same]

@[simp] theorem get_insert (other : κ) :
    get (insert m key value) other = if key = other then some value else get m other := by
  by_cases same : key = other
  · simp [get, same]
  · simp [get, same]

end Updates

/-! ## Loops of updates -/

def removeAll (keys : List κ) (m : Multimap κ ν) : Multimap κ ν := keys.foldl remove m

def insertAll (entries m : Multimap κ ν) : Multimap κ ν :=
  entries.foldl (fun m entry => insert m entry.1 entry.2) m

/-- For every listed key, insert the first value that `source` has for it. -/
def copyFirst (source : Multimap κ ν) (keys : List κ) (m : Multimap κ ν) : Multimap κ ν :=
  keys.foldl
    (fun m key =>
      match get source key with
      | some value => insert m key value
      | none => m) m

theorem getAll_removeAll (keys : List κ) (key : κ) : ∀ m : Multimap κ ν,
    getAll (removeAll keys m) key = if key ∈ keys then [] else getAll m key := by
  induction keys with
  | nil => intro m; simp [removeAll]
  | cons head rest ih =>
      intro m
      have next := ih (remove m head)
      rw [removeAll, List.foldl_cons, ← removeAll, next, getAll_remove]
      by_cases later : key ∈ rest
      · simp [later]
      · by_cases here : head = key
        · simp [here]
        · simp [later, here, Ne.symm here]

/-- The last entry under a key wins. -/
theorem getAll_insertAll (entries : Multimap κ ν) (key : κ) : ∀ m : Multimap κ ν,
    getAll (insertAll entries m) key =
      match (getAll entries key).getLast? with
      | some value => [value]
      | none => getAll m key := by
  induction entries with
  | nil => intro m; simp [insertAll, getAll]
  | cons head rest ih =>
      intro m
      have next := ih (insert m head.1 head.2)
      rw [insertAll, List.foldl_cons, ← insertAll, next, getAll_insert]
      by_cases here : head.1 = key
      · have shape : getAll (head :: rest) key = head.2 :: getAll rest key := by
          simp [getAll, here]
        rw [shape, if_pos here, List.getLast?_cons]
        cases later : (getAll rest key).getLast? with
        | none => simp
        | some value => simp
      · have shape : getAll (head :: rest) key = getAll rest key := by simp [getAll, here]
        rw [shape, if_neg here]

theorem getAll_copyFirst (source : Multimap κ ν) (keys : List κ) (key : κ) :
    ∀ m : Multimap κ ν, getAll (copyFirst source keys m) key =
      match (if key ∈ keys then get source key else none) with
      | some value => [value]
      | none => getAll m key := by
  induction keys with
  | nil => intro m; simp [copyFirst]
  | cons head rest ih =>
      intro m
      rw [copyFirst, List.foldl_cons, ← copyFirst, ih]
      by_cases here : head = key
      · subst here
        cases found : get source head with
        | none => simp
        | some value =>
            by_cases later : head ∈ rest
            · simp [later]
            · simp [later]
      · have other : key ≠ head := Ne.symm here
        cases found : get source head with
        | none => simp [other]
        | some value => simp [other, here]

/-! ## Maps with the same values -/

/-- The same values under every key, in the same order. -/
def Same (m other : Multimap κ ν) : Prop := ∀ key, getAll m key = getAll other key

section Same
variable {m other : Multimap κ ν}

theorem Same.get (same : Same m other) (key : κ) : Multimap.get m key = Multimap.get other key := by
  rw [Multimap.get, Multimap.get, same key]

theorem Same.remove (same : Same m other) (key : κ) :
    Same (Multimap.remove m key) (Multimap.remove other key) := by
  intro asked
  rw [getAll_remove, getAll_remove, same asked]

theorem Same.insert (same : Same m other) (key : κ) (value : ν) :
    Same (Multimap.insert m key value) (Multimap.insert other key value) := by
  intro asked
  rw [getAll_insert, getAll_insert, same asked]

theorem Same.insertAll (same : Same m other) (entries : Multimap κ ν) :
    Same (Multimap.insertAll entries m) (Multimap.insertAll entries other) := by
  intro asked
  rw [getAll_insertAll, getAll_insertAll, same asked]

/-- Removing the keys on which two maps differ makes them the same. -/
theorem same_removeAll {keys : List κ}
    (outside : ∀ key, key ∉ keys → getAll m key = getAll other key) :
    Same (removeAll keys m) (removeAll keys other) := by
  intro asked
  rw [getAll_removeAll, getAll_removeAll]
  by_cases listed : asked ∈ keys
  · rw [if_pos listed, if_pos listed]
  · rw [if_neg listed, if_neg listed, outside asked listed]

theorem Same.copyFirst (same : Same m other) (keys : List κ) (target : Multimap κ ν) :
    Multimap.copyFirst m keys target = Multimap.copyFirst other keys target := by
  unfold Multimap.copyFirst
  simp only [same.get]

end Same

end Multimap
