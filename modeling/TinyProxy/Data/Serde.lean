import TinyProxy.Rust.Str

/-!
# Reading values out of JSON documents

The readers that a derived deserializer is put together from: scalars, lists,
optional values, the fields of a structure and the variants of an enumeration.
Each comes with what it makes of a document that was written for it.  The error
texts are those of the deserializer, without the position it adds.
-/

set_option autoImplicit false

namespace Serde

open Rust

/-- A JSON document.  A number that is no unsigned 64-bit integer is kept as written. -/
inductive Value where
  | null
  | bool (value : Bool)
  | unsigned (value : UInt64)
  | number (text : Str)
  | string (text : Str)
  | array (items : List Value)
  | object (entries : List (Str × Value))

mutual

/-- How deep arrays and objects are nested. -/
def Value.depth : Value → Nat
  | .array items => depthItems items + 1
  | .object entries => depthEntries entries + 1
  | _ => 0

def depthItems : List Value → Nat
  | [] => 0
  | item :: rest => max item.depth (depthItems rest)

def depthEntries : List (Str × Value) → Nat
  | [] => 0
  | (_, value) :: rest => max value.depth (depthEntries rest)

end

/-! ## Readers -/

def readString : Value → Except Str Str
  | .string text => .ok text
  | _ => .error "invalid type: expected a string".toList

def readU64 : Value → Except Str UInt64
  | .unsigned value => .ok value
  | _ => .error "invalid type: expected u64".toList

def readU16 : Value → Except Str UInt16
  | .unsigned value =>
      if value.toNat < 2 ^ 16 then .ok value.toUInt16
      else .error "invalid value: expected u16".toList
  | _ => .error "invalid type: expected u16".toList

section Readers
variable {β : Type} (read : Value → Except Str β)

def readOption : Value → Except Str (Option β)
  | .null => .ok none
  | value => (read value).map some

def readList : Value → Except Str (List β)
  | .array items => items.mapM read
  | _ => .error "invalid type: expected a sequence".toList

/-- The fields of a structure: the known entries of an object, or the items of an array in
the order of the names, of which the first `required` must be there. -/
def fields (names : List Str) (required : Nat) : Value → Except Str (List (Str × Value))
  | .object entries =>
      let known := entries.filter fun entry => entry.1 ∈ names
      if (known.map Prod.fst).Nodup then .ok known else .error "duplicate field".toList
  | .array items =>
      if required ≤ items.length ∧ items.length ≤ names.length then .ok (names.zip items)
      else .error "invalid length".toList
  | _ => .error "invalid type: expected a struct".toList

def field (name : Str) (entries : List (Str × Value)) : Except Str β :=
  match entries.lookup name with
  | some value => read value
  | none => .error ("missing field `".toList ++ name ++ ['`'])

/-- A field that is taken from `default` when it is not there. -/
def defaultField (default : β) (name : Str) (entries : List (Str × Value)) : Except Str β :=
  match entries.lookup name with
  | some value => read value
  | none => .ok default

/-- A field of an optional type need not be there. -/
def optionField (name : Str) (entries : List (Str × Value)) : Except Str (Option β) :=
  defaultField (readOption read) none name entries

end Readers

/-- A variant with content: an object of one entry. -/
def variant : Value → Except Str (Str × Value)
  | .object [entry] => .ok entry
  | .string _ => .error "invalid type: unit variant".toList
  | _ => .error "invalid type: expected an enum".toList

/-- A variant without content. -/
def unitVariant : Value → Except Str Str
  | .string name => .ok name
  | .object [(name, .null)] => .ok name
  | _ => .error "invalid type: expected a unit variant".toList

/-! ## Writers -/

def writeOption {β : Type} (write : β → Value) : Option β → Value
  | some x => write x
  | none => .null

def writeU16 (n : UInt16) : Value := .unsigned n.toUInt64

def writeVariant (name : Str) (entries : List (Str × Value)) : Value :=
  .object [(name, .object entries)]

/-! ## Reading what was written -/

section Laws
variable {β : Type} {read : Value → Except Str β} {write : β → Value}

theorem readU16_write (n : UInt16) : readU16 (writeU16 n) = .ok n := by
  have small : n.toUInt64.toNat < 2 ^ 16 := by
    rw [UInt16.toNat_toUInt64]
    exact n.toNat_lt
  have back : n.toUInt64.toUInt16 = n := UInt16.toUInt16_toUInt64 n
  rw [writeU16, readU16, if_pos small, back]

theorem readList_write {xs : List β} (reads : ∀ x ∈ xs, read (write x) = .ok x) :
    readList read (.array (xs.map write)) = .ok xs := by
  rw [readList]
  induction xs with
  | nil => rfl
  | cons x rest ih =>
      have later := ih fun y member => reads y (List.mem_cons_of_mem _ member)
      rw [List.map_cons, List.mapM_cons, reads x (List.mem_cons_self ..), later]
      rfl

/-- An object of known fields, each written once. -/
theorem fields_object {names : List Str} {entries : List (Str × Value)} (required : Nat)
    (known : ∀ entry ∈ entries, entry.1 ∈ names) (distinct : (entries.map Prod.fst).Nodup) :
    fields names required (.object entries) = .ok entries := by
  have kept : (entries.filter fun entry => entry.1 ∈ names) = entries :=
    List.filter_eq_self.mpr fun entry member => decide_eq_true (known entry member)
  rw [fields, kept, if_pos distinct]

theorem lookup_eq_some_iff {entries : List (Str × Value)} (distinct : (entries.map Prod.fst).Nodup)
    {name : Str} {value : Value} :
    entries.lookup name = some value ↔ (name, value) ∈ entries := by
  induction entries with
  | nil => simp
  | cons entry rest ih =>
      obtain ⟨first, content⟩ := entry
      obtain ⟨apart, later⟩ := List.nodup_cons.mp distinct
      rw [List.lookup_cons, List.mem_cons, Prod.mk.injEq]
      by_cases same : name = first
      · subst same
        have absent : (name, value) ∉ rest := fun member =>
          apart (List.mem_map.mpr ⟨_, member, rfl⟩)
        simp [absent, eq_comm]
      · have other : (name == first) = false := beq_false_of_ne same
        simp [other, same, ih later]

/-- The order of the fields does not matter. -/
theorem lookup_perm {entries other : List (Str × Value)} (same : entries.Perm other)
    (distinct : (other.map Prod.fst).Nodup) (name : Str) :
    entries.lookup name = other.lookup name := by
  have distinctToo : (entries.map Prod.fst).Nodup := (same.map Prod.fst).nodup_iff.mpr distinct
  refine Option.ext fun value => ?_
  rw [lookup_eq_some_iff distinctToo, lookup_eq_some_iff distinct, same.mem_iff]

end Laws

/-! ## What a reader has read -/

section Read
variable {β : Type} {read : Value → Except Str β}

theorem field_ok {name : Str} {entries : List (Str × Value)} {x : β}
    (found : field read name entries = .ok x) : ∃ value, read value = .ok x := by
  unfold field at found
  split at found
  next value _ => exact ⟨value, found⟩
  next => cases found

/-- Every item of a list that was read has a document of its own. -/
theorem readList_ok {value : Value} {xs : List β} (found : readList read value = .ok xs) :
    ∀ x ∈ xs, ∃ item, read item = .ok x := by
  unfold readList at found
  split at found
  next items =>
    induction items generalizing xs with
    | nil =>
        cases found
        simp
    | cons item rest ih =>
        rw [List.mapM_cons] at found
        obtain ⟨first, isFirst, later⟩ := bind_ok found
        obtain ⟨others, areOthers, same⟩ := bind_ok later
        cases same
        exact List.forall_mem_cons.mpr ⟨⟨item, isFirst⟩, ih areOthers⟩
  next => cases found

end Read

/-! ## Depth -/

theorem depth_le_items {items : List Value} {item : Value} (member : item ∈ items) :
    item.depth ≤ depthItems items := by
  induction items with
  | nil => cases member
  | cons first rest ih =>
      rw [depthItems]
      rcases List.mem_cons.mp member with rfl | later
      · omega
      · have deeper := ih later
        omega

end Serde
