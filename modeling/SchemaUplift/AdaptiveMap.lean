import Std.Data.HashMap

/-! Small sets of keys with values that remember the order of arrival: scanned one by one while
they are short, indexed by hash once they grow. -/

namespace SchemaUplift

/-- Keys with values, in the order in which the keys arrived. -/
inductive AdaptiveMap (α : Type) where
  /-- A short list, searched from the front. -/
  | inline (entries : List (String × α))
  /-- Entries with an index from each key to its position. -/
  | hashed (entries : Array (String × α)) (index : Std.HashMap String Nat)

namespace AdaptiveMap

variable {α : Type}

/-- The most entries that are kept without an index. -/
def inlineLimit : Nat := 20

/-- The empty set, made for about the given number of entries. -/
def withCapacity (capacity : Nat) : AdaptiveMap α :=
  if capacity ≤ inlineLimit then .inline [] else .hashed #[] ∅

/-- The entries in the order in which their keys arrived. -/
def toList : AdaptiveMap α → List (String × α)
  | .inline entries => entries
  | .hashed entries _ => entries.toList

/-- The number of entries. -/
def size : AdaptiveMap α → Nat
  | .inline entries => entries.length
  | .hashed entries _ => entries.size

/-- Whether there is no entry. -/
def isEmpty (set : AdaptiveMap α) : Bool := set.size == 0

/-- Whether the set has no index yet. -/
def isInline : AdaptiveMap α → Bool
  | .inline _ => true
  | .hashed .. => false

/-- The value of a key. -/
def get? : AdaptiveMap α → String → Option α
  | .inline entries, key => entries.lookup key
  | .hashed entries index, key => do
    let position ← index[key]?
    let entry ← entries[position]?
    return entry.2

/-- Whether a key has a value. -/
def contains (set : AdaptiveMap α) (key : String) : Bool := (set.get? key).isSome

/-- Sets a key among indexed entries: in its place if it has one, else at the end. -/
def setHashed (entries : Array (String × α)) (index : Std.HashMap String Nat) (key : String)
    (value : α) : AdaptiveMap α :=
  match index[key]? with
  | some position => .hashed (entries.setIfInBounds position (key, value)) index
  | none => .hashed (entries.push (key, value)) (index.insert key entries.size)

/-- The index of entries: each key with its position. -/
def indexOf (entries : List (String × α)) : Std.HashMap String Nat :=
  entries.zipIdx.foldl (fun index entry => index.insert entry.1.1 entry.2) ∅

/-- Sets a key: in its place if it has one, else at the end. A list that has no room for a further
key gets its index first. -/
def set : AdaptiveMap α → String → α → AdaptiveMap α
  | .inline entries, key, value =>
    match entries.findIdx? (·.1 == key) with
    | some position => .inline (entries.set position (key, value))
    | none =>
      if entries.length < inlineLimit then .inline (entries ++ [(key, value)])
      else setHashed entries.toArray (indexOf entries) key value
  | .hashed entries index, key, value => setHashed entries index key value

/-- Writes the entries over the first slots of a list; the slots beyond them stay as they are, and
entries without a slot are left out. -/
def copyTo (set : AdaptiveMap α) (slots : List (String × α)) : List (String × α) :=
  set.toList.take slots.length ++ slots.drop set.size

end AdaptiveMap

end SchemaUplift
