/-!
# Maps from texts, in order

A `KeyMap` holds its entries in increasing order of their keys, so a listing needs no sorting.
`get?_insert_self`, `get?_insert_of_ne` and `get?_erase` say what the operations do to look-ups.
-/

namespace BroadcastRelay

/-- A map from texts, with its entries in increasing order. -/
structure KeyMap (α : Type) where
  /-- The entries. -/
  entries : List (String × α)
deriving Repr

namespace KeyMap

variable {α : Type}

/-- The map without entries. -/
def empty : KeyMap α := ⟨[]⟩

/-- The value of a key in a list of entries. -/
def find (key : String) : List (String × α) → Option α
  | [] => none
  | (k, a) :: es => if key = k then some a else find key es

/-- Puts an entry where it belongs, in place of one of the same key. -/
def put (key : String) (a : α) : List (String × α) → List (String × α)
  | [] => [(key, a)]
  | (k, b) :: es =>
    if key < k then (key, a) :: (k, b) :: es
    else if key = k then (key, a) :: es
    else (k, b) :: put key a es

/-- The value of a key. -/
def get? (m : KeyMap α) (key : String) : Option α := find key m.entries

/-- Whether the key has a value. -/
def contains (m : KeyMap α) (key : String) : Bool := (m.get? key).isSome

/-- The map with a value for a key. -/
def insert (m : KeyMap α) (key : String) (a : α) : KeyMap α := ⟨put key a m.entries⟩

/-- The map without a key. -/
def erase (m : KeyMap α) (key : String) : KeyMap α := ⟨m.entries.filter (·.1 ≠ key)⟩

/-- The values, in the order of their keys. -/
def values (m : KeyMap α) : List α := m.entries.map (·.2)

@[simp] theorem get?_empty (key : String) : (empty : KeyMap α).get? key = none := rfl

theorem find_put_self (key : String) (a : α) (es : List (String × α)) :
    find key (put key a es) = some a := by
  induction es with
  | nil => simp [put, find]
  | cons e es ih =>
    obtain ⟨k, b⟩ := e
    unfold put
    split
    · simp [find]
    · split
      · simp [find]
      · rename_i hne
        simp [find, hne, ih]

theorem find_put_of_ne {key other : String} (h : other ≠ key) (a : α) (es : List (String × α)) :
    find other (put key a es) = find other es := by
  induction es with
  | nil => simp [put, find, h]
  | cons e es ih =>
    obtain ⟨k, b⟩ := e
    unfold put
    split
    · simp [find, h]
    · split
      · rename_i heq
        simp [find, h, ← heq]
      · simp [find, ih]

@[simp] theorem get?_insert_self (m : KeyMap α) (key : String) (a : α) :
    (m.insert key a).get? key = some a := find_put_self key a m.entries

theorem get?_insert_of_ne (m : KeyMap α) {key other : String} (h : other ≠ key) (a : α) :
    (m.insert key a).get? other = m.get? other := find_put_of_ne h a m.entries

theorem get?_erase (m : KeyMap α) (key other : String) :
    (m.erase key).get? other = if other = key then none else m.get? other := by
  unfold erase get?
  induction m.entries with
  | nil => simp [find]
  | cons e es ih =>
    obtain ⟨k, b⟩ := e
    by_cases hk : k = key
    · by_cases ho : other = key <;> simp_all [find]
    · by_cases ho : other = k <;> simp_all [find]

end KeyMap

end BroadcastRelay
