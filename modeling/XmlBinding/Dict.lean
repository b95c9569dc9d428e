/-!
# Dictionaries

A finite map as the list of its entries. A new key goes to the end and an old one keeps its place,
so the entries stand in the order in which their keys were first written.
-/
namespace XmlBinding

/-- A finite map from `κ` to `α`, its entries in order of first insertion. -/
structure Dict (κ : Type) (α : Type) where
  entries : List (κ × α) := []

namespace Dict

variable {κ α : Type} [DecidableEq κ]

instance : EmptyCollection (Dict κ α) := ⟨⟨[]⟩⟩
instance : Inhabited (Dict κ α) := ⟨∅⟩

/-- The value of the first entry with this key. -/
def lookup (key : κ) : List (κ × α) → Option α
  | [] => none
  | (k, a) :: rest => if k = key then some a else lookup key rest

def get? (d : Dict κ α) (key : κ) : Option α := lookup key d.entries

def contains (d : Dict κ α) (key : κ) : Bool := (d.get? key).isSome

/-- Write `a` at the place of `key`, or at the end. -/
def put (key : κ) (a : α) : List (κ × α) → List (κ × α)
  | [] => [(key, a)]
  | (k, b) :: rest => if k = key then (key, a) :: rest else (k, b) :: put key a rest

def insert (d : Dict κ α) (key : κ) (a : α) : Dict κ α := ⟨put key a d.entries⟩

def erase (d : Dict κ α) (key : κ) : Dict κ α := ⟨d.entries.filter (·.1 ≠ key)⟩

def keys (d : Dict κ α) : List κ := d.entries.map (·.1)

/-- Store every pair of a list, a later one in place of an earlier one with its key. -/
def insertAll (d : Dict κ α) (pairs : List (κ × α)) : Dict κ α :=
  pairs.foldl (fun d p => d.insert p.1 p.2) d

def ofList (pairs : List (κ × α)) : Dict κ α := insertAll ∅ pairs

/-- The entries in the order of their keys. -/
def sorted (d : Dict String α) : List (String × α) :=
  d.entries.mergeSort fun a b => decide (a.1 ≤ b.1)

theorem lookup_put (key other : κ) (a : α) (es : List (κ × α)) :
    lookup other (put key a es) = if other = key then some a else lookup other es := by
  induction es with
  | nil => grind [put, lookup]
  | cons e rest ih => grind [put, lookup]

theorem get?_insert (d : Dict κ α) (key other : κ) (a : α) :
    (d.insert key a).get? other = if other = key then some a else d.get? other :=
  lookup_put key other a d.entries

/-- Of two values written for one key the second counts. -/
theorem put_put (key : κ) (a b : α) (es : List (κ × α)) :
    put key b (put key a es) = put key b es := by
  induction es with
  | nil => grind [put]
  | cons e rest ih => grind [put]

theorem insert_insert (d : Dict κ α) (key : κ) (a b : α) :
    (d.insert key a).insert key b = d.insert key b :=
  congrArg Dict.mk (put_put key a b d.entries)

theorem lookup_append (key : κ) (front back : List (κ × α)) :
    lookup key (front ++ back) = (lookup key front).or (lookup key back) := by
  induction front with
  | nil => rfl
  | cons e rest ih => grind [lookup]

/-- Of several pairs with one key the last counts. -/
theorem get?_insertAll (d : Dict κ α) (pairs : List (κ × α)) (key : κ) :
    (d.insertAll pairs).get? key = (lookup key pairs.reverse).or (d.get? key) := by
  induction pairs generalizing d with
  | nil => rfl
  | cons p rest ih =>
    have hstep : (d.insertAll (p :: rest)).get? key =
        ((d.insert p.1 p.2).insertAll rest).get? key :=
      rfl
    rw [hstep, ih, get?_insert, List.reverse_cons, lookup_append, Option.or_assoc]
    congr 1
    by_cases h : key = p.1
    · subst h
      rw [if_pos rfl, lookup, if_pos rfl]
      rfl
    · rw [if_neg h, lookup, if_neg (Ne.symm h)]
      rfl

theorem mem_keys_insert {d : Dict κ α} {key other : κ} {a : α} :
    other ∈ (d.insert key a).keys ↔ other = key ∨ other ∈ d.keys := by
  obtain ⟨entries⟩ := d
  change other ∈ (put key a entries).map (·.1) ↔ other = key ∨ other ∈ entries.map (·.1)
  induction entries with
  | nil => exact List.mem_singleton.trans (or_iff_left List.not_mem_nil).symm
  | cons e rest ih => grind [put]

/-- The keys are the old ones and those of the pairs. -/
theorem mem_keys_insertAll {d : Dict κ α} {pairs : List (κ × α)} {key : κ} :
    key ∈ (d.insertAll pairs).keys ↔ key ∈ pairs.map (·.1) ∨ key ∈ d.keys := by
  induction pairs generalizing d with
  | nil => exact (or_iff_right List.not_mem_nil).symm
  | cons p rest ih =>
    have hstep : (d.insertAll (p :: rest)).keys = ((d.insert p.1 p.2).insertAll rest).keys := rfl
    rw [hstep, ih, mem_keys_insert, List.map_cons, List.mem_cons, or_left_comm, or_assoc]

theorem lookup_filter_ne (key other : κ) (es : List (κ × α)) :
    lookup other (es.filter (·.1 ≠ key)) = if other = key then none else lookup other es := by
  induction es with
  | nil => grind [lookup]
  | cons e rest ih => grind [lookup]

theorem get?_erase (d : Dict κ α) (key other : κ) :
    (d.erase key).get? other = if other = key then none else d.get? other :=
  lookup_filter_ne key other d.entries

end Dict

end XmlBinding
