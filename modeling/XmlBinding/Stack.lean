import XmlBinding.Dict

/-!
# Stacks

A stack is the list of its items, the top first: index 0 is the top and the last item is the one
pushed first. Who asks for an item counts levels from the top in machine words, and it is looked up
by its index from the bottom; on the way one is added to the number of levels, and the sum may be
too great for a word. Named stacks are created by their first push, and taking from an empty one is
an error that carries the name.
-/
namespace XmlBinding

/-- The greatest number that a machine word holds. -/
def Word.last : Nat := 18446744073709551615

/-- Two numbers whose sum does not fit into a machine word. -/
structure Overflow where
  left : Nat
  right : Nat
  deriving DecidableEq

/-- Items from top to bottom. -/
abbrev Stack (α : Type) := List α

namespace Stack

variable {α β : Type}

/-- The item `n` levels below the top. -/
def below? (s : Stack α) (n : Nat) : Option α := s[n]?

/-- The first item pushed. -/
def bottom? (s : Stack α) : Option α := s.getLast?

/-- Put `a` in the place `n` levels below the top, if there is one. -/
def replace (s : Stack α) (n : Nat) (a : α) : Stack α := s.set n a

/-! ### Looking up -/

/-- The greatest number to which one can count on a stack. Machine words count the items of every
stack. -/
def limit (s : Stack α) : Nat := max Word.last s.length

/-- The number of items from the top down to the one `n` levels below it. -/
def countTo (s : Stack α) (n : Nat) : Except Overflow Nat :=
  if n + 1 ≤ s.limit then .ok (n + 1) else .error ⟨n, 1⟩

/-- The index from the bottom of the item `n` levels below the top. -/
def index? (s : Stack α) (n : Nat) : Except Overflow (Option Nat) := do
  let count ← s.countTo n
  return if count ≤ s.length then some (s.length - count) else none

/-- Look up the item `n` levels below the top. -/
def peekAt (s : Stack α) (n : Nat) : Except Overflow (Option α) := do
  return (← s.index? n).bind fun i => s.reverse[i]?

/-- Look up the item `n` levels below the top and put `a` in its place. -/
def exchangeAt (s : Stack α) (n : Nat) (a : α) : Except Overflow (Option (α × Stack α)) := do
  return (← s.index? n).bind fun i => s.reverse[i]?.map fun old =>
    (old, (s.reverse.set i a).reverse)

variable {s : Stack α} {n : Nat}

theorem lt_limit_of_lt_length (h : n < s.length) : n < s.limit :=
  Nat.lt_of_lt_of_le h (Nat.le_max_right ..)

theorem index?_of_lt (h : n < s.limit) :
    s.index? n = .ok (if n < s.length then some (s.length - 1 - n) else none) := by
  have hcount : s.countTo n = .ok (n + 1) := if_pos h
  have hindex : s.length - (n + 1) = s.length - 1 - n := by omega
  rw [index?, hcount, ← hindex]
  rfl

/-- One more than the limit cannot be counted to. -/
theorem index?_of_le (h : s.limit ≤ n) : s.index? n = .error ⟨n, 1⟩ := by
  have hcount : s.countTo n = .error ⟨n, 1⟩ := if_neg (Nat.not_lt.mpr h)
  rw [index?, hcount]
  rfl

/-- What is made of the item at the index is made of the item that many levels below the top. -/
theorem exists_index? (h : n < s.limit) :
    ∃ i?, s.index? n = .ok i? ∧ ∀ f : Nat → α → β,
      i?.bind (fun i => s.reverse[i]?.map (f i)) = (s.below? n).map (f (s.length - 1 - n)) := by
  refine ⟨_, index?_of_lt h, fun f => ?_⟩
  by_cases hlt : n < s.length
  · have hback : s.length - 1 - (s.length - 1 - n) = n := by omega
    rw [if_pos hlt, Option.bind_some, List.getElem?_reverse (by omega), hback]
    rfl
  · have hnothing : s.below? n = none := List.getElem?_eq_none (by omega)
    rw [if_neg hlt, hnothing]
    rfl

theorem peekAt_of_lt (h : n < s.limit) : s.peekAt n = .ok (s.below? n) := by
  obtain ⟨i?, hindex, hfind⟩ := exists_index? (β := α) h
  have hitem := hfind fun _ a => a
  simp only [Option.map_id'] at hitem
  rw [peekAt, hindex, ← hitem]
  rfl

theorem peekAt_of_le (h : s.limit ≤ n) : s.peekAt n = .error ⟨n, 1⟩ := by
  rw [peekAt, index?_of_le h]
  rfl

theorem peekAt_eq_ok {found : Option α} (h : s.peekAt n = .ok found) : found = s.below? n := by
  by_cases hlt : n < s.limit
  · rw [peekAt_of_lt hlt] at h
    exact (Except.ok.inj h).symm
  · rw [peekAt_of_le (Nat.not_lt.mp hlt)] at h
    cases h

/-- What is there can be counted to. -/
theorem peekAt_of_below? {a : α} (h : s.below? n = some a) : s.peekAt n = .ok (some a) := by
  have hlt := (List.getElem?_eq_some_iff.mp h).1
  rw [peekAt_of_lt (lt_limit_of_lt_length hlt), h]

theorem peekAt_map (f : α → β) (s : Stack α) (n : Nat) :
    peekAt (s.map f) n = (s.peekAt n).map (Option.map f) := by
  have hlimit : limit (s.map f) = s.limit := congrArg (max Word.last) (List.length_map f)
  by_cases h : n < s.limit
  · rw [peekAt_of_lt h, peekAt_of_lt (hlimit ▸ h)]
    exact congrArg Except.ok List.getElem?_map
  · rw [peekAt_of_le (Nat.not_lt.mp h), peekAt_of_le (hlimit ▸ Nat.not_lt.mp h)]
    rfl

end Stack

/-- The name of a named stack: one that anybody may use, or one that belongs to a single rule. -/
inductive StackName
  | shared (name : String)
  | own (purpose : String) (number : Nat)
  deriving DecidableEq, Inhabited

/-- The text of a name. The number of a rule's own stack is written as the letter N. -/
def StackName.text : StackName → String
  | .shared name => name
  | .own purpose _ => "#" ++ purpose ++ "-N"

/-- Stacks kept apart by name. -/
abbrev NamedStacks (α : Type) := Dict StackName (Stack α)

namespace NamedStacks

variable {α : Type}

/-- The stack called `name`; one that was never pushed to is empty. -/
def items (s : NamedStacks α) (name : StackName) : Stack α := (s.get? name).getD []

def push (s : NamedStacks α) (name : StackName) (a : α) : NamedStacks α :=
  s.insert name (a :: s.items name)

/-- Take the top item of the stack called `name`, if it has one. -/
def pop? (s : NamedStacks α) (name : StackName) : Option (α × NamedStacks α) :=
  match s.items name with
  | [] => none
  | a :: rest => some (a, s.insert name rest)

/-- Look up the item `n` levels below the top of the stack called `name`. Where there is no such
stack, there is nothing to count. -/
def peekAt (s : NamedStacks α) (name : StackName) (n : Nat) : Except Overflow (Option α) :=
  match s.get? name with
  | some items => Stack.peekAt items n
  | none => .ok none

/-- Look up the item `n` levels below the top of the stack called `name` and put `a` in its
place. -/
def exchangeAt (s : NamedStacks α) (name : StackName) (n : Nat) (a : α) :
    Except Overflow (Option (α × NamedStacks α)) := do
  match s.get? name with
  | some items =>
    return (← Stack.exchangeAt items n a).map fun (old, items) => (old, s.insert name items)
  | none => return none

theorem items_push (s : NamedStacks α) (name other : StackName) (a : α) :
    (s.push name a).items other = if other = name then a :: s.items name else s.items other := by
  simp only [items, push, Dict.get?_insert]
  split <;> rfl

theorem items_pop {s t : NamedStacks α} {name : StackName} {a : α}
    (h : s.pop? name = some (a, t)) (other : StackName) :
    s.items name = a :: t.items name ∧ (other ≠ name → t.items other = s.items other) := by
  unfold pop? at h
  split at h
  · simp at h
  · next b rest hs =>
    simp only [Option.some.injEq, Prod.mk.injEq] at h
    obtain ⟨rfl, rfl⟩ := h
    refine ⟨?_, fun ho => ?_⟩
    · simp [items, Dict.get?_insert] at hs ⊢; exact hs
    · simp [items, Dict.get?_insert, ho]

end NamedStacks

end XmlBinding
