import XmlBinding.Proofs.Objects

/-!
# Methods of dynamic beans

What a method of a dynamic bean does follows from its name and from the number of its arguments.
Here the conventions are rules about what a bean holds, one for each way in which a call can end,
and a name is a verb with a word behind it. Any calls one after the other, of which some may fail,
lead to what the rules say and to nothing else. A method works on the bean itself, so it matters
that one that fails has changed nothing before it does.
-/
namespace XmlBinding

/-! ### The rules -/

/-- A method's name is a verb with a word behind it, and the property is that word with its first
letter in lower case. -/
def Speaks (verb method property : String) : Prop :=
  ∃ first rest, method = verb ++ String.ofList (first :: rest) ∧
    property = String.ofList (Text.lower first ++ rest)

/-- What a dynamic bean holds. -/
structure Holding where
  property : String → Option Value
  children : List Value

namespace Holding

def write (s : Holding) (x : String) (v : Value) : Holding :=
  { s with property := fun y => if y = x then some v else s.property y }

/-- What a property holds as a list: nothing if it is absent, and one item if it is no list. -/
def items (s : Holding) (x : String) : List Value :=
  match s.property x with
  | none => []
  | some (.list items) => items
  | some other => [other]

end Holding

/-- The rules for a single call. Of the properties only those that are `writable` can be written. -/
inductive Obeys (writable : String → Prop) (typeName method : String) :
    List Value → Holding → Except CallError Value → Holding → Prop
  | child (s : Holding) (v : Value) (hmethod : method = "addChild") :
    Obeys writable typeName method [v] s (.ok .null) { s with children := s.children ++ [v] }
  | assigned (s : Holding) (v : Value) (x : String) (hset : Speaks "set" method x)
      (hx : writable x) :
    Obeys writable typeName method [v] s (.ok .null) (s.write x v)
  | unassigned (s : Holding) (v : Value) (x : String) (hset : Speaks "set" method x)
      (hx : ¬ writable x) :
    Obeys writable typeName method [v] s (.error (.noSuchProperty typeName x)) s
  | extended (s : Holding) (v : Value) (x : String) (hadd : Speaks "add" method x)
      (hother : method ≠ "addChild") (hx : writable x) :
    Obeys writable typeName method [v] s (.ok .null) (s.write x (.list (s.items x ++ [v])))
  | unextended (s : Holding) (v : Value) (x : String) (hadd : Speaks "add" method x)
      (hother : method ≠ "addChild") (hx : ¬ writable x) :
    Obeys writable typeName method [v] s (.error (.noSuchProperty typeName x)) s
  | fetched (s : Holding) (x : String) (hget : Speaks "get" method x) :
    Obeys writable typeName method [] s (.ok ((s.property x).getD .null)) s
  | unknown (s : Holding) (args : List Value)
      (hone : args.length = 1 → ∀ x, ¬ Speaks "set" method x ∧ ¬ Speaks "add" method x)
      (hnone : args = [] → ∀ x, ¬ Speaks "get" method x) :
    Obeys writable typeName method args s (.error (.noSuchMethod typeName method args.length)) s

/-- The rules for calls one after the other, with an answer for each. -/
inductive ObeysAll (writable : String → Prop) (typeName : String) :
    List (String × List Value) → Holding → List (Except CallError Value) → Holding → Prop
  | nil (s : Holding) : ObeysAll writable typeName [] s [] s
  | cons {method : String} {args : List Value} {calls : List (String × List Value)}
      {s m s' : Holding} {answer : Except CallError Value} {answers : List (Except CallError Value)}
      (hfirst : Obeys writable typeName method args s answer m)
      (hrest : ObeysAll writable typeName calls m answers s') :
    ObeysAll writable typeName ((method, args) :: calls) s (answer :: answers) s'

/-! ### Calls that work on the bean itself -/

namespace DynamicBean

/-- What stands behind a verb, if it is not empty. -/
def word? (verb method : String) : Option (List Char) :=
  match method.toList.drop verb.length with
  | [] => none
  | word => if verb.toList.isPrefixOf method.toList then some word else none

/-- A method that changes the bean step by step. What was changed before a failure stays changed. -/
abbrev Method := EStateM CallError DynamicBean

namespace Method

def write (x : String) (v : Value) : Method Unit := modify (·.insert x v)

/-- Go on only if a property can be written. -/
def demand (x : String) : Method Unit := do
  let b ← get
  if (b.propertyType? x).isNone then throw (.noSuchProperty b.typeName x)

/-- The value of a property, which becomes an empty list if it is absent. -/
def slot (x : String) : Method Value := do
  match (← get).properties.get? x with
  | some v => return v
  | none =>
    write x (.list [])
    return .list []

def assign (x : String) (v : Value) : Method Value := do
  demand x
  write x v
  return .null

/-- Append to a list, or take another value out of its place and put a list there. -/
def append (x : String) (v : Value) : Value → Method Unit
  | .list items => write x (.list (items ++ [v]))
  | other => do
    write x .null
    write x (.list [other, v])

def extend (x : String) (v : Value) : Method Value := do
  demand x
  append x v (← slot x)
  return .null

def addChild (v : Value) : Method Value := do
  modify fun b => { b with children := b.children ++ [v] }
  return .null

def fetch (x : String) : Method Value := return ((← get).properties.get? x).getD .null

def refuse (method : String) (args : List Value) : Method Value := do
  throw (.noSuchMethod (← get).typeName method args.length)

/-- The method that a name and its arguments stand for. The verbs are tried one after the other. -/
def invoke (method : String) (args : List Value) : Method Value :=
  match args with
  | [v] =>
    if method = "addChild" then addChild v
    else match word? "set" method with
      | some word => assign (propertyOf word) v
      | none => match word? "add" method with
        | some word => extend (propertyOf word) v
        | none => refuse method args
  | [] => match word? "get" method with
    | some word => fetch (propertyOf word)
    | none => refuse method args
  | _ => refuse method args

/-- What a method answers and the bean that it leaves behind, whether or not it failed. -/
def apply (m : Method Value) (b : DynamicBean) : Except CallError Value × DynamicBean :=
  match m b with
  | .ok v b' => (.ok v, b')
  | .error e b' => (.error e, b')

end Method

/-- Call methods one after the other, also after one that failed. -/
def invokeAll (b : DynamicBean) :
    List (String × List Value) → List (Except CallError Value) × DynamicBean
  | [] => ([], b)
  | (method, args) :: calls =>
    let (answer, b) := (Method.invoke method args).apply b
    let (answers, b) := b.invokeAll calls
    (answer :: answers, b)

end DynamicBean

/-- Call methods of one object in the store one after the other, also after one that failed. -/
def Heap.callAll (h : Heap) (id : ObjectId) :
    List (String × List Value) → List (Except CallError Value) × Heap
  | [] => ([], h)
  | (method, args) :: calls =>
    let (answer, h) := match h.reach (.object id) with
      | .ok (id, bean) => h.call id bean method args
      | .error e => (.error e, h)
    let (answers, h) := h.callAll id calls
    (answer :: answers, h)

/-! ### Names of methods -/

namespace DynamicBean

variable {verb method x : String} {word : List Char} {args : List Value} {v : Value}

theorem word?_eq_some_iff :
    word? verb method = some word ↔ word ≠ [] ∧ method.toList = verb.toList ++ word := by
  unfold word?
  rw [← String.length_toList]
  constructor
  · intro h
    split at h
    · cases h
    · next hnil =>
      split at h
      · next hprefix =>
        cases h
        obtain ⟨rest, hrest⟩ := List.isPrefixOf_iff_prefix.mp hprefix
        exact ⟨hnil, by rw [← hrest, List.drop_left]⟩
      · cases h
  · rintro ⟨hnil, hmethod⟩
    rw [hmethod, List.drop_left, List.isPrefixOf_iff_prefix.mpr (List.prefix_append _ _)]
    cases word with
    | nil => exact absurd rfl hnil
    | cons => rfl

theorem speaks_iff :
    Speaks verb method x ↔ ∃ word, word? verb method = some word ∧ x = propertyOf word := by
  constructor
  · rintro ⟨first, rest, rfl, hx⟩
    refine ⟨first :: rest, word?_eq_some_iff.mpr ⟨nofun, ?_⟩, hx⟩
    rw [String.toList_append, String.toList_ofList]
  · rintro ⟨word, hword, hx⟩
    obtain ⟨hnil, hmethod⟩ := word?_eq_some_iff.mp hword
    obtain ⟨first, rest, rfl⟩ := List.exists_cons_of_ne_nil hnil
    refine ⟨first, rest, String.toList_inj.mp ?_, hx⟩
    rw [hmethod, String.toList_append, String.toList_ofList]

theorem word?_eq_none (h : ∀ first rest, method.toList ≠ verb.toList ++ first :: rest) :
    word? verb method = none := by
  refine Option.eq_none_iff_forall_ne_some.mpr fun word hword => ?_
  obtain ⟨hnil, hmethod⟩ := word?_eq_some_iff.mp hword
  obtain ⟨first, rest, rfl⟩ := List.exists_cons_of_ne_nil hnil
  exact h first rest hmethod

/-- To read a method by its letters is to try its verbs one after the other. -/
theorem of?_eq (method : String) (args : List Value) : Convention.of? method args =
    match args with
    | [v] =>
      if method = "addChild" then some (.child v)
      else match word? "set" method with
        | some word => some (.assign (propertyOf word) v)
        | none => match word? "add" method with
          | some word => some (.extend (propertyOf word) v)
          | none => none
    | [] => match word? "get" method with
      | some word => some (.fetch (propertyOf word))
      | none => none
    | _ => none := by
  unfold Convention.of?
  split
  · next first rest v hmethod =>
    have hset : word? "set" method = some (first :: rest) :=
      word?_eq_some_iff.mpr ⟨nofun, hmethod⟩
    have hother : method ≠ "addChild" := by
      rintro rfl
      cases hmethod
    simp only [if_neg hother, hset]
  · next first rest v hmethod =>
    have hset : word? "set" method = none := word?_eq_none fun c cs hcs => by
      rw [hmethod] at hcs
      cases hcs
    have hadd : word? "add" method = some (first :: rest) :=
      word?_eq_some_iff.mpr ⟨nofun, hmethod⟩
    simp only [hset, hadd]
  · next first rest hmethod =>
    have hget : word? "get" method = some (first :: rest) :=
      word?_eq_some_iff.mpr ⟨nofun, hmethod⟩
    simp only [hget]
  · next given _ _ hset hadd hget =>
    cases given with
    | nil =>
      have hnone : word? "get" method = none :=
        word?_eq_none fun c cs hmethod => hget c cs hmethod rfl
      simp only [hnone]
    | cons v rest =>
      cases rest with
      | cons => rfl
      | nil =>
        have hother : method ≠ "addChild" := by
          rintro rfl
          exact hadd _ _ _ rfl rfl
        have hnoSet : word? "set" method = none :=
          word?_eq_none fun c cs hmethod => hset c cs v hmethod rfl
        have hnoAdd : word? "add" method = none :=
          word?_eq_none fun c cs hmethod => hadd c cs v hmethod rfl
        simp only [if_neg hother, hnoSet, hnoAdd]

/-! ### One call -/

/-- What a call answers and the bean that it leaves behind; a failed call leaves the old one. -/
def outcome (b : DynamicBean) (method : String) (args : List Value) :
    Except CallError Value × DynamicBean :=
  match b.call method args with
  | .ok (v, b') => (.ok v, b')
  | .error e => (.error e, b)

theorem insert_insert (b : DynamicBean) (x : String) (v w : Value) :
    (b.insert x v).insert x w = b.insert x w := by
  unfold insert
  rw [Dict.insert_insert]

theorem get?_insert_self (b : DynamicBean) (x : String) (v : Value) :
    (b.insert x v).properties.get? x = some v := by
  rw [insert, Dict.get?_insert, if_pos rfl]

/-- What a method answers, and the bean that it leaves behind, when it hands back a new bean. -/
def settled (b : DynamicBean) : Except CallError DynamicBean → Except CallError Value × DynamicBean
  | .ok b' => (.ok .null, b')
  | .error e => (.error e, b)

/-! ### One step after the other -/

namespace Method

variable {α β : Type} {m : Method α} {f : α → Method β} {b b' : DynamicBean} {a : α} {e : CallError}

theorem bind_of_ok (h : m b = .ok a b') : (m >>= f) b = f a b' := by
  change EStateM.bind m f b = _
  rw [EStateM.bind, h]

theorem bind_of_error (h : m b = .error e b') : (m >>= f) b = .error e b' := by
  change EStateM.bind m f b = _
  rw [EStateM.bind, h]

theorem demand_of_writable (h : (b.propertyType? x).isSome) : demand x b = .ok () b := by
  change (if (b.propertyType? x).isNone then throw _ else pure () : Method Unit) b = _
  obtain ⟨t, ht⟩ := Option.isSome_iff_exists.mp h
  rw [ht]
  rfl

theorem demand_of_unwritable (h : ¬ (b.propertyType? x).isSome) :
    demand x b = .error (.noSuchProperty b.typeName x) b := by
  change (if (b.propertyType? x).isNone then throw _ else pure () : Method Unit) b = _
  rw [Option.not_isSome_iff_eq_none.mp h]
  rfl

/-- An absent property is there as an empty list before it is appended to. -/
theorem slot_of_absent (h : b.properties.get? x = none) :
    slot x b = .ok (.list []) (b.insert x (.list [])) := by
  change (match b.properties.get? x with
    | some v => return v
    | none => do
      write x (.list [])
      return .list [] : Method Value) b = _
  rw [h]
  rfl

theorem slot_of_present (h : b.properties.get? x = some v) : slot x b = .ok v b := by
  change (match b.properties.get? x with
    | some v => return v
    | none => do
      write x (.list [])
      return .list [] : Method Value) b = _
  rw [h]
  rfl

end Method

theorem apply_assign (b : DynamicBean) (x : String) (v : Value) :
    (Method.assign x v).apply b = b.settled (b.assign x v) := by
  unfold assign Method.apply Method.assign
  by_cases hx : (b.propertyType? x).isSome
  · rw [if_pos hx, Method.bind_of_ok (Method.demand_of_writable hx)]
    rfl
  · rw [if_neg hx, Method.bind_of_error (Method.demand_of_unwritable hx)]
    rfl

theorem apply_extend (b : DynamicBean) (x : String) (v : Value) :
    (Method.extend x v).apply b = b.settled (b.extend x v) := by
  unfold extend Method.apply Method.extend
  by_cases hx : (b.propertyType? x).isSome
  · rw [if_pos hx, Method.bind_of_ok (Method.demand_of_writable hx)]
    cases hslot : b.properties.get? x with
    | none =>
      rw [Method.bind_of_ok (Method.slot_of_absent hslot)]
      exact congrArg (Except.ok Value.null, ·) (insert_insert ..)
    | some held =>
      rw [Method.bind_of_ok (Method.slot_of_present hslot)]
      cases held with
      | list items => rfl
      | _ => exact congrArg (Except.ok Value.null, ·) (insert_insert ..)
  · rw [if_neg hx, Method.bind_of_error (Method.demand_of_unwritable hx)]
    rfl

/-- A method that changes the bean step by step has the outcome of one that hands back a new bean.
In particular nothing was changed before it failed. -/
theorem apply_invoke (b : DynamicBean) (method : String) (args : List Value) :
    (Method.invoke method args).apply b = b.outcome method args := by
  have hsettled : ∀ r : Except CallError DynamicBean, b.settled r =
      match r.map (Value.null, ·) with
      | .ok (v, b') => (.ok v, b')
      | .error e => (.error e, b) := fun r => by
    cases r <;> rfl
  unfold outcome call Method.invoke
  rw [of?_eq]
  cases args with
  | nil => cases word? "get" method <;> rfl
  | cons v rest =>
    cases rest with
    | cons => rfl
    | nil =>
      dsimp only
      split
      · rfl
      · cases word? "set" method with
        | some word => exact (apply_assign b _ v).trans (hsettled _)
        | none =>
          cases word? "add" method with
          | some word => exact (apply_extend b _ v).trans (hsettled _)
          | none => rfl

/-! ### One call by the rules -/

/-- Without declarations every property can be written, otherwise the declared ones. -/
def Writable (b : DynamicBean) (x : String) : Prop :=
  ∀ declared, b.declared = some declared → declared.contains x

theorem writable_iff {b : DynamicBean} : b.Writable x ↔ (b.propertyType? x).isSome := by
  unfold Writable propertyType?
  cases b.declared with
  | none => exact iff_of_true nofun rfl
  | some declared => exact ⟨fun h => h declared rfl, fun h d hd => Option.some.inj hd ▸ h⟩

def held (b : DynamicBean) : Holding := ⟨b.properties.get?, b.children⟩

theorem held_insert (b : DynamicBean) (x : String) (v : Value) :
    (b.insert x v).held = b.held.write x v :=
  congrArg (Holding.mk · b.children) (funext fun y => Dict.get?_insert b.properties x y v)

theorem extended_eq (b : DynamicBean) (x : String) (v : Value) :
    extended v (b.properties.get? x) = .list (b.held.items x ++ [v]) := by
  have hitems : b.held.items x = match b.properties.get? x with
      | none => []
      | some (.list items) => items
      | some other => [other] := rfl
  rw [hitems]
  cases b.properties.get? x with
  | none => rfl
  | some w => cases w <;> rfl

section
variable (b : DynamicBean)

theorem outcome_set (h : Speaks "set" method x) (v : Value) :
    b.outcome method [v] = b.settled (b.assign x v) := by
  obtain ⟨word, hword, rfl⟩ := speaks_iff.mp h
  have hother : method ≠ "addChild" := by
    rintro rfl
    cases hword
  rw [← apply_invoke, Method.invoke, if_neg hother, hword]
  exact apply_assign ..

theorem outcome_add (h : Speaks "add" method x) (hother : method ≠ "addChild") (v : Value) :
    b.outcome method [v] = b.settled (b.extend x v) := by
  obtain ⟨word, hword, rfl⟩ := speaks_iff.mp h
  have hset : word? "set" method = none := word?_eq_none fun first rest hmethod => by
    rw [(word?_eq_some_iff.mp hword).2] at hmethod
    cases hmethod
  rw [← apply_invoke, Method.invoke, if_neg hother, hset, hword]
  exact apply_extend ..

theorem outcome_get (h : Speaks "get" method x) :
    b.outcome method [] = (.ok ((b.properties.get? x).getD .null), b) := by
  obtain ⟨word, hword, rfl⟩ := speaks_iff.mp h
  rw [← apply_invoke, Method.invoke, hword]
  rfl

theorem speaks_addChild : Speaks "add" "addChild" "child" :=
  speaks_iff.mpr ⟨['C', 'h', 'i', 'l', 'd'], rfl, by decide⟩

theorem outcome_unknown
    (hone : args.length = 1 → ∀ x, ¬ Speaks "set" method x ∧ ¬ Speaks "add" method x)
    (hnone : args = [] → ∀ x, ¬ Speaks "get" method x) :
    b.outcome method args = (.error (.noSuchMethod b.typeName method args.length), b) := by
  have hword : ∀ verb, (∀ x, ¬ Speaks verb method x) → word? verb method = none := fun verb h =>
    Option.eq_none_iff_forall_ne_some.mpr fun word hword => h _ (speaks_iff.mpr ⟨word, hword, rfl⟩)
  rw [← apply_invoke]
  unfold Method.invoke
  match args with
  | [] =>
    rw [hword "get" (hnone rfl)]
    rfl
  | [v] =>
    have hother : method ≠ "addChild" := by
      rintro rfl
      exact (hone rfl _).2 speaks_addChild
    dsimp only
    rw [if_neg hother, hword "set" fun x => (hone rfl x).1, hword "add" fun x => (hone rfl x).2]
    rfl
  | _ :: _ :: _ => rfl

theorem settled_assign_of_writable (h : b.Writable x) (v : Value) :
    b.settled (b.assign x v) = (.ok .null, b.insert x v) := by
  rw [assign, if_pos (writable_iff.mp h)]
  rfl

theorem settled_assign_of_unwritable (h : ¬ b.Writable x) (v : Value) :
    b.settled (b.assign x v) = (.error (.noSuchProperty b.typeName x), b) := by
  rw [assign, if_neg (mt writable_iff.mpr h)]
  rfl

theorem settled_extend_of_writable (h : b.Writable x) (v : Value) :
    b.settled (b.extend x v) = (.ok .null, b.insert x (.list (b.held.items x ++ [v]))) := by
  rw [extend, if_pos (writable_iff.mp h), extended_eq]
  rfl

theorem settled_extend_of_unwritable (h : ¬ b.Writable x) (v : Value) :
    b.settled (b.extend x v) = (.error (.noSuchProperty b.typeName x), b) := by
  rw [extend, if_neg (mt writable_iff.mpr h)]
  rfl

end

/-- A call ends as one of the rules says. -/
theorem obeys_outcome (b : DynamicBean) (method : String) (args : List Value) :
    Obeys b.Writable b.typeName method args b.held (b.outcome method args).1
      (b.outcome method args).2.held := by
  by_cases hone : ∃ v, args = [v]
  · obtain ⟨v, rfl⟩ := hone
    by_cases hset : ∃ x, Speaks "set" method x
    · obtain ⟨x, hset⟩ := hset
      rw [outcome_set b hset]
      by_cases hx : b.Writable x
      · rw [settled_assign_of_writable b hx, held_insert]
        exact .assigned _ v x hset hx
      · rw [settled_assign_of_unwritable b hx]
        exact .unassigned _ v x hset hx
    by_cases hchild : method = "addChild"
    · subst hchild
      exact .child _ v rfl
    by_cases hadd : ∃ x, Speaks "add" method x
    · obtain ⟨x, hadd⟩ := hadd
      rw [outcome_add b hadd hchild]
      by_cases hx : b.Writable x
      · rw [settled_extend_of_writable b hx, held_insert]
        exact .extended _ v x hadd hchild hx
      · rw [settled_extend_of_unwritable b hx]
        exact .unextended _ v x hadd hchild hx
    have hneither := fun (_ : [v].length = 1) x =>
      And.intro (not_exists.mp hset x) (not_exists.mp hadd x)
    rw [outcome_unknown b hneither nofun]
    exact .unknown _ _ hneither nofun
  · have hlength : args.length ≠ 1 := mt List.length_eq_one_iff.mp hone
    by_cases hget : args = [] ∧ ∃ x, Speaks "get" method x
    · obtain ⟨rfl, x, hget⟩ := hget
      rw [outcome_get b hget]
      exact .fetched _ x hget
    have hnone := fun (hargs : args = []) x hspeaks => hget ⟨hargs, x, hspeaks⟩
    rw [outcome_unknown b (absurd · hlength) hnone]
    exact .unknown _ _ (absurd · hlength) hnone

/-- No two rules give a call two outcomes. -/
theorem eq_outcome_of_obeys {b : DynamicBean} {s s' : Holding} {answer : Except CallError Value}
    (h : Obeys b.Writable b.typeName method args s answer s') (hs : s = b.held) :
    answer = (b.outcome method args).1 ∧ s' = (b.outcome method args).2.held := by
  subst hs
  cases h with
  | child _ v hmethod =>
    subst hmethod
    exact ⟨rfl, rfl⟩
  | assigned _ v x hset hx =>
    rw [outcome_set b hset, settled_assign_of_writable b hx, held_insert]
    exact ⟨rfl, rfl⟩
  | unassigned _ v x hset hx =>
    rw [outcome_set b hset, settled_assign_of_unwritable b hx]
    exact ⟨rfl, rfl⟩
  | extended _ v x hadd hother hx =>
    rw [outcome_add b hadd hother, settled_extend_of_writable b hx, held_insert]
    exact ⟨rfl, rfl⟩
  | unextended _ v x hadd hother hx =>
    rw [outcome_add b hadd hother, settled_extend_of_unwritable b hx]
    exact ⟨rfl, rfl⟩
  | fetched _ x hget =>
    rw [outcome_get b hget]
    exact ⟨rfl, rfl⟩
  | unknown _ _ hone hnone =>
    rw [outcome_unknown b hone hnone]
    exact ⟨rfl, rfl⟩

/-! ### Calls one after the other -/

/-- No call changes the type of the bean or what it declares. -/
theorem outcome_keeps (b : DynamicBean) (method : String) (args : List Value) :
    (b.outcome method args).2.typeName = b.typeName ∧
      (b.outcome method args).2.declared = b.declared := by
  unfold outcome call
  cases Convention.of? method args with
  | none => exact ⟨rfl, rfl⟩
  | some meaning =>
    cases meaning with
    | child | fetch => exact ⟨rfl, rfl⟩
    | assign y w =>
      dsimp only [assign]
      by_cases hy : (b.propertyType? y).isSome
      · rw [if_pos hy]
        exact ⟨rfl, rfl⟩
      · rw [if_neg hy]
        exact ⟨rfl, rfl⟩
    | extend y w =>
      dsimp only [extend]
      by_cases hy : (b.propertyType? y).isSome
      · rw [if_pos hy]
        exact ⟨rfl, rfl⟩
      · rw [if_neg hy]
        exact ⟨rfl, rfl⟩

theorem invokeAll_cons (b : DynamicBean) (method : String) (args : List Value)
    (calls : List (String × List Value)) : b.invokeAll ((method, args) :: calls) =
      ((b.outcome method args).1 :: ((b.outcome method args).2.invokeAll calls).1,
        ((b.outcome method args).2.invokeAll calls).2) := by
  rw [invokeAll, apply_invoke]

theorem invokeAll_keeps (b : DynamicBean) (calls : List (String × List Value)) :
    (b.invokeAll calls).2.typeName = b.typeName ∧ (b.invokeAll calls).2.declared = b.declared := by
  induction calls generalizing b with
  | nil => exact ⟨rfl, rfl⟩
  | cons call calls ih =>
    obtain ⟨method, args⟩ := call
    rw [invokeAll_cons]
    have hfirst := outcome_keeps b method args
    have hrest := ih (b.outcome method args).2
    exact ⟨hrest.1.trans hfirst.1, hrest.2.trans hfirst.2⟩

/-- What the rules say of calls that follow a call. -/
theorem obeysAll_outcome {b : DynamicBean} {calls : List (String × List Value)} {s s' : Holding}
    {answers : List (Except CallError Value)} :
    ObeysAll (b.outcome method args).2.Writable (b.outcome method args).2.typeName calls s answers
        s' ↔
      ObeysAll b.Writable b.typeName calls s answers s' := by
  obtain ⟨hname, hdeclared⟩ := outcome_keeps b method args
  have hwritable : (b.outcome method args).2.Writable = b.Writable := by
    funext x
    rw [Writable, Writable, hdeclared]
  rw [hname, hwritable]

theorem obeysAll_iff {b : DynamicBean} {calls : List (String × List Value)}
    {answers : List (Except CallError Value)} {s : Holding} :
    ObeysAll b.Writable b.typeName calls b.held answers s ↔
      answers = (b.invokeAll calls).1 ∧ s = (b.invokeAll calls).2.held := by
  induction calls generalizing b answers s with
  | nil =>
    constructor
    · rintro ⟨⟩
      exact ⟨rfl, rfl⟩
    · rintro ⟨rfl, rfl⟩
      exact .nil _
  | cons call calls ih =>
    obtain ⟨method, args⟩ := call
    rw [invokeAll_cons]
    constructor
    · intro h
      cases h with
      | cons hfirst hrest =>
        obtain ⟨rfl, rfl⟩ := eq_outcome_of_obeys hfirst rfl
        obtain ⟨rfl, rfl⟩ := ih.mp (obeysAll_outcome.mpr hrest)
        exact ⟨rfl, rfl⟩
    · rintro ⟨rfl, rfl⟩
      exact .cons (obeys_outcome b method args) (obeysAll_outcome.mp (ih.mpr ⟨rfl, rfl⟩))

end DynamicBean

/-! ### Calls in the store -/

namespace Heap

variable {h : Heap} {id : ObjectId} {b : DynamicBean}

theorem call_dynamic (hb : h.bean? id = some (.dynamic b)) (method : String) (args : List Value) :
    (h.call id (.dynamic b) method args).1 = (b.outcome method args).1 ∧
      (h.call id (.dynamic b) method args).2.bean? id = some (.dynamic (b.outcome method args).2) ∧
      ∀ other, other ≠ id →
        (h.call id (.dynamic b) method args).2.bean? other = h.bean? other := by
  unfold call DynamicBean.outcome
  dsimp only [Bean.call]
  cases b.call method args with
  | error e => exact ⟨rfl, hb, fun _ _ => rfl⟩
  | ok r => exact ⟨rfl, bean?_setBean_self hb _, fun _ hne => bean?_setBean_of_ne h hne _⟩

theorem callAll_dynamic (hb : h.bean? id = some (.dynamic b)) (calls : List (String × List Value)) :
    (h.callAll id calls).1 = (b.invokeAll calls).1 ∧
      (h.callAll id calls).2.bean? id = some (.dynamic (b.invokeAll calls).2) ∧
      ∀ other, other ≠ id → (h.callAll id calls).2.bean? other = h.bean? other := by
  induction calls generalizing h b with
  | nil => exact ⟨rfl, hb, fun _ _ => rfl⟩
  | cons call calls ih =>
    obtain ⟨method, args⟩ := call
    obtain ⟨hanswer, hshown, hothers⟩ := call_dynamic hb method args
    obtain ⟨hanswers, hlast, hrest⟩ := ih hshown
    rw [callAll, reach_of_bean? hb, DynamicBean.invokeAll_cons]
    refine ⟨?_, hlast, fun other hne => (hrest other hne).trans (hothers other hne)⟩
    rw [← hanswer, ← hanswers]

end Heap

/-- Calls of the methods of a dynamic bean, whatever their names and arguments, have the answers
that the rules give them, and the bean holds in the end what the rules say. It stays of its type and
keeps its declarations. In the store the same calls change this one object and no other. -/
theorem conventions_law (b : DynamicBean) (calls : List (String × List Value)) :
    (∀ answers s, ObeysAll b.Writable b.typeName calls b.held answers s ↔
        answers = (b.invokeAll calls).1 ∧ s = (b.invokeAll calls).2.held) ∧
      (b.invokeAll calls).2.typeName = b.typeName ∧
      (b.invokeAll calls).2.declared = b.declared ∧
      ∀ (h : Heap) (id : ObjectId), h.bean? id = some (.dynamic b) →
        (h.callAll id calls).1 = (b.invokeAll calls).1 ∧
          (h.callAll id calls).2.bean? id = some (.dynamic (b.invokeAll calls).2) ∧
          ∀ other, other ≠ id → (h.callAll id calls).2.bean? other = h.bean? other :=
  have hkeeps := b.invokeAll_keeps calls
  ⟨fun _ _ => DynamicBean.obeysAll_iff, hkeeps.1, hkeeps.2,
    fun _ _ hb => Heap.callAll_dynamic hb calls⟩

/-- An address is something added, and a value that was set becomes the first item. -/
example : (DynamicBean.invokeAll ⟨"item", none, ∅, []⟩
    [("setTag", [.text "a"]), ("addTag", [.text "b"]), ("address", [.null])]).2.properties.entries =
      [("tag", .list [.text "a", .text "b"]), ("ress", .list [.null])] := by
  rfl

end XmlBinding
