import XmlBinding.Binder.Access
import XmlBinding.Proofs.Conventions
import XmlBinding.Proofs.Outcome

/-!
# Setters and assignments

A property can be written by its setter or by its name. The store converts the value to the types
that a method declares in the one case and to the type of the property in the other. A dynamic bean
declares types for its properties but none for its methods. So its setters store every value as it
is, and both ways agree exactly where a conversion has nothing to do.
-/
namespace XmlBinding

/-! ### What a conversion leaves alone -/

/-- No text is read as a text, unless nothing else than a text is wanted. -/
theorem Value.text?_of_read? {wanted : ScalarType} {s : String} {w : Value}
    (hany : wanted ≠ .any) (hstring : wanted ≠ .string) (h : Value.read? wanted s = some w) :
    w.text? = none := by
  have hmap : ∀ {α : Type} {o : Option α} (make : α → Value), (∀ a, (make a).text? = none) →
      o.map make = some w → w.text? = none := by
    intro α o make hmake hw
    obtain ⟨a, -, rfl⟩ := Option.map_eq_some_iff.mp hw
    exact hmake a
  cases wanted with
  | any => exact absurd rfl hany
  | string => exact absurd rfl hstring
  | bool => exact hmap .bool (fun _ => rfl) h
  | int => exact hmap .int (fun _ => rfl) h
  | float => exact hmap .float (fun _ => rfl) h
  | date => exact hmap .date (fun _ => rfl) h
  | dateTime => exact hmap .dateTime (fun _ => rfl) h
  | char =>
    rw [Value.read?] at h
    split at h
    · cases h
      rfl
    · cases h

theorem Value.coerce_eq_self_iff {wanted : ScalarType} {v : Value} :
    v.coerce wanted = .ok v ↔ wanted = .any ∨ wanted = .string ∨ v.text? = none := by
  cases v with
  | text s =>
    constructor
    · intro h
      by_cases hany : wanted = .any
      · exact .inl hany
      by_cases hstring : wanted = .string
      · exact .inr (.inl hstring)
      rw [coerce] at h
      split at h
      · next w hread =>
        cases h
        exact .inr (.inr (text?_of_read? hany hstring hread))
      · cases h
    · rintro (rfl | rfl | h)
      · rfl
      · rfl
      · cases h
  | _ => exact iff_of_true rfl (.inr (.inr rfl))

/-! ### One object in the store -/

namespace Action

variable {κ α β : Type} {p q : Binder κ} {id : ObjectId} {b : DynamicBean} {method x : String}

/-- How an action ended, and what an object shows afterwards. -/
def effect (act : Action κ RuleError α) (p : Binder κ) (id : ObjectId) :
    Except (Halt RuleError) Unit × Option Bean :=
  match act p with
  | .ok _ p' => (.ok (), p'.heap.bean? id)
  | .error halt p' => (.error halt, p'.heap.bean? id)

/-- How an operation on the store ended. -/
def ending (r : Except CallError α) : Except (Halt RuleError) Unit :=
  match r with
  | .ok _ => .ok ()
  | .error cause => .error (.error (.call cause))

theorem effect_commit (r : Except CallError α × Heap) (p : Binder κ) (id : ObjectId) :
    (commit r : Action κ RuleError α).effect p id = (ending r.1, r.2.bean? id) := by
  obtain ⟨_ | _, heap⟩ := r <;> rfl

/-- To show an access does not change the store. -/
theorem effect_shown {e : Binder κ → Event} {f : Unit → Action κ RuleError α}
    {r : Except (Halt RuleError) Unit × Option Bean}
    (h : ∀ m : Binder κ, m.heap = p.heap → (f ()).effect m id = r) :
    (showAccess e >>= f).effect p id = r := by
  refine h (if p.watched then p.display (e p) else p) ?_
  split <;> rfl

theorem effect_get_bind (f : Binder κ → Action κ RuleError α) (p : Binder κ) (id : ObjectId) :
    (get >>= f).effect p id = (f p).effect p id := rfl

theorem convertAll_nil (args : List Value) : Heap.convertAll [] args = .ok args := by
  induction args with
  | nil => rfl
  | cons v rest ih =>
    have hv : v.convert .any = .ok v := by cases v <;> rfl
    rw [Heap.convertAll, List.headD_nil, hv, List.tail_nil, ih]
    rfl

/-- A dynamic bean gets the arguments of a call as they are. -/
theorem effect_invoke (hp : p.heap.bean? id = some (.dynamic b)) (method : String)
    (args : List Value) : (invoke (.object id) method args []).effect p id =
      (ending (b.outcome method args).1, some (.dynamic (b.outcome method args).2)) := by
  refine effect_shown fun m hm => ?_
  have hprepare : m.heap.prepare (.object id) method args [] = .ok (id, .dynamic b, args) := by
    rw [hm, Heap.prepare, Heap.reach_of_bean? hp]
    change (Heap.convertAll [] args >>= fun ready => Except.ok (id, Bean.dynamic b, ready)) = _
    rw [convertAll_nil]
    rfl
  obtain ⟨hanswer, hshown, -⟩ := Heap.call_dynamic hp method args
  refine (effect_get_bind ..).trans ?_
  rw [hprepare, ← hanswer, ← hshown, ← hm]
  exact effect_commit ..

/-- A value that is assigned is converted to the type of the property. -/
theorem effect_setProperty (hp : p.heap.bean? id = some (.dynamic b)) (x : String) (v : Value) :
    (setProperty (.object id) x v).effect p id =
      match b.propertyType? x with
      | none => (.error (.error (.call (.noSuchProperty b.typeName x))), some (.dynamic b))
      | some wanted => match v.coerce wanted with
        | .ok w => (.ok (), some (.dynamic (b.insert x w)))
        | .error e => (.error (.error (.call (.conversion e))), some (.dynamic b)) := by
  refine effect_shown fun m hm => ?_
  refine (effect_commit (m.heap.setProperty (.object id) x v) m id).trans ?_
  rw [hm, Heap.setProperty, Heap.reach_of_bean? hp]
  cases htype : b.propertyType? x with
  | none =>
    have hnone : (Bean.dynamic b).propertyType? x = none := htype
    simp only [hnone, hp]
    rfl
  | some wanted =>
    have hsome : (Bean.dynamic b).propertyType? x = some wanted := htype
    simp only [hsome, Value.convert]
    cases v.coerce wanted with
    | error e => exact congrArg (Prod.mk _) hp
    | ok w =>
      have hassign : p.heap.assign id (.dynamic b) x w =
          (.ok (), p.heap.setBean id (.dynamic (b.insert x w))) := by
        change p.heap.commit id (((b.assign x w).map Bean.dynamic).map ((), ·)) = _
        rw [DynamicBean.assign, htype]
        rfl
      dsimp only [Except.mapError]
      rw [hassign]
      exact congrArg (Prod.mk _) (Heap.bean?_setBean_self hp _)

/-! ### Both ways to write a property -/

/-- Both operations get through and leave equal beans, or both fail and leave the bean as it was. -/
def Agree (b : DynamicBean) (r s : Except (Halt RuleError) Unit × Option Bean) : Prop :=
  (r.1 = .ok () ∧ s.1 = .ok () ∧ r.2 = s.2) ∨
    ((∃ e, r.1 = .error e) ∧ (∃ e, s.1 = .error e) ∧
      r.2 = some (.dynamic b) ∧ s.2 = some (.dynamic b))

/-- A setter stores a value as it is wherever an assignment finds a type to convert it to. -/
theorem effect_setter (hp : p.heap.bean? id = some (.dynamic b)) (hx : Speaks "set" method x)
    (v : Value) : (invoke (.object id) method [v] []).effect p id =
      match b.propertyType? x with
      | none => (.error (.error (.call (.noSuchProperty b.typeName x))), some (.dynamic b))
      | some _ => (.ok (), some (.dynamic (b.insert x v))) := by
  rw [effect_invoke hp, b.outcome_set hx, DynamicBean.assign]
  cases b.propertyType? x <;> rfl

theorem agree_iff (hp : p.heap.bean? id = some (.dynamic b)) {id' : ObjectId}
    (hq : q.heap.bean? id' = some (.dynamic b)) (hx : Speaks "set" method x) (v : Value) :
    Agree b ((invoke (.object id) method [v] []).effect p id)
        ((setProperty (.object id') x v).effect q id') ↔
      ∀ wanted, b.propertyType? x = some wanted →
        wanted = .any ∨ wanted = .string ∨ v.text? = none := by
  rw [effect_setter hp hx, effect_setProperty hq]
  cases b.propertyType? x with
  | none => exact iff_of_true (.inr ⟨⟨_, rfl⟩, ⟨_, rfl⟩, rfl, rfl⟩) nofun
  | some wanted =>
    have hself : (∀ t, some wanted = some t → t = .any ∨ t = .string ∨ v.text? = none) ↔
        v.coerce wanted = .ok v := by
      rw [Value.coerce_eq_self_iff]
      exact ⟨fun h => h wanted rfl, fun h t ht => Option.some.inj ht ▸ h⟩
    rw [hself]
    dsimp only [Agree]
    cases v.coerce wanted with
    | error e =>
      refine iff_of_false ?_ nofun
      rintro (⟨-, h, -⟩ | ⟨⟨_, h⟩, -⟩) <;> cases h
    | ok w =>
      constructor
      · rintro (⟨-, -, hbean⟩ | ⟨⟨_, h⟩, -⟩)
        · have hinsert : b.insert x v = b.insert x w := Bean.dynamic.inj (Option.some.inj hbean)
          have hvalue := DynamicBean.get?_insert_self b x v
          rw [hinsert, DynamicBean.get?_insert_self] at hvalue
          exact congrArg Except.ok (Option.some.inj hvalue)
        · cases h
      · intro h
        cases h
        exact .inl ⟨rfl, rfl, rfl⟩

end Action

/-- **A setter does not convert.** In equal beans a property is written by its setter and by its
name. If it is not declared, both fail alike. Otherwise the setter stores the value as it is, and
the assignment converts it first or fails. So both agree for every value but a text, and for a text
where nothing else than a text is wanted, and never else. -/
theorem setter_law {κ : Type} {p q : Binder κ} {id id' : ObjectId} {b : DynamicBean}
    {method x : String} (hp : p.heap.bean? id = some (.dynamic b))
    (hq : q.heap.bean? id' = some (.dynamic b)) (hx : Speaks "set" method x) (v : Value) :
    let called := (Action.invoke (.object id) method [v] []).effect p id
    let assigned := (Action.setProperty (.object id') x v).effect q id'
    (Action.Agree b called assigned ↔ ∀ wanted, b.propertyType? x = some wanted →
        wanted = .any ∨ wanted = .string ∨ v.text? = none) ∧
      (b.propertyType? x = none → called = assigned ∧
        called = (.error (.error (.call (.noSuchProperty b.typeName x))), some (.dynamic b))) ∧
      ∀ wanted, b.propertyType? x = some wanted →
        called = (.ok (), some (.dynamic (b.insert x v))) ∧
        assigned = match v.coerce wanted with
          | .ok w => (.ok (), some (.dynamic (b.insert x w)))
          | .error e => (.error (.error (.call (.conversion e))), some (.dynamic b)) := by
  intro called assigned
  have hcalled := Action.effect_setter hp hx v
  have hassigned := Action.effect_setProperty hq x v
  refine ⟨Action.agree_iff hp hq hx v, fun hnone => ?_, fun wanted hwanted => ?_⟩
  · rw [hnone] at hcalled hassigned
    exact ⟨hcalled.trans hassigned.symm, hcalled⟩
  · rw [hwanted] at hcalled hassigned
    exact ⟨hcalled, hassigned⟩

/-- A point whose age is a whole number, alone in its store. -/
def agedPoint : DynamicBean := ⟨"point", some (Dict.ofList [("age", .int)]), ∅, []⟩

def withAgedPoint : Binder Empty := { heap := (({} : Heap).alloc (.dynamic agedPoint)).2 }

theorem setter_law_of_an_age :
    withAgedPoint.heap.bean? ⟨0⟩ = some (.dynamic agedPoint) ∧ Speaks "set" "setAge" "age" ∧
      (Action.invoke (.object ⟨0⟩) "setAge" [.int 42] []).effect withAgedPoint ⟨0⟩ =
        (.ok (), some (.dynamic (agedPoint.insert "age" (.int 42)))) := by
  have hp : withAgedPoint.heap.bean? ⟨0⟩ = some (.dynamic agedPoint) := rfl
  have hx : Speaks "set" "setAge" "age" := ⟨'A', ['g', 'e'], rfl, by decide⟩
  exact ⟨hp, hx, ((setter_law hp hp hx (.int 42)).2.2 .int rfl).1⟩

/-- Where a number is declared, a text that is set stays a text, and one that is assigned does not.
-/
theorem setter_leaves_a_text : Speaks "set" "setAge" "age" ∧ ¬ Action.Agree agedPoint
    ((Action.invoke (.object ⟨0⟩) "setAge" [.text "42"] []).effect withAgedPoint ⟨0⟩)
    ((Action.setProperty (.object ⟨0⟩) "age" (.text "42")).effect withAgedPoint ⟨0⟩) := by
  have hp : withAgedPoint.heap.bean? ⟨0⟩ = some (.dynamic agedPoint) := rfl
  have hx : Speaks "set" "setAge" "age" := ⟨'A', ['g', 'e'], rfl, by decide⟩
  refine ⟨hx, ?_⟩
  rw [Action.agree_iff hp hp hx]
  intro h
  rcases h .int rfl with h | h | h <;> cases h

end XmlBinding
