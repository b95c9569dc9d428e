import XmlBinding.Recipe

/-!
# Objects under other names

An object is known by the number of its cell, and nothing reads more into the number than which
object is meant. So the objects in values and beans may be renamed: it makes no difference whether
that is done before a value is converted, a property assigned or a method called, or afterwards.
-/
namespace XmlBinding

namespace Dict

variable {κ α β : Type} [DecidableEq κ]

/-- The same keys with other values. -/
def mapValues (f : α → β) (d : Dict κ α) : Dict κ β := ⟨d.entries.map fun e => (e.1, f e.2)⟩

theorem get?_mapValues (f : α → β) (d : Dict κ α) (key : κ) :
    (d.mapValues f).get? key = (d.get? key).map f := by
  obtain ⟨es⟩ := d
  change lookup key (es.map fun e => (e.1, f e.2)) = (lookup key es).map f
  induction es with
  | nil => rfl
  | cons e rest ih =>
    rw [List.map_cons, lookup, lookup, ih]
    split <;> rfl

theorem mapValues_insert (f : α → β) (d : Dict κ α) (key : κ) (a : α) :
    (d.insert key a).mapValues f = (d.mapValues f).insert key (f a) := by
  obtain ⟨es⟩ := d
  refine congrArg Dict.mk ?_
  change (put key a es).map (fun e => (e.1, f e.2)) = put key (f a) (es.map fun e => (e.1, f e.2))
  induction es with
  | nil => rfl
  | cons e rest ih =>
    rw [List.map_cons, put, put]
    split
    · rfl
    · rw [List.map_cons, ih]

theorem mapValues_insertAll (f : α → β) (d : Dict κ α) (pairs : List (κ × α)) :
    (d.insertAll pairs).mapValues f =
      (d.mapValues f).insertAll (pairs.map fun p => (p.1, f p.2)) := by
  unfold insertAll
  induction pairs generalizing d with
  | nil => rfl
  | cons p rest ih => rw [List.map_cons, List.foldl_cons, List.foldl_cons, ih, mapValues_insert]

theorem mapValues_ofList (f : α → β) (pairs : List (κ × α)) :
    (ofList pairs).mapValues f = ofList (pairs.map fun p => (p.1, f p.2)) :=
  mapValues_insertAll f ∅ pairs

end Dict

/-! ### Values -/

namespace Value

variable (f : ObjectId → ObjectId) (typeName : ObjectId → String)

mutual

/-- The value with its objects renamed. -/
def rename (f : ObjectId → ObjectId) : Value → Value
  | .list items => .list (renameAll f items)
  | .object id => .object (f id)
  | other => other

def renameAll (f : ObjectId → ObjectId) : List Value → List Value
  | [] => []
  | item :: rest => item.rename f :: renameAll f rest

end

theorem renameAll_eq_map (vs : List Value) : renameAll f vs = vs.map (rename f) := by
  induction vs with
  | nil => rfl
  | cons v rest ih => rw [renameAll, ih, List.map_cons]

theorem rename_list (items : List Value) :
    (list items).rename f = .list (items.map (rename f)) := by
  rw [rename, renameAll_eq_map]

@[simp] theorem isNull_rename (v : Value) : (v.rename f).isNull = v.isNull := by
  cases v <;> rfl

mutual

/-- The text of a value names the types of its objects only. -/
theorem display_rename (v : Value) :
    (v.rename f).display typeName = v.display (typeName ∘ f) := by
  cases v with
  | list items => rw [rename, display, display, displayAll_rename items]
  | _ => rfl

theorem displayAll_rename : (vs : List Value) →
    displayAll typeName (renameAll f vs) = displayAll (typeName ∘ f) vs
  | [] => rfl
  | [v] => display_rename v
  | v :: w :: rest => by
    change (v.rename f).display typeName ++ ", " ++
      displayAll typeName (renameAll f (w :: rest)) = _
    rw [display_rename v, displayAll_rename (w :: rest)]
    rfl

end

/-- What is read from a text holds no objects. -/
theorem rename_of_read? {wanted : ScalarType} {s : String} {v : Value}
    (h : read? wanted s = some v) : v.rename f = v := by
  unfold read? at h
  cases wanted with
  | any | string =>
    cases h
    rfl
  | char =>
    dsimp only at h
    split at h <;> cases h
    rfl
  | bool | int | float | date | dateTime =>
    obtain ⟨_, _, rfl⟩ := Option.map_eq_some_iff.mp h
    rfl

theorem convert_rename (wanted : ScalarType) (v : Value) :
    (v.rename f).convert wanted = (v.convert wanted).map (rename f) := by
  cases v with
  | text s =>
    change convert wanted (.text s) = _
    unfold convert
    rw [coerce]
    split
    · next hread => exact congrArg Except.ok (rename_of_read? f hread).symm
    · rfl
  | _ => rfl

theorem takeText_rename (v : Value) :
    (v.rename f).takeText typeName = v.takeText (typeName ∘ f) := by
  cases v with
  | list items =>
    change Except.error (CallError.conversion ⟨((list items).rename f).display typeName, _⟩) = _
    rw [display_rename]
    rfl
  | _ => rfl

end Value

/-! ### Beans -/

namespace DynamicBean

variable (f : ObjectId → ObjectId)

def rename (b : DynamicBean) : DynamicBean :=
  { b with
    properties := b.properties.mapValues (Value.rename f)
    children := b.children.map (Value.rename f) }

theorem insert_rename (b : DynamicBean) (name : String) (v : Value) :
    (b.rename f).insert name (v.rename f) = (b.insert name v).rename f := by
  unfold insert rename
  rw [Dict.mapValues_insert]

theorem assign_rename (b : DynamicBean) (name : String) (v : Value) :
    (b.rename f).assign name (v.rename f) = (b.assign name v).map (rename f) := by
  unfold assign
  rw [insert_rename]
  change (if (b.propertyType? name).isSome then _ else _) = _
  split <;> rfl

theorem extended_rename (v : Value) (held : Option Value) :
    extended (v.rename f) (held.map (Value.rename f)) = (extended v held).rename f := by
  rcases held with _ | held
  · rfl
  · cases held with
    | list items =>
      rw [Option.map_some, Value.rename_list, extended, extended, Value.rename_list,
        List.map_append]
      rfl
    | _ => rfl

theorem extend_rename (b : DynamicBean) (name : String) (v : Value) :
    (b.rename f).extend name (v.rename f) = (b.extend name v).map (rename f) := by
  have hheld : (b.rename f).properties.get? name = (b.properties.get? name).map (Value.rename f) :=
    Dict.get?_mapValues ..
  unfold extend
  rw [hheld, extended_rename, insert_rename]
  change (if (b.propertyType? name).isSome then _ else _) = _
  split <;> rfl

end DynamicBean

namespace Convention

def rename (f : ObjectId → ObjectId) : Convention → Convention
  | .child v => .child (v.rename f)
  | .assign property v => .assign property (v.rename f)
  | .extend property v => .extend property (v.rename f)
  | .fetch property => .fetch property

/-- What a method does is told by its name and the number of its arguments. -/
theorem of?_rename (f : ObjectId → ObjectId) (method : String) (args : List Value) :
    of? method (args.map (Value.rename f)) = (of? method args).map (rename f) := by
  unfold of?
  generalize method.toList = cs
  rcases args with _ | ⟨v, _ | ⟨w, rest⟩⟩ <;> simp only [List.map_nil, List.map_cons]
  · split <;> first | rfl | contradiction
  · split
    · next heq =>
      cases heq
      rfl
    · next heq =>
      cases heq
      split <;> rfl
    · contradiction
    · simp_all
  · rfl

end Convention

namespace DynamicBean

variable (f : ObjectId → ObjectId)

theorem call_rename (b : DynamicBean) (method : String) (args : List Value) :
    (b.rename f).call method (args.map (Value.rename f)) =
      (b.call method args).map fun r => (r.1.rename f, r.2.rename f) := by
  unfold call
  rw [Convention.of?_rename, List.length_map]
  rcases Convention.of? method args with _ | convention
  · rfl
  · cases convention with
    | child v =>
      simp only [Option.map_some, Convention.rename, Except.map, Value.rename, rename,
        List.map_append, List.map_cons, List.map_nil]
    | assign property v =>
      change ((b.rename f).assign property (v.rename f)).map _ = ((b.assign property v).map _).map _
      rw [assign_rename]
      cases b.assign property v <;> rfl
    | extend property v =>
      change ((b.rename f).extend property (v.rename f)).map _ = ((b.extend property v).map _).map _
      rw [extend_rename]
      cases b.extend property v <;> rfl
    | fetch property =>
      have hheld : (b.rename f).properties.get? property =
          (b.properties.get? property).map (Value.rename f) := Dict.get?_mapValues ..
      simp only [Option.map_some, Convention.rename, Except.map, hheld]
      cases b.properties.get? property <;> rfl

end DynamicBean

namespace Bean

variable (f : ObjectId → ObjectId) (typeName : ObjectId → String)

/-- The bean with the objects that it knows renamed. -/
def rename : Bean → Bean
  | .directory people owner => .directory (people.map f) (owner.map f)
  | .child parent touched => .child (parent.map f) touched
  | .dynamic bean => .dynamic (bean.rename f)
  | other => other

@[simp] theorem typeName_rename (b : Bean) : (b.rename f).typeName = b.typeName := by
  cases b <;> rfl

@[simp] theorem propertyType?_rename (b : Bean) (name : String) :
    (b.rename f).propertyType? name = b.propertyType? name := by
  cases b <;> rfl

@[simp] theorem signature?_rename (b : Bean) (method : String) (arity : Nat) :
    (b.rename f).signature? method arity = b.signature? method arity := by
  cases b <;> rfl

theorem assign_rename (b : Bean) (property : String) (v : Value) :
    (b.rename f).assign typeName property (v.rename f) =
      (b.assign (typeName ∘ f) property v).map (rename f) := by
  cases b with
  | person name age nickname =>
    cases v with
    | text s | int n =>
      simp only [rename, assign, Value.rename]
      split <;> rfl
    | _ =>
      simp only [rename, assign, Value.rename]
      rfl
  | basket items label =>
    simp only [rename, assign, Value.takeText_rename]
    cases v.takeText (typeName ∘ f) with
    | error e => rfl
    | ok s =>
      simp only [bind, Except.bind]
      split
      · rfl
      · split <;> rfl
  | dynamic bean =>
    simp only [rename, assign, DynamicBean.assign_rename]
    cases bean.assign property v <;> rfl
  | directory people owner => rfl
  | child parent touched => rfl

/-- What becomes of the answer and the bean of a call. -/
def renameCalled (r : Value × Bean) : Value × Bean := (r.1.rename f, r.2.rename f)

theorem call_person_rename (name : String) (age : Int64) (nickname : Option String)
    (method : String) (args : List Value) :
    (person name age nickname).call typeName method (args.map (Value.rename f)) =
      ((person name age nickname).call (typeName ∘ f) method args).map (renameCalled f) := by
  have hassign : ∀ (property : String) (v : Value),
      (assign typeName (.person name age nickname) property (v.rename f)).map (Value.null, ·) =
        ((assign (typeName ∘ f) (.person name age nickname) property v).map (Value.null, ·)).map
          (renameCalled f) := by
    intro property v
    have h : assign typeName (.person name age nickname) property (v.rename f) = _ :=
      (person name age nickname).assign_rename f typeName property v
    rw [h]
    cases assign (typeName ∘ f) (.person name age nickname) property v <;> rfl
  rcases args with _ | ⟨v, _ | ⟨w, _ | ⟨u, rest⟩⟩⟩ <;>
    simp only [call, List.map_cons, List.map_nil, List.length_map, List.length_cons]
  · split <;> first | rfl | contradiction
  · split
    · next heq =>
      cases heq
      exact hassign "name" v
    · next heq =>
      cases heq
      exact hassign "age" v
    · next heq => simp at heq
    · next heq => simp at heq
    · simp_all
      rfl
  · split
    · next heq => simp at heq
    · next heq => simp at heq
    · next heq =>
      cases heq
      simp only [Value.takeText_rename]
      cases w.takeText (typeName ∘ f) <;> cases v.takeText (typeName ∘ f) <;> rfl
    · next heq => simp at heq
    · simp_all
      rfl
  · rfl

theorem call_directory_rename (people : List ObjectId) (owner : Option ObjectId) (method : String)
    (args : List Value) :
    ((directory people owner).rename f).call typeName method (args.map (Value.rename f)) =
      ((directory people owner).call (typeName ∘ f) method args).map (renameCalled f) := by
  rcases args with _ | ⟨v, _ | ⟨w, rest⟩⟩
  · simp only [rename, call, List.map_nil]
    rfl
  · cases v <;> simp only [rename, call, List.map_cons, List.map_nil, Value.rename]
    case object id =>
      split
      · next heq =>
        cases heq
        simp [Except.map, renameCalled, rename, Value.rename]
      · next heq =>
        cases heq
        rfl
      · simp_all
        rfl
    all_goals rfl
  · simp only [rename, call, List.map_cons, List.length_cons, List.length_map]
    split
    · next heq => simp at heq
    · next heq => simp at heq
    · rfl

theorem call_child_rename (parent : Option ObjectId) (touched : Nat) (method : String)
    (args : List Value) :
    ((child parent touched).rename f).call typeName method (args.map (Value.rename f)) =
      ((child parent touched).call (typeName ∘ f) method args).map (renameCalled f) := by
  simp only [rename, call, List.getLast?_map, List.length_map]
  rcases args.getLast? with _ | v
  · simp only [Option.map_none]
    split <;> first | rfl | contradiction
  · cases v <;> simp only [Option.map_some, Value.rename]
    case object id =>
      split
      · next heq =>
        cases heq
        rfl
      · contradiction
      · simp_all
        rfl
    all_goals rfl

/-- An object that is called under another name answers under other names. -/
theorem call_rename (b : Bean) (method : String) (args : List Value) :
    (b.rename f).call typeName method (args.map (Value.rename f)) =
      (b.call (typeName ∘ f) method args).map (renameCalled f) := by
  cases b with
  | person name age nickname => exact call_person_rename ..
  | directory people owner => exact call_directory_rename ..
  | child parent touched => exact call_child_rename ..
  | dynamic bean =>
    simp only [rename, call, DynamicBean.call_rename]
    cases bean.call method args <;> rfl
  | basket items label =>
    simp only [rename, call, List.length_map]
    rfl

theorem copyAttributes_rename (names : List String) (attrs : Attributes) (b : Bean) :
    (b.rename f).copyAttributes names attrs = (b.copyAttributes names attrs).rename f := by
  cases b with
  | dynamic bean =>
    refine congrArg dynamic ?_
    induction names generalizing bean with
    | nil => rfl
    | cons name rest ih =>
      rw [List.foldl_cons, List.foldl_cons, ← ih]
      cases attrs.value? name with
      | none => rfl
      | some text => exact congrArg (rest.foldl _) (bean.insert_rename f name (.text text))
  | _ => rfl

end Bean

end XmlBinding
