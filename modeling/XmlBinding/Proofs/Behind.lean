import XmlBinding.Proofs.Objects
import XmlBinding.Proofs.Renaming
import Mathlib.Logic.Function.Basic

/-!
# Stores behind other stores

A store that stands behind another one works as it does alone, under other names, and the objects in
front are left as they are. That is so for what is done with objects that are there. What makes
objects is of the same kind if it builds them anew: a recipe is, unless it refers to an object that
was there before.
-/
namespace XmlBinding

def Cell.rename (f : ObjectId → ObjectId) (c : Cell) : Cell := { c with bean := c.bean.rename f }

namespace Heap

/-- The name that an object of a store gets where the store stands behind `front`. -/
def place (front : Heap) (id : ObjectId) : ObjectId := ⟨front.size + id.index⟩

/-- The objects of one store, and behind them those of another. -/
def behind (front h : Heap) : Heap := ⟨front.cells ++ h.cells.map (Cell.rename front.place)⟩

variable (front h : Heap) (id : ObjectId)

theorem place_injective : Function.Injective front.place := by
  rintro ⟨i⟩ ⟨j⟩ hij
  have hindex : front.size + i = front.size + j := congrArg ObjectId.index hij
  exact congrArg ObjectId.mk (Nat.add_left_cancel hindex)

theorem behind_empty : front.behind {} = front := by
  unfold behind
  rw [Array.map_empty, Array.append_empty]

theorem cell?_behind :
    (front.behind h).cell? (front.place id) = (h.cell? id).map (Cell.rename front.place) := by
  change (front.cells ++ h.cells.map _)[front.cells.size + id.index]? = h.cells[id.index]?.map _
  rw [Array.getElem?_append_right (Nat.le_add_right _ _), Nat.add_sub_cancel_left,
    Array.getElem?_map]

theorem bean?_behind :
    (front.behind h).bean? (front.place id) = (h.bean? id).map (Bean.rename front.place) := by
  rw [bean?_eq_bind, bean?_eq_bind, cell?_behind]
  cases h.cell? id with
  | none => rfl
  | some c =>
    change (if c.held then none else some (c.bean.rename _)) =
      (if c.held then none else some c.bean).map _
    split <;> rfl

theorem typeName_behind : (front.behind h).typeName ∘ front.place = h.typeName := by
  funext id
  change (front.behind h).typeName (front.place id) = h.typeName id
  unfold typeName
  rw [bean?_behind]
  cases h.bean? id with
  | none => rfl
  | some bean => exact bean.typeName_rename _

theorem alloc_behind (bean : Bean) : (front.behind h).alloc (bean.rename front.place) =
    (front.place (h.alloc bean).1, front.behind (h.alloc bean).2) := by
  have hsize : (front.behind h).cells.size = front.size + h.cells.size := by
    unfold behind
    rw [Array.size_append, Array.size_map]
    rfl
  refine Prod.ext (congrArg ObjectId.mk hsize) (congrArg Heap.mk ?_)
  change (front.cells ++ h.cells.map _).push _ = front.cells ++ (h.cells.push _).map _
  rw [Array.map_push, ← Array.append_push]
  rfl

/-- A change of one object. -/
theorem modify_behind {g g' : Cell → Cell}
    (hg : ∀ c, g' (c.rename front.place) = (g c).rename front.place) :
    (front.behind h).modify (front.place id) g' = front.behind (h.modify id g) := by
  refine congrArg Heap.mk (Array.ext_getElem? fun i => ?_)
  change ((front.cells ++ h.cells.map _).modify (front.cells.size + id.index) g')[i]? =
    (front.cells ++ (h.cells.modify id.index g).map _)[i]?
  rw [Array.getElem?_modify, Array.getElem?_append, Array.getElem?_append, Array.getElem?_map,
    Array.getElem?_map, Array.getElem?_modify]
  by_cases hi : i < front.cells.size
  · rw [if_neg (by omega), if_pos hi, if_pos hi]
  · rw [if_neg hi, if_neg hi]
    by_cases hid : id.index = i - front.cells.size
    · rw [if_pos (by omega), if_pos hid]
      cases h.cells[i - front.cells.size]? with
      | none => rfl
      | some c => exact congrArg some (hg c)
    · rw [if_neg (by omega), if_neg hid]

theorem setHeld_behind (held : Bool) :
    (front.behind h).setHeld (front.place id) held = front.behind (h.setHeld id held) :=
  modify_behind front h id fun _ => rfl

theorem setBean_behind (bean : Bean) : (front.behind h).setBean (front.place id)
    (bean.rename front.place) = front.behind (h.setBean id bean) :=
  modify_behind front h id fun _ => rfl

theorem reach_behind (target : Value) : (front.behind h).reach (target.rename front.place) =
    (h.reach target).map fun r => (front.place r.1, r.2.rename front.place) := by
  have htype := front.typeName_behind h
  cases target with
  | object id =>
    have htypeId : (front.behind h).typeName (front.place id) = h.typeName id := congrFun htype id
    simp only [Value.rename, reach, bean?_behind, htypeId]
    cases h.bean? id <;> rfl
  | _ => rfl

theorem isWritable_behind (target : Value) (property : String) :
    (front.behind h).isWritable (target.rename front.place) property =
      h.isWritable target property := by
  cases target with
  | object id =>
    simp only [Value.rename, isWritable, bean?_behind]
    cases h.bean? id with
    | none => rfl
    | some bean => exact congrArg Option.isSome (bean.propertyType?_rename _ property)
  | _ => rfl

theorem convertAll_rename (f : ObjectId → ObjectId) (types : List ScalarType)
    (args : List Value) : convertAll types (args.map (Value.rename f)) =
      (convertAll types args).map (List.map (Value.rename f)) := by
  induction args generalizing types with
  | nil => rfl
  | cons v rest ih =>
    rw [List.map_cons, convertAll, convertAll, Value.convert_rename, ih]
    cases v.convert (types.headD .any) with
    | error e => rfl
    | ok w => cases convertAll types.tail rest <;> rfl

theorem prepare_behind (target : Value) (method : String) (args : List Value)
    (types : List ScalarType) :
    (front.behind h).prepare (target.rename front.place) method
        (args.map (Value.rename front.place)) types =
      (h.prepare target method args types).map fun r =>
        (front.place r.1, r.2.1.rename front.place, r.2.2.map (Value.rename front.place)) := by
  unfold prepare
  rw [reach_behind]
  cases h.reach target with
  | error e => rfl
  | ok r =>
    simp only [Except.map, bind, Except.bind, List.length_map, Bean.signature?_rename,
      convertAll_rename]
    cases convertAll _ args <;> rfl

theorem call_behind (bean : Bean) (method : String) (args : List Value) :
    (front.behind h).call (front.place id) (bean.rename front.place) method
        (args.map (Value.rename front.place)) =
      ((h.call id bean method args).1.map (Value.rename front.place),
        front.behind (h.call id bean method args).2) := by
  unfold call
  rw [setHeld_behind, Bean.call_rename, typeName_behind]
  cases bean.call (h.setHeld id true).typeName method args with
  | error e => rfl
  | ok r => exact Prod.ext rfl (setBean_behind ..)

theorem setProperty_behind (target : Value) (property : String) (v : Value) :
    (front.behind h).setProperty (target.rename front.place) property (v.rename front.place) =
      ((h.setProperty target property v).1, front.behind (h.setProperty target property v).2) := by
  unfold setProperty
  rw [reach_behind]
  cases h.reach target with
  | error e => rfl
  | ok r =>
    obtain ⟨id, bean⟩ := r
    simp only [Except.map, Bean.propertyType?_rename, Bean.typeName_rename]
    cases bean.propertyType? property with
    | none => rfl
    | some wanted =>
      simp only [Value.convert_rename]
      cases v.convert wanted with
      | error e => rfl
      | ok w =>
        simp only [Except.map, assign, setHeld_behind, Bean.assign_rename, typeName_behind]
        cases bean.assign (h.setHeld id true).typeName property w with
        | error e => rfl
        | ok made => exact Prod.ext rfl (setBean_behind ..)

end Heap

/-! ### Making things anew -/

/-- A way to make something that takes no notice of what stands in front of the store, and makes the
same there. -/
def BuildsAnew {α : Type} (rename : (ObjectId → ObjectId) → α → α) (make : Heap → α × Heap) :
    Prop :=
  ∀ front h : Heap,
    make (front.behind h) = (rename front.place (make h).1, front.behind (make h).2)

/-- No renaming changes the value: it holds no objects. -/
def Value.Objectless (v : Value) : Prop := ∀ f, v.rename f = v

mutual

/-- The recipe refers to no object that was there before. -/
def ValueRecipe.Closed (labels : Labels) : ValueRecipe → Prop
  | .given v => v.Objectless
  | .list items => closedAll labels items
  | .bean recipe => recipe.Closed labels
  | .labelled label => labels.get? label = none

def closedAll (labels : Labels) : List ValueRecipe → Prop
  | [] => True
  | item :: rest => item.Closed labels ∧ closedAll labels rest

def BeanRecipe.Closed (labels : Labels) : BeanRecipe → Prop
  | .dynamic _ _ initial => closedInitial labels initial
  | .person | .directory | .basket | .child => True

def closedInitial (labels : Labels) : List (String × ValueRecipe) → Prop
  | [] => True
  | (_, item) :: rest => item.Closed labels ∧ closedInitial labels rest

end

section Recipes

variable {labels : Labels}

mutual

theorem ValueRecipe.buildsAnew (recipe : ValueRecipe) (h : recipe.Closed labels) :
    BuildsAnew Value.rename (recipe.make labels ·) := by
  intro front heap
  cases recipe with
  | given v =>
    have hv : v.rename front.place = v := h front.place
    simp only [ValueRecipe.make, hv]
  | list items =>
    have hitems : makeAll labels (front.behind heap) items = _ :=
      buildsAnew_makeAll items h front heap
    simp only [ValueRecipe.make, hitems, Value.rename_list]
  | bean recipe =>
    have hbean : recipe.make labels (front.behind heap) = _ := recipe.buildsAnew h front heap
    simp only [ValueRecipe.make, hbean, Value.rename]
  | labelled label =>
    have hnone : labels.get? label = none := h
    simp only [ValueRecipe.make, hnone, Value.rename]

theorem buildsAnew_makeAll (items : List ValueRecipe) (h : closedAll labels items) :
    BuildsAnew (fun f => List.map (Value.rename f)) (makeAll labels · items) := by
  intro front heap
  cases items with
  | nil => rfl
  | cons item rest =>
    obtain ⟨hitem, hrest⟩ := h
    have hfirst : item.make labels (front.behind heap) = _ := item.buildsAnew hitem front heap
    have hothers : makeAll labels (front.behind (item.make labels heap).2) rest = _ :=
      buildsAnew_makeAll rest hrest front _
    simp only [makeAll, hfirst, hothers, List.map_cons]

/-- A bean that is made by a recipe is new, and so are the beans in it. -/
theorem BeanRecipe.buildsAnew (recipe : BeanRecipe) (h : recipe.Closed labels) :
    BuildsAnew (fun f id => f id) (recipe.make labels ·) := by
  intro front heap
  cases recipe with
  | person => exact front.alloc_behind heap (.person "" 0 none)
  | directory => exact front.alloc_behind heap (.directory [] none)
  | basket => exact front.alloc_behind heap (.basket [] "")
  | child => exact front.alloc_behind heap (.child none 0)
  | dynamic typeName declared initial =>
    have hinitial : makeInitial labels (front.behind heap) initial = _ :=
      buildsAnew_makeInitial initial h front heap
    simp only [BeanRecipe.make, hinitial]
    rw [← Dict.mapValues_ofList]
    exact front.alloc_behind (makeInitial labels heap initial).2 (.dynamic
      { typeName, declared := declared.map Dict.ofList
        properties := Dict.ofList (makeInitial labels heap initial).1 })

theorem buildsAnew_makeInitial (initial : List (String × ValueRecipe))
    (h : closedInitial labels initial) :
    BuildsAnew (fun f => List.map fun p => (p.1, p.2.rename f)) (makeInitial labels · initial) := by
  intro front heap
  cases initial with
  | nil => rfl
  | cons item rest =>
    obtain ⟨name, item⟩ := item
    obtain ⟨hitem, hrest⟩ := h
    have hfirst : item.make labels (front.behind heap) = _ := item.buildsAnew hitem front heap
    have hothers : makeInitial labels (front.behind (item.make labels heap).2) rest = _ :=
      buildsAnew_makeInitial rest hrest front _
    simp only [makeInitial, hfirst, hothers, List.map_cons]

end

/-- What the factory hands out refers to no object that was there before. Any other way to make a
value has to build it anew, for every element. -/
def Product.Closed (labels : Labels) : Product → Prop
  | .bean recipe => recipe.Closed labels
  | .value recipe => recipe.Closed labels
  | .computed make =>
    ∀ path attrs, BuildsAnew (fun f => Except.map (Value.rename f)) (make path · attrs)

theorem Factory.buildsAnew (factory : Factory) (h : factory.product.Closed labels) (path : String)
    (attrs : Attributes) :
    BuildsAnew (fun f => Except.map (Value.rename f)) (factory.make labels · path attrs) := by
  intro front heap
  obtain ⟨product, refuse, copy⟩ := factory
  simp only [Factory.make]
  cases refuse.bind attrs.value? with
  | some reason => rfl
  | none =>
    cases product with
    | value recipe =>
      have hvalue : recipe.make labels (front.behind heap) = _ := recipe.buildsAnew h front heap
      simp only [hvalue, Except.map]
    | bean recipe =>
      have hbean : recipe.make labels (front.behind heap) = _ := recipe.buildsAnew h front heap
      simp only [hbean, Except.map, Value.rename]
      refine Prod.ext rfl (front.modify_behind _ _ fun c => ?_)
      exact congrArg (Cell.mk · c.held) (c.bean.copyAttributes_rename front.place copy attrs)
    | computed make => exact h path attrs front heap

end Recipes

end XmlBinding
