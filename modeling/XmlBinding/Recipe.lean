import XmlBinding.Error
import XmlBinding.Heap

/-!
# Recipes

How to make values and objects anew. Classes and factories are recipes: following one twice makes
two objects. A recipe may refer to objects that were given a label before.
-/
namespace XmlBinding

mutual

inductive ValueRecipe
  | given (v : Value)
  | list (items : List ValueRecipe)
  | bean (recipe : BeanRecipe)
  | labelled (label : String)

/-- How to make an object: an empty one of a fixed kind, or a dynamic bean with declared properties
and initial values. -/
inductive BeanRecipe
  | person
  | directory
  | basket
  | child
  | dynamic (typeName : String) (declared : Option (List (String × ScalarType)))
      (initial : List (String × ValueRecipe))

end

instance : Inhabited ValueRecipe := ⟨.given .null⟩
instance : Inhabited BeanRecipe := ⟨.person⟩

abbrev Labels := Dict String ObjectId

mutual

def ValueRecipe.make (labels : Labels) (h : Heap) : ValueRecipe → Value × Heap
  | .given v => (v, h)
  | .list items =>
    let (vs, h) := makeAll labels h items
    (.list vs, h)
  | .bean recipe =>
    let (id, h) := recipe.make labels h
    (.object id, h)
  | .labelled label => match labels.get? label with
    | some id => (.object id, h)
    | none => (.null, h)

def makeAll (labels : Labels) (h : Heap) : List ValueRecipe → List Value × Heap
  | [] => ([], h)
  | item :: rest =>
    let (v, h) := item.make labels h
    let (vs, h) := makeAll labels h rest
    (v :: vs, h)

def BeanRecipe.make (labels : Labels) (h : Heap) : BeanRecipe → ObjectId × Heap
  | .person => h.alloc (.person "" 0 none)
  | .directory => h.alloc (.directory [] none)
  | .basket => h.alloc (.basket [] "")
  | .child => h.alloc (.child none 0)
  | .dynamic typeName declared initial =>
    let (properties, h) := makeInitial labels h initial
    h.alloc (.dynamic
      { typeName, declared := declared.map Dict.ofList, properties := Dict.ofList properties })

def makeInitial (labels : Labels) (h : Heap) :
    List (String × ValueRecipe) → List (String × Value) × Heap
  | [] => ([], h)
  | (name, item) :: rest =>
    let (v, h) := item.make labels h
    let (vs, h) := makeInitial labels h rest
    ((name, v) :: vs, h)

end

/-- What a factory hands out. Besides recipes there is any other way to make a value for an element,
told from its path, the object store and its attributes; it may change the object store, also where
it fails. -/
inductive Product
  | bean (recipe : BeanRecipe)
  | value (recipe : ValueRecipe)
  | computed (make : String → Heap → Attributes → Except RuleError Value × Heap)

/-- A factory refuses elements that carry the attribute `refuse`; it copies the attributes `copy`
into the properties of a dynamic bean that it makes. -/
structure Factory where
  product : Product
  refuse : Option String := none
  copy : List String := []

/-- Copy attributes that are present into the properties of a dynamic bean. -/
def Bean.copyAttributes (names : List String) (attrs : Attributes) : Bean → Bean
  | .dynamic bean => .dynamic <| names.foldl (fun bean name =>
      match attrs.value? name with
      | some v => bean.insert name (.text v)
      | none => bean) bean
  | other => other

/-- Make the product for the element at a path, or say why there is none. -/
def Factory.make (f : Factory) (labels : Labels) (h : Heap) (path : String) (attrs : Attributes) :
    Except RuleError Value × Heap :=
  match f.refuse.bind attrs.value? with
  | some reason => (.error (.creation ("refused " ++ reason)), h)
  | none => match f.product with
    | .value recipe =>
      let (v, h) := recipe.make labels h
      (.ok v, h)
    | .bean recipe =>
      let (id, h) := recipe.make labels h
      (.ok (.object id), h.modify id fun c =>
        { c with bean := c.bean.copyAttributes f.copy attrs })
    | .computed make => make path h attrs

end XmlBinding
