import XmlBinding.Bean

/-!
# The object store

Every object lives in a cell of the store and is known by the number of its cell. While one of its
methods runs, or while somebody holds it for writing, an object is held: it shows no type of its
own and cannot be called.
-/
namespace XmlBinding

structure Cell where
  bean : Bean
  held : Bool := false
  deriving Inhabited

structure Heap where
  cells : Array Cell := #[]
  deriving Inhabited

namespace Heap

def alloc (h : Heap) (bean : Bean) : ObjectId × Heap :=
  (⟨h.cells.size⟩, ⟨h.cells.push { bean := bean }⟩)

def cell? (h : Heap) (id : ObjectId) : Option Cell := h.cells[id.index]?

/-- The object, unless it is held. -/
def bean? (h : Heap) (id : ObjectId) : Option Bean :=
  match h.cell? id with
  | some c => if c.held then none else some c.bean
  | none => none

/-- The name of an object's type; a held object does not show it. -/
def typeName (h : Heap) (id : ObjectId) : String :=
  match h.bean? id with
  | some bean => bean.typeName
  | none => "<borrowed>"

def modify (h : Heap) (id : ObjectId) (f : Cell → Cell) : Heap := ⟨h.cells.modify id.index f⟩

def setHeld (h : Heap) (id : ObjectId) (held : Bool) : Heap := h.modify id ({ · with held })

def setBean (h : Heap) (id : ObjectId) (bean : Bean) : Heap := h.modify id ({ · with bean })

/-- The object behind a value, ready to be changed. -/
def reach (h : Heap) (target : Value) : Except CallError (ObjectId × Bean) :=
  match target with
  | .object id => match h.bean? id with
    | some bean => .ok (id, bean)
    | none => .error (.busy (h.typeName id))
  | other => .error (.notAnObject (other.kind h.typeName))

/-- Whether a value is an object with this property to write. -/
def isWritable (h : Heap) (target : Value) (property : String) : Bool :=
  match target with
  | .object id => match h.bean? id with
    | some bean => (bean.propertyType? property).isSome
    | none => false
  | _ => false

/-- Store the bean that an operation on `id` leaves behind; a failed operation leaves the old one.
-/
def commit {α : Type} (h : Heap) (id : ObjectId) :
    Except CallError (α × Bean) → Except CallError α × Heap
  | .ok (a, bean) => (.ok a, h.setBean id bean)
  | .error e => (.error e, h)

/-- Call a method of `id`, which is held meanwhile. -/
def call (h : Heap) (id : ObjectId) (bean : Bean) (method : String) (args : List Value) :
    Except CallError Value × Heap :=
  h.commit id (bean.call (h.setHeld id true).typeName method args)

/-- Assign a property of `id`, which is held meanwhile. -/
def assign (h : Heap) (id : ObjectId) (bean : Bean) (property : String) (v : Value) :
    Except CallError Unit × Heap :=
  h.commit id ((bean.assign (h.setHeld id true).typeName property v).map ((), ·))

/-- Convert a value to a property's type and assign it. -/
def setProperty (h : Heap) (target : Value) (property : String) (v : Value) :
    Except CallError Unit × Heap :=
  match h.reach target with
  | .error e => (.error e, h)
  | .ok (id, bean) => match bean.propertyType? property with
    | none => (.error (.noSuchProperty bean.typeName property), h)
    | some wanted => match v.convert wanted with
      | .error e => (.error e, h)
      | .ok v => h.assign id bean property v

/-- Convert arguments one by one; where no type is given, any value will do. -/
def convertAll (types : List ScalarType) : List Value → Except CallError (List Value)
  | [] => .ok []
  | v :: rest => do
    let v ← v.convert (types.headD .any)
    return v :: (← convertAll types.tail rest)

/-- The object behind a value and the arguments in the types that the caller names or, when the
caller names none, in those that the object declares. -/
def prepare (h : Heap) (target : Value) (method : String) (args : List Value)
    (types : List ScalarType) : Except CallError (ObjectId × Bean × List Value) := do
  let (id, bean) ← h.reach target
  let types := if types.isEmpty then (bean.signature? method args.length).getD [] else types
  return (id, bean, ← convertAll types args)

end Heap

end XmlBinding
