import XmlBinding.Heap
import XmlBinding.Recipe

/-!
# Objects in the store

What a new object, an assigned property and an added child change in the object store. Only the
object that is worked on changes, and the others show what they showed before.
-/
namespace XmlBinding

namespace Heap

/-- The number of objects in the store. -/
def size (h : Heap) : Nat := h.cells.size

/-- The identity that the next new object gets. -/
def next (h : Heap) : ObjectId := ⟨h.size⟩

/-- The objects that were made since there were `low` of them. -/
def since (h : Heap) (low : Nat) (id : ObjectId) : Option Bean :=
  if low ≤ id.index then h.bean? id else none

theorem bean?_eq_bind (h : Heap) (id : ObjectId) :
    h.bean? id = (h.cell? id).bind fun c => if c.held then none else some c.bean := by
  unfold bean?
  cases h.cell? id <;> rfl

theorem lt_size {h : Heap} {id : ObjectId} {bean : Bean} (hb : h.bean? id = some bean) :
    id.index < h.size := by
  refine Nat.lt_of_not_le fun hge => ?_
  have hnone : h.cell? id = none := Array.getElem?_eq_none hge
  rw [bean?_eq_bind, hnone] at hb
  cases hb

theorem since_eq_some {h : Heap} {low : Nat} {id : ObjectId} {bean : Bean} :
    h.since low id = some bean ↔ low ≤ id.index ∧ h.bean? id = some bean := by
  unfold since
  split
  · next hle => rw [and_iff_right hle]
  · next hlt => exact iff_of_false nofun fun hand => hlt hand.1

/-! ### New objects -/

theorem size_alloc (h : Heap) (bean : Bean) : (h.alloc bean).2.size = h.size + 1 :=
  Array.size_push _

theorem bean?_alloc (h : Heap) (bean : Bean) (id : ObjectId) :
    (h.alloc bean).2.bean? id = if id = h.next then some bean else h.bean? id := by
  have hcell : (h.alloc bean).2.cell? id =
      if id.index = h.size then some { bean := bean } else h.cell? id :=
    Array.getElem?_push
  obtain ⟨index⟩ := id
  rw [bean?_eq_bind, bean?_eq_bind, hcell]
  by_cases hi : index = h.size
  · have heq : (⟨index⟩ : ObjectId) = h.next := congrArg ObjectId.mk hi
    rw [if_pos hi, if_pos heq]
    rfl
  · have hne : (⟨index⟩ : ObjectId) ≠ h.next := fun heq => hi (congrArg ObjectId.index heq)
    rw [if_neg hi, if_neg hne]

/-! ### Changed objects -/

theorem cell?_modify (h : Heap) (id : ObjectId) (f : Cell → Cell) (other : ObjectId) :
    (h.modify id f).cell? other = if other = id then (h.cell? id).map f else h.cell? other := by
  have hcell : (h.modify id f).cell? other =
      if id.index = other.index then (h.cell? other).map f else h.cell? other :=
    Array.getElem?_modify
  obtain ⟨index⟩ := id
  obtain ⟨own⟩ := other
  rw [hcell]
  by_cases hi : own = index
  · subst hi
    rw [if_pos rfl, if_pos rfl]
  · have hne : (⟨own⟩ : ObjectId) ≠ ⟨index⟩ := fun heq => hi (congrArg ObjectId.index heq)
    rw [if_neg (Ne.symm hi), if_neg hne]

theorem size_setBean (h : Heap) (id : ObjectId) (bean : Bean) : (h.setBean id bean).size = h.size :=
  Array.size_modify

theorem bean?_setBean (h : Heap) (id : ObjectId) (bean : Bean) (other : ObjectId) :
    (h.setBean id bean).bean? other =
      if other = id then (h.bean? id).map fun _ => bean else h.bean? other := by
  unfold setBean
  rw [bean?_eq_bind, bean?_eq_bind, bean?_eq_bind, cell?_modify]
  by_cases heq : other = id
  · rw [if_pos heq, if_pos heq]
    cases h.cell? id with
    | none => rfl
    | some c =>
      change (if c.held then none else some bean) =
        (if c.held then none else some c.bean).map fun _ => bean
      split <;> rfl
  · rw [if_neg heq, if_neg heq]

theorem bean?_setBean_self {h : Heap} {id : ObjectId} {old : Bean} (hb : h.bean? id = some old)
    (bean : Bean) : (h.setBean id bean).bean? id = some bean := by
  rw [bean?_setBean, if_pos rfl, hb]
  rfl

theorem bean?_setBean_of_ne (h : Heap) {id other : ObjectId} (hne : other ≠ id) (bean : Bean) :
    (h.setBean id bean).bean? other = h.bean? other := by
  rw [bean?_setBean, if_neg hne]

/-- Nothing is copied into a bean if no attribute is to be copied. -/
theorem modify_copyAttributes_nil (h : Heap) (id : ObjectId) (attrs : Attributes) :
    (h.modify id fun c => { c with bean := c.bean.copyAttributes [] attrs }) = h := by
  have hcopy : ∀ c : Cell, { c with bean := c.bean.copyAttributes [] attrs } = c := by
    rintro ⟨bean, held⟩
    cases bean <;> rfl
  obtain ⟨cells⟩ := h
  refine congrArg Heap.mk (Array.ext_getElem? fun i => ?_)
  rw [Array.getElem?_modify]
  split
  · cases cells[i]? with
    | none => rfl
    | some c => exact congrArg some (hcopy c)
  · rfl

/-! ### One object changes -/

/-- Objects may have been made, and of the older ones only `id`, which shows `bean`, may have
changed. -/
structure Changes (h h' : Heap) (id : ObjectId) (bean : Bean) : Prop where
  shown : h'.bean? id = some bean
  grows : h.size ≤ h'.size
  others : ∀ other : ObjectId, other.index < h.size → other ≠ id → h'.bean? other = h.bean? other

theorem Changes.refl {h : Heap} {id : ObjectId} {bean : Bean} (hb : h.bean? id = some bean) :
    Changes h h id bean := ⟨hb, Nat.le_refl _, fun _ _ _ => rfl⟩

theorem Changes.trans {h m h' : Heap} {id : ObjectId} {mid bean : Bean} (hm : Changes h m id mid)
    (hlast : Changes m h' id bean) : Changes h h' id bean where
  shown := hlast.shown
  grows := Nat.le_trans hm.grows hlast.grows
  others other hold hne := by
    rw [hlast.others other (Nat.lt_of_lt_of_le hold hm.grows) hne, hm.others other hold hne]

theorem changes_setBean {h : Heap} {id : ObjectId} {old : Bean} (hb : h.bean? id = some old)
    (bean : Bean) : Changes h (h.setBean id bean) id bean where
  shown := bean?_setBean_self hb bean
  grows := Nat.le_of_eq (size_setBean h id bean).symm
  others _ _ hne := bean?_setBean_of_ne h hne bean

theorem changes_alloc (h : Heap) (bean : Bean) : Changes h (h.alloc bean).2 h.next bean where
  shown := by rw [bean?_alloc, if_pos rfl]
  grows := by
    rw [size_alloc]
    exact Nat.le_succ _
  others other hold hne := by rw [bean?_alloc, if_neg hne]

/-- Between `h` and `h'` an object was made that shows `own`, others were made inside it between `h₁`
and `h₂`, and then it was linked to `parent`, which shows `final` after more was linked to it
between `h₃` and `h'`. -/
structure Grafted (h h₁ h₂ h₃ h' : Heap) (parent : ObjectId) (own final : Bean) : Prop where
  changes : h.Changes h' parent final
  own : h'.since h.size h.next = some own
  inside : ∀ id bean, h₂.since h₁.size id = some bean → h'.since h.size id = some bean
  behind : ∀ id bean, h'.since h₃.size id = some bean → h'.since h.size id = some bean
  born : h.size < h₁.size
  linked : h₂.size ≤ h₃.size

theorem grafted {h h₁ h₂ m h₃ h' : Heap} {parent : ObjectId} {newborn grown own linked final : Bean}
    (hborn : h.Changes h₁ h.next newborn) (hgrown : h₁.Changes h₂ h.next grown)
    (hown : h₂.Changes m h.next own) (hlinked : m.Changes h₃ parent linked)
    (hfinal : h₃.Changes h' parent final) (hparent : parent.index < h.size) :
    Grafted h h₁ h₂ h₃ h' parent own final := by
  have hfresh : ∀ other : ObjectId, other.index < h.size → other ≠ h.next := by
    rintro other hlt rfl
    exact Nat.lt_irrefl _ hlt
  have hsize₁ : h.next.index < h₁.size := lt_size hborn.shown
  have hsize₂ := hgrown.grows
  have hsizem := hown.grows
  have hsize₃ := hlinked.grows
  have hsize' := hfinal.grows
  have hnext : h.next.index = h.size := rfl
  constructor
  case changes =>
    refine ⟨hfinal.shown, by omega, fun other hold hne => ?_⟩
    have hself := hfresh other hold
    rw [hfinal.others other (by omega) hne, hlinked.others other (by omega) hne,
      hown.others other (by omega) hself, hgrown.others other (by omega) hself,
      hborn.others other hold hself]
  case own =>
    have hne : h.next ≠ parent := (hfresh parent hparent).symm
    rw [since_eq_some, hfinal.others _ (by omega) hne, hlinked.others _ (by omega) hne]
    exact ⟨Nat.le_refl _, hown.shown⟩
  case inside =>
    -- an object made inside the new one is changed by nothing that comes later
    intro id bean hid
    obtain ⟨hlow, hshown⟩ := since_eq_some.mp hid
    have hhigh := lt_size hshown
    have hself : id ≠ h.next := by
      rintro rfl
      omega
    have hother : id ≠ parent := by
      rintro rfl
      omega
    rw [since_eq_some, hfinal.others id (by omega) hother, hlinked.others id (by omega) hother,
      hown.others id hhigh hself]
    exact ⟨by omega, hshown⟩
  case behind =>
    intro id bean hid
    obtain ⟨hlow, hshown⟩ := since_eq_some.mp hid
    exact since_eq_some.mpr ⟨by omega, hshown⟩
  case born => omega
  case linked => omega

/-! ### Dynamic beans -/

variable {h : Heap} {id : ObjectId} {bean : DynamicBean}

theorem reach_of_bean? {own : Bean} (hb : h.bean? id = some own) :
    h.reach (.object id) = .ok (id, own) := by
  rw [reach, hb]

/-- A dynamic bean without declarations takes every property as it is. -/
theorem setProperty_dynamic (hb : h.bean? id = some (.dynamic bean)) (hd : bean.declared = none)
    (property text : String) :
    h.setProperty (.object id) property (.text text) =
      (.ok (), h.setBean id (.dynamic (bean.insert property (.text text)))) := by
  have htype : bean.propertyType? property = some .any := by
    rw [DynamicBean.propertyType?, hd]
  have hwanted : (Bean.dynamic bean).propertyType? property = some .any := htype
  have hassign : bean.assign property (.text text) = .ok (bean.insert property (.text text)) := by
    rw [DynamicBean.assign, htype]
    rfl
  rw [setProperty, reach_of_bean? hb]
  dsimp only
  rw [hwanted]
  change h.commit id (((bean.assign property (.text text)).map Bean.dynamic).map ((), ·)) = _
  rw [hassign]
  rfl

/-- A dynamic bean puts an added child behind its other children. -/
theorem prepare_addChild (hb : h.bean? id = some (.dynamic bean)) (child : ObjectId) :
    h.prepare (.object id) "addChild" [.object child] [] =
      .ok (id, .dynamic bean, [.object child]) := by
  rw [prepare, reach_of_bean? hb]
  rfl

theorem call_addChild (h : Heap) (id : ObjectId) (bean : DynamicBean) (child : ObjectId) :
    h.call id (.dynamic bean) "addChild" [.object child] =
      (.ok .null, h.setBean id
        (.dynamic { bean with children := bean.children ++ [.object child] })) := by
  have hreading : Convention.of? "addChild" [.object child] = some (.child (.object child)) := rfl
  have hcall : bean.call "addChild" [.object child] =
      .ok (.null, { bean with children := bean.children ++ [.object child] }) := by
    rw [DynamicBean.call, hreading]
  rw [call, Bean.call, hcall]
  rfl

end Heap

end XmlBinding
