import XmlBinding.Proofs.Content

/-!
# Trees and the events they came from

A captured tree is read again by going through it: an element is its start, what its children are,
and its end. What comes out are the events that went in, with neighbouring texts made one and empty
texts left out. The tree is in this order already: no two neighbouring children are both text.
-/
namespace XmlBinding

/-- One event as a tree tells it. The end of an element needs no name, since it ends the innermost
element that is open. -/
inductive Mark
  | start (uri name : String) (attrs : Attributes)
  | text (content : String)
  | close

def DocumentEvent.mark : DocumentEvent → Mark
  | .start tag => .start tag.uri tag.name tag.attrs
  | .text content => .text content
  | .close _ => .close

/-- All text in a sequence of events, in order. -/
def textOfEvents : List DocumentEvent → String
  | [] => ""
  | .text content :: rest => content ++ textOfEvents rest
  | _ :: rest => textOfEvents rest

/-! ### Runs of text -/

/-- A text in front of other events: one with a text that comes next, and nothing if it is empty. -/
def prependText (content : String) : List Mark → List Mark
  | .text more :: rest => .text (content ++ more) :: rest
  | rest => if content = "" then rest else .text content :: rest

/-- Every run of texts as one text, and no empty texts. -/
def mergeTexts : List Mark → List Mark
  | [] => []
  | .text content :: rest => prependText content (mergeTexts rest)
  | other :: rest => other :: mergeTexts rest

theorem mergeTexts_start (uri name : String) (attrs : Attributes) (rest : List Mark) :
    mergeTexts (.start uri name attrs :: rest) = .start uri name attrs :: mergeTexts rest := rfl

theorem mergeTexts_close (rest : List Mark) :
    mergeTexts (.close :: rest) = .close :: mergeTexts rest := rfl

theorem prependText_empty (ms : List Mark) : prependText "" ms = ms := by
  unfold prependText
  split
  · rw [String.empty_append]
  · rw [if_pos rfl]

/-- Two texts in front are one text in front. -/
theorem prependText_prependText (s t : String) (ms : List Mark) :
    prependText s (prependText t ms) = prependText (s ++ t) ms := by
  by_cases ht : t = ""
  · rw [ht, prependText_empty, String.append_empty]
  have hst : s ++ t ≠ "" := fun h => ht (String.append_eq_empty_iff.mp h).2
  match ms with
  | .text more :: rest => simp only [prependText, String.append_assoc]
  | [] => simp only [prependText, if_neg ht, if_neg hst]
  | .start .. :: rest => simp only [prependText, if_neg ht, if_neg hst]
  | .close :: rest => simp only [prependText, if_neg ht, if_neg hst]

theorem prependText_append_close (s : String) (ms rest : List Mark) :
    prependText s (ms ++ .close :: rest) = prependText s ms ++ .close :: rest := by
  match ms with
  | .text more :: behind => rfl
  | [] => simp only [prependText, List.nil_append]; split <;> rfl
  | .start .. :: behind => simp only [prependText, List.cons_append]; split <;> rfl
  | .close :: behind => simp only [prependText, List.cons_append]; split <;> rfl

/-- No run of texts goes through an end. -/
theorem mergeTexts_append_close (ms rest : List Mark) :
    mergeTexts (ms ++ .close :: rest) = mergeTexts ms ++ .close :: mergeTexts rest := by
  induction ms with
  | nil => rfl
  | cons m ms ih =>
    cases m with
    | text content =>
      rw [List.cons_append, mergeTexts, mergeTexts, ih, prependText_append_close]
    | start uri name attrs =>
      rw [List.cons_append, mergeTexts_start, mergeTexts_start, ih, List.cons_append]
    | close => rw [List.cons_append, mergeTexts_close, mergeTexts_close, ih, List.cons_append]

/-- What the events behind become is all that the events in front look at. -/
theorem mergeTexts_append_congr (front : List Mark) {back back' : List Mark}
    (h : mergeTexts back = mergeTexts back') :
    mergeTexts (front ++ back) = mergeTexts (front ++ back') := by
  induction front with
  | nil => exact h
  | cons m front ih => cases m <;> simp only [List.cons_append, mergeTexts, ih]

theorem mergeTexts_text_text (s t : String) (rest : List Mark) :
    mergeTexts (.text s :: .text t :: rest) = mergeTexts (.text (s ++ t) :: rest) :=
  prependText_prependText s t (mergeTexts rest)

theorem mergeTexts_text_empty (rest : List Mark) :
    mergeTexts (.text "" :: rest) = mergeTexts rest :=
  prependText_empty _

/-! ### Going through a tree -/

namespace Node

mutual

/-- The events that a node tells: those inside it, and of an element its start and its end. -/
def marks : Node → List Mark
  | .element uri name attrs children => .start uri name attrs :: (marksOfAll children ++ [.close])
  | .text content => [.text content]
  | .fragment children => marksOfAll children

def marksOfAll : List Node → List Mark
  | [] => []
  | child :: rest => child.marks ++ marksOfAll rest

end

def isText : Node → Bool
  | .text _ => true
  | _ => false

mutual

/-- An element or a text, where no text is empty and no two neighbouring children are both text, at
any depth. -/
def Tidy : Node → Prop
  | .element _ _ _ children => TidyAll children
  | .text content => content ≠ ""
  | .fragment _ => False

def TidyAll : List Node → Prop
  | [] => True
  | first :: rest => first.Tidy ∧ (first.isText = true → ∀ next ∈ rest.head?, next.isText = false) ∧
      TidyAll rest

end

/-- A tree that is tidy tells no run of texts and no empty text. -/
theorem mergeTexts_marksOfAll (cs : List Node) (h : TidyAll cs) :
    mergeTexts (marksOfAll cs) = marksOfAll cs := by
  match cs with
  | [] => rfl
  | .text content :: rest =>
    obtain ⟨hcontent, hnext, hrest⟩ := h
    change prependText content (mergeTexts (marksOfAll rest)) = .text content :: marksOfAll rest
    rw [mergeTexts_marksOfAll rest hrest]
    match rest with
    | [] => exact if_neg hcontent
    | .text _ :: _ => exact absurd (hnext rfl _ rfl) nofun
    | .element .. :: _ => exact if_neg hcontent
    | .fragment _ :: _ => exact hrest.1.elim
  | .element uri name attrs inner :: rest =>
    obtain ⟨hinner, -, hrest⟩ := h
    have hsplit : marksOfAll (.element uri name attrs inner :: rest) =
        .start uri name attrs :: (marksOfAll inner ++ .close :: marksOfAll rest) := by
      simp [marksOfAll, marks]
    rw [hsplit, mergeTexts_start, mergeTexts_append_close, mergeTexts_marksOfAll inner hinner,
      mergeTexts_marksOfAll rest hrest]
  | .fragment _ :: _ => exact h.1.elim

/-! ### Joining a child -/

theorem isText_head_join (child first : Node) (rest : List Node) :
    ∃ first' rest', join child (first :: rest) = first' :: rest' ∧
      first'.isText = first.isText := by
  match first, rest with
  | .text last, [] =>
    cases child with
    | text more => exact ⟨_, _, rfl, rfl⟩
    | element => exact ⟨_, _, rfl, rfl⟩
    | fragment => exact ⟨_, _, rfl, rfl⟩
  | .text _, _ :: _ => exact ⟨_, _, rfl, rfl⟩
  | .element .., rest => exact ⟨_, _, by rw [join]; nofun, rfl⟩
  | .fragment _, rest => exact ⟨_, _, by rw [join]; nofun, rfl⟩

/-- A child that is joined to tidy children leaves them tidy. -/
theorem tidyAll_join {child : Node} (hchild : child.Tidy) {cs : List Node} (h : TidyAll cs) :
    TidyAll (join child cs) := by
  fun_induction join child cs with
  | case1 => exact ⟨hchild, fun _ => nofun, trivial⟩
  | case2 last more hmore =>
    subst hmore
    refine ⟨fun hempty => ?_, fun _ => nofun, trivial⟩
    exact hchild (String.append_eq_empty_iff.mp hempty).2
  | case3 last hother =>
    refine ⟨h.1, fun _ next hnext => ?_, hchild, fun _ => nofun, trivial⟩
    obtain rfl : child = next := Option.some.inj hnext
    cases child with
    | text more => exact absurd rfl (hother more)
    | element => rfl
    | fragment => rfl
  | case4 first rest hfirst ih =>
    refine ⟨h.1, fun htext next hnext => ?_, ih h.2.2⟩
    cases rest with
    | nil =>
      cases first with
      | text last => exact (hfirst last rfl rfl).elim
      | element => cases htext
      | fragment => cases htext
    | cons second rest =>
      obtain ⟨second', rest', heq, hkind⟩ := isText_head_join child second rest
      rw [heq] at hnext
      obtain rfl : second' = next := Option.some.inj hnext
      rw [hkind]
      exact h.2.1 htext second rfl

/-- A joined child is told behind the others. -/
theorem mergeTexts_marksOfAll_join (child : Node) (cs : List Node) (rest : List Mark) :
    mergeTexts (marksOfAll (join child cs) ++ rest) =
      mergeTexts (marksOfAll cs ++ (child.marks ++ rest)) := by
  fun_induction join child cs with
  | case1 => simp [marksOfAll]
  | case2 last more hmore =>
    subst hmore
    exact (mergeTexts_text_text last more rest).symm
  | case3 last hother => simp [marksOfAll]
  | case4 first behind _ ih =>
    rw [marksOfAll, marksOfAll, List.append_assoc, List.append_assoc]
    exact mergeTexts_append_congr first.marks ih

theorem textOfAll_join (child : Node) (cs : List Node) :
    textOfAll (join child cs) = textOfAll cs ++ child.textContent := by
  fun_induction join child cs with
  | case1 => simp [textOfAll]
  | case2 last more hmore =>
    subst hmore
    simp [textOfAll, textContent]
  | case3 last hother => simp [textOfAll]
  | case4 first behind _ ih => rw [textOfAll, textOfAll, ih, String.append_assoc]

end Node

/-! ### Content as children -/

namespace Content

/-- The children of a node behind some content. -/
def pour : Content → List Node → List Node
  | .done, cs => cs
  | .text content rest, cs =>
    rest.pour (if content.isEmpty then cs else Node.join (.text content) cs)
  | .element tag inner _ rest, cs =>
    rest.pour (Node.join (.element tag.uri tag.name tag.attrs (inner.pour [])) cs)

theorem tidyAll_pour (k : Content) {cs : List Node} (h : Node.TidyAll cs) :
    Node.TidyAll (k.pour cs) := by
  induction k generalizing cs with
  | done => exact h
  | text content rest ih =>
    refine ih ?_
    split
    · exact h
    · next hne =>
      have htidy : (Node.text content).Tidy := fun hempty => hne (String.isEmpty_iff.mpr hempty)
      exact Node.tidyAll_join htidy h
  | element tag inner closing rest inner_ih rest_ih =>
    have hnone : Node.TidyAll [] := trivial
    have htidy : (Node.element tag.uri tag.name tag.attrs (inner.pour [])).Tidy := inner_ih hnone
    exact rest_ih (Node.tidyAll_join htidy h)

/-- What content adds to a node is told behind what the node told before. -/
theorem mergeTexts_pour (k : Content) (cs : List Node) :
    mergeTexts (Node.marksOfAll (k.pour cs)) =
      mergeTexts (Node.marksOfAll cs ++ k.events.map DocumentEvent.mark) := by
  induction k generalizing cs with
  | done => rw [pour, events, List.map_nil, List.append_nil]
  | text content rest ih =>
    rw [pour, ih]
    split
    · next hempty =>
      obtain rfl : content = "" := String.isEmpty_iff.mp hempty
      exact mergeTexts_append_congr _ (mergeTexts_text_empty _).symm
    · exact Node.mergeTexts_marksOfAll_join _ _ _
  | element tag inner closing rest inner_ih rest_ih =>
    rw [pour, rest_ih, Node.mergeTexts_marksOfAll_join]
    refine mergeTexts_append_congr _ ?_
    have hnode : (Node.element tag.uri tag.name tag.attrs (inner.pour [])).marks ++
        rest.events.map DocumentEvent.mark = .start tag.uri tag.name tag.attrs ::
          (Node.marksOfAll (inner.pour []) ++ .close :: rest.events.map DocumentEvent.mark) := by
      simp [Node.marks]
    have hevents : (Content.element tag inner closing rest).events.map DocumentEvent.mark =
        .start tag.uri tag.name tag.attrs :: (inner.events.map DocumentEvent.mark ++
          .close :: rest.events.map DocumentEvent.mark) := by
      simp [events, DocumentEvent.mark]
    rw [hnode, hevents, mergeTexts_start, mergeTexts_start, mergeTexts_append_close,
      mergeTexts_append_close, inner_ih []]
    rfl

theorem textOfEvents_append (front back : List DocumentEvent) :
    textOfEvents (front ++ back) = textOfEvents front ++ textOfEvents back := by
  induction front with
  | nil => exact String.empty_append.symm
  | cons e front ih =>
    cases e with
    | text content =>
      simp only [List.cons_append, textOfEvents, ih, String.append_assoc]
    | start tag => exact ih
    | close tag => exact ih

theorem textOfAll_pour (k : Content) (cs : List Node) :
    Node.textOfAll (k.pour cs) = Node.textOfAll cs ++ textOfEvents k.events := by
  induction k generalizing cs with
  | done => exact String.append_empty.symm
  | text content rest ih =>
    rw [pour, ih, events, textOfEvents, ← String.append_assoc]
    split
    · next hempty =>
      obtain rfl : content = "" := String.isEmpty_iff.mp hempty
      rw [String.append_empty]
    · rw [Node.textOfAll_join]
      rfl
  | element tag inner closing rest inner_ih rest_ih =>
    have hevents : textOfEvents (Content.element tag inner closing rest).events =
        textOfEvents inner.events ++ textOfEvents rest.events :=
      textOfEvents_append inner.events (.close closing :: rest.events)
    rw [pour, rest_ih, Node.textOfAll_join, hevents, Node.textContent, inner_ih, Node.textOfAll,
      String.empty_append, String.append_assoc]

end Content

/-! ### Content of a captured node -/

/-- The same node with other children. A text has none. -/
def Node.withChildren : Node → List Node → Node
  | .element uri name attrs _, cs => .element uri name attrs cs
  | .text content, _ => .text content
  | .fragment _, cs => .fragment cs

theorem Node.append_eq (parent child : Node) :
    parent.append child = parent.withChildren (join child parent.children) := by
  cases parent <;> rfl

namespace Capture

/-- Change the children of the innermost open node. -/
def fill (c : Capture) (f : List Node → List Node) : Capture :=
  match c.nested with
  | [] => { c with root := c.root.withChildren (f c.root.children) }
  | top :: outer => { c with nested := top.withChildren (f top.children) :: outer }

theorem fill_self (c : Capture) : c.fill (fun cs => cs) = c := by
  obtain ⟨root, nested⟩ := c
  cases nested with
  | nil => cases root <;> rfl
  | cons top outer => cases top <;> rfl

theorem fill_fill (c : Capture) (f g : List Node → List Node) :
    (c.fill f).fill g = c.fill fun cs => g (f cs) := by
  obtain ⟨root, nested⟩ := c
  cases nested with
  | nil => cases root <;> rfl
  | cons top outer => cases top <;> rfl

theorem add_eq_fill (c : Capture) (child : Node) : c.add child = c.fill (Node.join child) := by
  obtain ⟨root, nested⟩ := c
  cases nested with
  | nil => exact congrArg (Capture.mk · []) (root.append_eq child)
  | cons top outer => exact congrArg (Capture.mk root <| · :: outer) (top.append_eq child)

/-- Content becomes children of the innermost open node. -/
theorem take_eq_fill (c : Capture) (k : Content) : c.take k = c.fill k.pour := by
  induction k generalizing c with
  | done => exact c.fill_self.symm
  | text content rest ih =>
    rw [take, ih, text]
    split
    · next hempty =>
      congr 1
      funext cs
      rw [Content.pour, if_pos hempty]
    · next hne =>
      rw [add_eq_fill, fill_fill]
      congr 1
      funext cs
      rw [Content.pour, if_neg hne]
  | element tag inner closing rest inner_ih rest_ih =>
    rw [take, inner_ih]
    change (add c (.element tag.uri tag.name tag.attrs (inner.pour []))).take rest = _
    rw [rest_ih, add_eq_fill, fill_fill]
    rfl

/-- A node that has just been started is, behind its content, the node with this content. -/
theorem finish_take (root : Node) (k : Content) :
    (Capture.take { root } k).finish = root.withChildren (k.pour root.children) := by
  rw [take_eq_fill]
  change closeAll _ [] = _
  rw [closeAll]
  rfl

end Capture

end XmlBinding
