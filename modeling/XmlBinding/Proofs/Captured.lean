import XmlBinding.Proofs.Dispatch
import XmlBinding.Proofs.Traversal

/-!
# Captured elements

Between the start tag of a captured element and its own end tag the node that is built is all that
changes in the binder. At the end tag the node goes on the stack, and going through it gives back
the events that were inside the element.
-/
namespace XmlBinding

variable {κ : Type} {x : Extension κ}

/-- For a rule that captures its element, whether it leaves out the element itself. -/
def RuleRef.nodeRule? (ref : RuleRef κ) : Option Bool :=
  match ref.rule with
  | .standard (.nodeCreate fragment) => some fragment
  | _ => none

/-- The node of an element with these children, or of its content alone. -/
def capturedNode (fragment : Bool) (uri name : String) (attrs : Attributes)
    (children : List Node) : Node :=
  if fragment then .fragment children else .element uri name attrs children

theorem withChildren_capturedNode (fragment : Bool) (uri name : String) (attrs : Attributes)
    (cs ds : List Node) : (capturedNode fragment uri name attrs cs).withChildren ds =
      capturedNode fragment uri name attrs ds := by
  cases fragment <;> rfl

theorem children_capturedNode (fragment : Bool) (uri name : String) (attrs : Attributes)
    (cs : List Node) : (capturedNode fragment uri name attrs cs).children = cs := by
  cases fragment <;> rfl

theorem textContent_capturedNode (fragment : Bool) (uri name : String) (attrs : Attributes)
    (cs : List Node) :
    (capturedNode fragment uri name attrs cs).textContent = Node.textOfAll cs := by
  cases fragment <;> rfl

/-! ### The start tag -/

/-- The part of the binder that decides what an end tag does. -/
structure Threshold (κ : Type) where
  matched : List (List (RuleRef κ))
  text : String
  capture : Option Capture

def Binder.threshold (b : Binder κ) : Threshold κ := ⟨b.matched, b.text, b.capture⟩

/-- Rules of the user's own that leave the open elements, their texts and captures alone. They may
do what they like otherwise: work on stacks and matchers, or change the substitutor. -/
structure Extension.Steady (x : Extension κ) : Prop where
  keeps : ∀ rule cb, (x.fire rule cb).Keeps Binder.threshold

theorem Extension.steady_none : Extension.none.Steady := ⟨nofun⟩

/-- The threshold behind the start of a rule: a rule that captures leaves a new node. -/
def Threshold.started (t : Threshold κ) (uri name : String) (attrs : Attributes)
    (ref : RuleRef κ) : Threshold κ :=
  match ref.nodeRule? with
  | some fragment =>
    { t with capture := some { root := capturedNode fragment uri name attrs [] } }
  | none => t

theorem fire_threshold (hx : x.Steady) {ref : RuleRef κ} {uri name : String} {attrs : Attributes}
    {b b' : Binder κ} (hr : ref.fire x (.start uri name attrs) b = .ok () b') :
    b'.threshold = b.threshold.started uri name attrs ref := by
  obtain ⟨id, rule | rule⟩ := ref
  · have hkeeps : rule.startsCapture (.start uri name attrs) = false →
        b'.threshold = b.threshold := fun h => by
      have hrule : (rule.fire (.start uri name attrs) : Action κ RuleError Unit).Keeps
          Binder.threshold := (StandardRule.course_fire rule _ h).of_view
        (fun c : Progress κ × Option Capture => ⟨c.1.matched, c.1.text, c.2⟩) fun _ => rfl
      exact hrule.of_ok hr
    cases rule
    case nodeCreate fragment =>
      cases hr
      cases fragment <;> rfl
    all_goals exact hkeeps rfl
  · exact (hx.keeps rule _).of_ok hr

theorem callRule_threshold (hx : x.Steady) {ref : RuleRef κ} {uri name : String}
    {attrs : Attributes} {b b' : Binder κ}
    (hr : callRule x (.start uri name attrs) ref b = .ok () b') :
    b'.threshold = b.threshold.started uri name attrs ref := by
  unfold callRule at hr
  rw [Action.modify_bind_run] at hr
  have hrecord : (b.recordCall x (.start uri name attrs) ref).threshold = b.threshold :=
    congrArg (fun c => Threshold.mk c.1.matched c.1.text c.2) (b.course_recordCall ..)
  rw [← hrecord]
  generalize b.recordCall x (.start uri name attrs) ref = s at hr
  obtain ⟨result, m, hattempt, hr⟩ := Action.bind_eq_ok.mp hr
  unfold Action.attempt at hattempt
  cases hfire : ref.fire x (.start uri name attrs) s with
  | ok a s' =>
    rw [hfire] at hattempt
    cases hattempt
    cases hr
    exact fire_threshold hx hfire
  | error halt s' =>
    rw [hfire] at hattempt
    cases halt with
    | crash => cases hattempt
    | error cause =>
      cases hattempt
      cases hr

/-- Behind the starts of a list every rule has left its node, the last one the one that stays. -/
theorem callRules_threshold (hx : x.Steady) {uri name : String} {attrs : Attributes}
    {refs : List (RuleRef κ)} {b b' : Binder κ}
    (hr : callRules x (.start uri name attrs) refs b = .ok () b') :
    b'.threshold = refs.foldl (·.started uri name attrs) b.threshold := by
  induction refs generalizing b with
  | nil =>
    cases hr
    rfl
  | cons ref rest ih =>
    obtain ⟨⟨⟩, m, hcall, hrest⟩ := Action.bind_eq_ok.mp hr
    rw [ih hrest, callRule_threshold hx hcall, List.foldl_cons]

theorem foldl_started {refs : List (RuleRef κ)} (uri name : String) (attrs : Attributes)
    (t : Threshold κ) : refs.foldl (·.started uri name attrs) t =
      match (refs.filterMap RuleRef.nodeRule?).getLast? with
      | some fragment =>
        { t with capture := some { root := capturedNode fragment uri name attrs [] } }
      | none => t := by
  induction refs generalizing t with
  | nil => rfl
  | cons ref rest ih =>
    rw [List.foldl_cons, ih]
    unfold Threshold.started
    cases hnode : ref.nodeRule? with
    | none => rw [List.filterMap_cons_none hnode]
    | some fragment =>
      rw [List.filterMap_cons_some hnode, List.getLast?_cons]
      cases (rest.filterMap RuleRef.nodeRule?).getLast? <;> rfl

/-- What the start tag of an element with one capturing rule leaves. -/
theorem start_threshold (hx : x.Steady) {b o : Binder κ} (hb : b.capture = none) {tag : StartTag}
    {found : List (RuleRef κ)} (hfound : b.rulesAt? tag = some found) {fragment : Bool}
    (hone : found.filterMap RuleRef.nodeRule? = [fragment])
    (hstart : deliver x (.start tag) b = .ok () o) :
    o.threshold = ⟨found :: b.matched, "", some
      { root := capturedNode fragment tag.uri tag.name (b.expandAttributes tag.attrs) [] }⟩ := by
  have hopened : (b.opened x tag found).threshold =
      ⟨found :: b.matched, "", (b.opened x tag found).capture⟩ := by
    have h := b.progress_opened (x := x) tag found
    exact congrArg (fun p : Progress κ =>
      Threshold.mk p.matched p.text (b.opened x tag found).capture) h
  rw [start_eq_callRules tag hb hfound] at hstart
  rw [callRules_threshold hx hstart, foldl_started, hone, hopened]
  rfl

/-! ### Inside -/

/-- At every moment inside the captured element only the node is different. -/
theorem deliverAll_front (front : List DocumentEvent) {back : List DocumentEvent} {b : Binder κ}
    {c : Capture} (hb : b.capture = some c)
    (h : closesAll c.nested.length (front ++ back) = true) :
    ∃ c', deliverAll x front b = .ok () { b with capture := some c' } := by
  induction front generalizing b c with
  | nil => exact ⟨c, by rw [← hb]; rfl⟩
  | cons e front ih =>
    have hstep : ∀ c' : Capture, deliver x e b = .ok () { b with capture := some c' } →
        closesAll c'.nested.length (front ++ back) = true →
        ∃ c'', deliverAll x (e :: front) b = .ok () { b with capture := some c'' } := by
      intro c' he hclose
      obtain ⟨c'', hrest⟩ := ih (b := { b with capture := some c' }) rfl hclose
      exact ⟨c'', Action.bind_eq_ok.mpr ⟨(), _, he, hrest⟩⟩
    cases e with
    | start tag => exact hstep _ (startElement_captured x tag b c hb) h
    | text content =>
      refine hstep (c.text content) ?_ (by rw [c.length_nested_text]; exact h)
      change EStateM.Result.ok () (b.characters content) = _
      rw [Binder.characters, hb]
    | close tag =>
      cases hopen : c.nested.length with
      | zero =>
        rw [hopen] at h
        cases h
      | succ opened =>
        obtain ⟨c', hclosed, hlength⟩ := Capture.close?_of_length hopen
        refine hstep c' (endElement_captured x tag b c c' hb hclosed) ?_
        rw [hlength]
        rw [hopen] at h
        exact h

/-- The content of a fresh capture goes into its node, and the next end tag takes the node and calls
the rules of the element. -/
theorem close_of_captured (k : Content) {o : Binder κ} {c : Capture} (hcapture : o.capture = some c)
    (hfresh : c.nested = []) {found : List (RuleRef κ)} {outer : List (List (RuleRef κ))}
    (hmatched : o.matched = found :: outer) (closing : EndTag) :
    (deliverAll x k.events >>= fun _ => deliverAll x [.close closing]) o =
      closeRules x closing found (o.expandText o.text)
        { ({ o with capture := none }.push (.node (c.take k).finish)).unmatch outer with
          text := "" } := by
  have hlast : (c.take k).nested = [] := by
    have hlength := c.length_nested_take k
    rw [hfresh] at hlength
    exact List.eq_nil_of_length_eq_zero hlength
  have hclosable : (c.take k).close? = none := by
    unfold Capture.close?
    rw [hlast]
  have hclose := close_eq_closeRules (x := x) closing (b := { o with capture := some (c.take k) })
    hclosable hmatched
  have hcontent := deliverAll_captured x k o c hcapture
  have hsingle : deliverAll x [.close closing] = deliver x (.close closing) := bind_pure _
  rw [hsingle]
  exact (Action.bind_run_of_ok hcontent _).trans hclose

/-- **A captured element is a faithful node and opaque.** The element has exactly one rule that
captures, and its start tag went through. At every moment inside it the binder is the same but for
the capture: no rule is called, and path, depth, measures and texts stay. Its own end tag ends the
capture, puts the node on the stack and calls the rules with the empty text. The root is what the
starts were called with, going through the node gives the events inside, texts merged, and all text
is there. -/
theorem capture_law (hx : x.Steady) {b o : Binder κ} (hb : b.capture = none) {tag : StartTag}
    {found : List (RuleRef κ)} (hfound : b.rulesAt? tag = some found) {fragment : Bool}
    (hone : found.filterMap RuleRef.nodeRule? = [fragment])
    (hstart : deliver x (.start tag) b = .ok () o) {inner : List DocumentEvent}
    (hinner : WellNested inner) (closing : EndTag) :
    ∃ children : List Node,
      let node := capturedNode fragment tag.uri tag.name (b.expandAttributes tag.attrs) children
      (∀ front back, inner = front ++ back →
        ∃ c, deliverAll x front o = .ok () { o with capture := some c }) ∧
      deliverAll x (inner ++ [.close closing]) o =
        closeRules x closing found (o.expandText "")
          { ({ o with capture := none }.push (.node node)).unmatch b.matched with text := "" } ∧
      Node.marksOfAll children = mergeTexts (inner.map DocumentEvent.mark) ∧
      Node.TidyAll children ∧
      node.textContent = textOfEvents inner := by
  have hthreshold := start_threshold hx hb hfound hone hstart
  have hmatched : o.matched = found :: b.matched := congrArg Threshold.matched hthreshold
  have htext : o.text = "" := congrArg Threshold.text hthreshold
  have hcapture : o.capture = _ := congrArg Threshold.capture hthreshold
  obtain ⟨k, rfl⟩ := wellNested_iff.mp hinner
  have hnode := Capture.finish_take
    (capturedNode fragment tag.uri tag.name (b.expandAttributes tag.attrs) []) k
  rw [withChildren_capturedNode, children_capturedNode] at hnode
  have hnone : Node.TidyAll [] := trivial
  have htidy : Node.TidyAll (k.pour []) := k.tidyAll_pour hnone
  refine ⟨k.pour [], fun front back hsplit => ?_, ?_, ?_, htidy, ?_⟩
  · exact deliverAll_front front hcapture (hsplit ▸ hinner)
  · have hempty : o.expandText "" = o.expandText o.text := by rw [htext]
    rw [← hnode, deliverAll_append, hempty]
    exact close_of_captured k hcapture rfl hmatched closing
  · rw [← Node.mergeTexts_marksOfAll _ htidy, k.mergeTexts_pour]
    rfl
  · rw [textContent_capturedNode, k.textOfAll_pour]
    exact String.empty_append

/-- An element that is captured whole, with an element of its own name and broken text inside. -/
theorem capture_law_of_nested_names :
    let rules : List (RuleRef Empty) :=
      [⟨0, .standard (.textProperty none 0)⟩, ⟨1, .standard (.nodeCreate false)⟩]
    let b : Binder Empty := { matcher := .foreign (.always rules) [] }
    let tag : StartTag := ⟨"u", "a", "a", [⟨"", "k", "k", "v"⟩]⟩
    let o := (deliver .none (.start tag)).after b
    let inner := [.text "x", .text "", .text "y", .start tag, .close ⟨"u", "a", "a"⟩]
    Extension.none.Steady ∧ b.capture = none ∧ b.rulesAt? tag = some rules ∧
      rules.filterMap RuleRef.nodeRule? = [false] ∧ deliver .none (.start tag) b = .ok () o ∧
      WellNested inner ∧ ∃ children : List Node,
        let node := capturedNode false tag.uri tag.name (b.expandAttributes tag.attrs) children
        (∀ front back, inner = front ++ back →
          ∃ c, deliverAll .none front o = .ok () { o with capture := some c }) ∧
        deliverAll .none (inner ++ [.close ⟨"u", "a", "a"⟩]) o =
          closeRules .none ⟨"u", "a", "a"⟩ rules (o.expandText "")
            { ({ o with capture := none }.push (.node node)).unmatch b.matched with text := "" } ∧
        Node.marksOfAll children = mergeTexts (inner.map DocumentEvent.mark) ∧
        Node.TidyAll children ∧
        node.textContent = textOfEvents inner :=
  ⟨Extension.steady_none, rfl, rfl, rfl, rfl, by decide,
    capture_law Extension.steady_none rfl rfl rfl rfl (by decide) _⟩

end XmlBinding
