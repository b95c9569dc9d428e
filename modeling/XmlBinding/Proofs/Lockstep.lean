import XmlBinding.Proofs.Reading
import XmlBinding.Proofs.Trace.Reader

/-!
# Reader and binder in step

The reader keeps the elements that are open. The binder keeps the rules of the open elements and a
path, and while a node is captured the node keeps the elements that are open inside it. The two agree
after every token, so no end tag ever reaches a binder in which nothing is open.
-/
namespace XmlBinding

open Generic (pathInside)
open Markup (Token)

variable {κ : Type} {x : Extension κ}

/-! ### What calls leave alone -/

/-- Where the document is, as far as the events alone write it. -/
structure Location (κ : Type) where
  path : String
  outerPaths : List String
  matched : List (List (RuleRef κ))

def Binder.location (b : Binder κ) : Location κ := ⟨b.path, b.outerPaths, b.matched⟩

namespace Binder

theorem location_recordCall (x : Extension κ) (cb : Callback) (ref : RuleRef κ) (b : Binder κ) :
    (b.recordCall x cb ref).location = b.location :=
  congrArg (fun c => Location.mk c.1.path c.1.outerPaths c.1.matched) (b.course_recordCall x cb ref)

theorem location_of_unread {s b : Binder κ} (h : s.unread = b.unread) :
    s.location = b.location := by
  have hlocation := congrArg location h
  exact hlocation

theorem location_opened (b : Binder κ) (tag : StartTag) (found : List (RuleRef κ)) :
    (b.opened x tag found).location =
      ⟨pathInside b.path tag.name, b.path :: b.outerPaths, found :: b.matched⟩ := by
  have hprogress := b.progress_opened (x := x) tag found
  have hname : (b.enter tag.name).path = pathInside b.path tag.name :=
    congrArg Progress.path (b.progress_enter tag.name)
  rw [hname] at hprogress
  exact congrArg (fun p : Progress κ => Location.mk p.path p.outerPaths p.matched) hprogress

theorem location_closing (b : Binder κ) (outer : List (List (RuleRef κ))) :
    (b.closing outer).location = ⟨b.path, b.outerPaths, outer⟩ :=
  congrArg (fun c => Location.mk c.1.path c.1.outerPaths c.1.matched) (b.course_closing outer)

theorem leave_eq {b : Binder κ} {path : String} {outerPaths : List String}
    (h : b.outerPaths = path :: outerPaths) : b.leave = { b with path, outerPaths } := by
  unfold leave
  rw [h]

end Binder

/-- Rules of the user's own that deliver no events and neither clear nor reset the binder. Where a
call gets through, the path and the rules of the open elements are what they were, and no element is
open inside a captured node if none was. -/
structure Extension.Aloof (x : Extension κ) : Prop where
  location : ∀ {rule cb b b'}, x.fire rule cb b = .ok () b' → b'.location = b.location
  fresh : ∀ {rule cb b b'}, x.fire rule cb b = .ok () b' → Capture.Fresh b.capture →
    Capture.Fresh b'.capture

theorem Extension.aloof_none : Extension.none.Aloof := ⟨nofun, nofun⟩

/-- Standard rules are aloof. -/
theorem StandardRule.aloof_fire {rule : StandardRule} {cb : Callback} {b b' : Binder κ}
    (h : (rule.fire cb : Action κ RuleError Unit) b = .ok () b') :
    b'.location = b.location ∧ (Capture.Fresh b.capture → Capture.Fresh b'.capture) := by
  have hprogress := (progress_fire rule cb).of_ok h
  refine ⟨congrArg (fun p : Progress κ => Location.mk p.path p.outerPaths p.matched) hprogress,
    fun hfresh own hown => ?_⟩
  cases hstarts : rule.startsCapture cb with
  | true =>
    obtain ⟨c, hc, hnested⟩ := fire_startsCapture hstarts h
    obtain rfl := Option.some.inj (hc.symm.trans hown)
    exact hnested
  | false =>
    have hcapture : b'.capture = b.capture :=
      congrArg Prod.snd ((course_fire rule cb hstarts).of_ok h)
    exact hfresh own (hcapture ▸ hown)

theorem RuleRef.aloof_fire (hx : x.Aloof) {ref : RuleRef κ} {cb : Callback} {b b' : Binder κ}
    (h : ref.fire x cb b = .ok () b') :
    b'.location = b.location ∧ (Capture.Fresh b.capture → Capture.Fresh b'.capture) := by
  obtain ⟨id, rule | rule⟩ := ref
  · exact StandardRule.aloof_fire h
  · exact ⟨hx.location h, hx.fresh h⟩

theorem Called.aloof (hx : x.Aloof) {cb : Callback} {refs : List (RuleRef κ)} {b b' : Binder κ}
    {fs : List (Firing κ)} (h : Called x cb refs b fs b') :
    b'.location = b.location ∧ (Capture.Fresh b.capture → Capture.Fresh b'.capture) := by
  induction h with
  | nil => exact ⟨rfl, id⟩
  | @cons ref rest b m b' fs hfire _ ih =>
    have hcapture : (b.recordCall x cb ref).capture = b.capture :=
      congrArg Prod.snd (b.course_recordCall x cb ref)
    obtain ⟨hone, hfresh⟩ := RuleRef.aloof_fire hx hfire
    rw [b.location_recordCall] at hone
    rw [hcapture] at hfresh
    exact ⟨ih.1.trans hone, ih.2 ∘ hfresh⟩

/-! ### Agreement -/

/-- The name of an element, as paths need it. -/
def ProperName (name : String) : Prop := name ≠ "" ∧ '/' ∉ name.toList

instance (name : String) : Decidable (ProperName name) :=
  inferInstanceAs (Decidable (name ≠ "" ∧ '/' ∉ name.toList))

/-- The path of elements inside each other, the innermost first. -/
def pathOf : List String → String
  | [] => ""
  | name :: outer => pathInside (pathOf outer) name

/-- The paths of the elements around the innermost one. -/
def pathsAround : List String → List String
  | [] => []
  | _ :: outer => pathOf outer :: pathsAround outer

theorem pathOf_ne_empty {name : String} (h : name ≠ "") (outer : List String) :
    pathOf (name :: outer) ≠ "" := by
  unfold pathOf pathInside
  split
  · exact h
  · exact fun hempty => h (String.append_eq_empty_iff.mp hempty).2

theorem pathOf_eq_intercalate {names : List String} (h : ∀ name ∈ names, name ≠ "") :
    pathOf names = "/".intercalate names.reverse := by
  induction names with
  | nil => rfl
  | cons name outer ih =>
    have houter : ∀ other ∈ outer, other ≠ "" := fun other hother =>
      h other (List.mem_cons_of_mem _ hother)
    cases outer with
    | nil => rfl
    | cons next rest =>
      have hnonempty : (pathOf (next :: rest)).isEmpty = false :=
        Bool.eq_false_iff.mpr (mt String.isEmpty_iff.mp
          (pathOf_ne_empty (houter next List.mem_cons_self) rest))
      have hback : (name :: next :: rest).reverse = (next :: rest).reverse ++ [name] :=
        List.reverse_cons
      rw [pathOf, pathInside, hnonempty, if_neg Bool.false_ne_true, ih houter, hback,
        String.intercalate_append_of_ne_nil (by simp) (by simp), String.intercalate_singleton]

/-- The end tags that are due at the reader, the innermost first, and a binder agree. Those inside a
captured node stand in front; of the others the binder has the rules and the path, with the paths
around on top of `base`. -/
structure InStep (base : List String) (due : List EndTag) (b : Binder κ) : Prop where
  depth : b.depth + Capture.inside b.capture = due.length
  path : b.path = pathOf ((due.drop (Capture.inside b.capture)).map EndTag.name)
  outerPaths : b.outerPaths =
    pathsAround ((due.drop (Capture.inside b.capture)).map EndTag.name) ++ base

namespace Capture

theorem inside_of_fresh {c : Option Capture} (h : Fresh c) : inside c = 0 := by
  cases c with
  | none => rfl
  | some own => exact congrArg List.length (h own rfl)

/-- What cannot be closed has nothing open inside it. -/
theorem inside_of_bind_close? {c : Option Capture} (h : c.bind (·.close?) = none) :
    inside c = 0 := by
  cases c with
  | none => rfl
  | some own => exact congrArg List.length (nested_eq_nil h)

end Capture

namespace InStep

variable {base : List String} {due due' : List EndTag} {b b' s : Binder κ} {fs gs : List (Firing κ)}
  {e : DocumentEvent} {es : List DocumentEvent}

/-- Agreement is about the location and the number of elements open inside the node. -/
theorem congr (h : InStep base due b) (hlocation : s.location = b.location)
    (hinside : Capture.inside s.capture = Capture.inside b.capture) : InStep base due s := by
  have hmatched : s.matched = b.matched := congrArg Location.matched hlocation
  have hpath : s.path = b.path := congrArg Location.path hlocation
  have houter : s.outerPaths = b.outerPaths := congrArg Location.outerPaths hlocation
  constructor
  · unfold Binder.depth
    rw [hmatched, hinside]
    exact h.depth
  · rw [hpath, hinside]
    exact h.path
  · rw [houter, hinside]
    exact h.outerPaths

theorem of_unread (h : InStep base due b) (hs : s.unread = b.unread) : InStep base due s := by
  have hinside := congrArg (fun m : Binder κ => Capture.inside m.capture) hs
  exact h.congr (Binder.location_of_unread hs) hinside

/-- Text changes nothing that the two share. -/
theorem characters (h : InStep base due b) (content : String) :
    InStep base due (b.characters content) := by
  cases hc : b.capture with
  | none =>
    rw [characters_of_not_capturing content hc]
    exact ⟨h.depth, h.path, h.outerPaths⟩
  | some c =>
    rw [characters_of_capturing content hc]
    refine h.congr rfl ?_
    rw [hc]
    exact c.length_nested_text content

/-- Inside a captured node an element opens. -/
theorem startInside (h : InStep base due b) (tag : StartTag) {c : Capture}
    (hb : b.capture = some c) :
    InStep base (tag.endTag :: due)
      { b with capture := some (c.start tag.uri tag.name tag.attrs) } := by
  obtain ⟨hdepth, hpath, houter⟩ := h
  rw [hb] at hdepth hpath houter
  exact ⟨congrArg (· + 1) hdepth, hpath, houter⟩

/-- Inside a captured node an element closes. -/
theorem closeInside {tag : EndTag} (h : InStep base (tag :: due) b) {c c' : Capture}
    (hb : b.capture = some c) (hc : c.close? = some c') :
    InStep base due { b with capture := some c' } := by
  obtain ⟨hdepth, hpath, houter⟩ := h
  have hinside : Capture.inside (some c) = Capture.inside (some c') + 1 :=
    Capture.length_nested_close hc
  rw [hb, hinside] at hdepth hpath houter
  exact ⟨Nat.succ.inj hdepth, hpath, houter⟩

/-- Behind the starts of an element its end tag is due and its name is on the path. -/
theorem start (hx : x.Aloof) (h : InStep base due b) {tag : StartTag} {found : List (RuleRef κ)}
    (hb : b.capture = none)
    (hcalled : Called x (.start tag.uri tag.name (b.expandAttributes tag.attrs)) found
      (b.opened x tag found) fs b') : InStep base (tag.endTag :: due) b' := by
  obtain ⟨hdepth, hpath, houter⟩ := h
  rw [hb] at hdepth hpath houter
  obtain ⟨hlocation, hfresh⟩ := hcalled.aloof hx
  rw [b.location_opened, hpath, houter] at hlocation
  have hinside : Capture.inside b'.capture = 0 :=
    Capture.inside_of_fresh (hfresh fun own hown => by
      cases ((b.capture_enter tag.name).trans hb).symm.trans hown)
  have hmatched : b'.matched = _ := congrArg Location.matched hlocation
  constructor
  · unfold Binder.depth at hdepth ⊢
    rw [hmatched, hinside]
    exact congrArg (· + 1) hdepth
  · rw [hinside]
    exact congrArg Location.path hlocation
  · rw [hinside]
    exact congrArg Location.outerPaths hlocation

/-- Behind the ends of an element the end tag of the element around is due. -/
theorem close (hx : x.Aloof) {tag : EndTag} (h : InStep base (tag :: due) b)
    {found : List (RuleRef κ)} {outer : List (List (RuleRef κ))} {body close : Callback}
    {m m' : Binder κ} (hc : b.capture.bind (·.close?) = none) (hm : b.matched = found :: outer)
    (hbodies : Called x body found (b.closing outer) fs m)
    (hends : Called x close found.reverse m.resumeText gs m') : InStep base due m'.leave := by
  obtain ⟨hdepth, hpath, houter⟩ := h
  rw [Capture.inside_of_bind_close? hc] at hdepth hpath houter
  obtain ⟨hlocation, hfresh⟩ := hbodies.aloof hx
  obtain ⟨hlocation', hfresh'⟩ := hends.aloof hx
  have hends : m'.location = ⟨b.path, b.outerPaths, outer⟩ :=
    hlocation'.trans (hlocation.trans (b.location_closing outer))
  have hnone : (b.closing outer).capture = none := congrArg Prod.snd (b.course_closing outer)
  have hinside : Capture.inside m'.leave.capture = 0 := by
    rw [m'.capture_leave]
    refine Capture.inside_of_fresh (hfresh' (hfresh fun own hown => ?_))
    cases hnone.symm.trans hown
  have hpaths : m'.outerPaths = pathOf (due.map EndTag.name) ::
      (pathsAround (due.map EndTag.name) ++ base) :=
    (congrArg Location.outerPaths hends).trans houter
  have hleave := Binder.leave_eq hpaths
  have hmatched : m'.leave.matched = outer := by
    rw [hleave]
    exact congrArg Location.matched hends
  constructor
  · unfold Binder.depth at hdepth ⊢
    rw [hm] at hdepth
    rw [hmatched, hinside]
    exact Nat.succ.inj hdepth
  · rw [hinside, hleave]
    rfl
  · rw [hinside, hleave]
    rfl

/-- An event that gets through keeps the two in step. -/
theorem answers (hx : x.Aloof) (h : InStep base due b) (he : Answers x e b fs b')
    (hes : Pairs due (e :: es) due') : ∃ mid, InStep base mid b' ∧ Pairs mid es due' := by
  cases he with
  | text content =>
    cases hes with
    | text hes => exact ⟨due, h.characters content, hes⟩
  | startInside tag hb =>
    cases hes with
    | start hes => exact ⟨_, h.startInside tag hb, hes⟩
  | start hb hfound hcalled =>
    cases hes with
    | start hes => exact ⟨_, h.start hx hb hcalled, hes⟩
  | closeInside tag hb hc =>
    cases hes with
    | close hes => exact ⟨_, h.closeInside hb hc, hes⟩
  | close hc hm hbodies hends =>
    cases hes with
    | close hes => exact ⟨_, h.close hx hc hm hbodies hends, hes⟩

theorem delivered (hx : x.Aloof) (h : InStep base due b) (hes : Delivered x es b fs b')
    (hp : Pairs due es due') : InStep base due' b' := by
  induction hes generalizing due with
  | done hb =>
    cases hp
    exact h.of_unread hb
  | step hs he _ ih =>
    obtain ⟨mid, hmid, hrest⟩ := (h.of_unread hs).answers hx he hp
    exact ih hmid hrest

/-- The path of the binder has the names of the elements that are open outside a captured node. -/
theorem path_eq (h : InStep base due b) (hnames : ∀ tag ∈ due, tag.name ≠ "") :
    b.path = "/".intercalate ((due.map EndTag.name).reverse.take b.depth) := by
  have hcount : b.depth = due.length - Capture.inside b.capture := by
    have hdepth := h.depth
    omega
  rw [h.path, pathOf_eq_intercalate fun name hname => ?_]
  · rw [hcount, List.map_drop, List.reverse_drop, List.length_map]
  · obtain ⟨tag, htag, rfl⟩ := List.mem_map.mp hname
    exact hnames tag (List.mem_of_mem_drop htag)

end InStep

/-- The events of a text keep the two in step. -/
theorem Handled.inStep (hx : x.Aloof) {aware : Bool} {rs : List Generic.ReaderEvent}
    {opened opened' : List OpenElement} {b b' : Binder κ} {es : List DocumentEvent}
    {fs : List (Firing κ)} (h : Handled x aware rs opened b opened' b' es fs)
    {base : List String} (hb : InStep base (opened.map OpenElement.endTag) b) :
    InStep base (opened'.map OpenElement.endTag) b' :=
  hb.delivered hx h.delivered h.pairs

/-! ### End tags without a start tag -/

/-- A run does not end early because of an end tag without a start tag. -/
def Halt.Balanced (halt : Halt BindError) : Prop := ∀ name, halt ≠ .error (.unbalanced name)

theorem meets_callRules_balanced (cb : Callback) (refs : List (RuleRef κ)) (b : Binder κ) :
    (callRules x cb refs).Meets b (fun _ _ => True) fun halt _ => halt.Balanced := by
  refine Action.meets_iff.mpr ⟨fun _ _ _ => trivial, fun halt b' h => ?_⟩
  obtain ⟨front, ref, back, fs, m, -, -, hfails⟩ := fails_of_callRules h
  cases hfails <;> exact nofun

theorem meets_start_balanced (tag : StartTag) (b : Binder κ) :
    (deliver x (.start tag)).Meets b (fun _ _ => True) fun halt _ => halt.Balanced := by
  cases hb : b.capture with
  | some c =>
    rw [Action.meets_of_ok (startElement_captured x tag b c hb)]
    trivial
  | none =>
    cases hfound : b.rulesAt? tag with
    | none =>
      rw [Action.meets_of_error (start_eq_crash tag hb hfound)]
      exact nofun
    | some found =>
      rw [Action.meets_congr (start_eq_callRules tag hb hfound)]
      exact meets_callRules_balanced ..

/-- An end tag that is due has something to close. -/
theorem InStep.meets_close_balanced {base : List String} {tag : EndTag} {due : List EndTag}
    {b : Binder κ} (h : InStep base (tag :: due) b) :
    (deliver x (.close tag)).Meets b (fun _ _ => True) fun halt _ => halt.Balanced := by
  cases hc : b.capture.bind (·.close?) with
  | some c' =>
    obtain ⟨c, hb, hc'⟩ := Option.bind_eq_some_iff.mp hc
    rw [Action.meets_of_ok (endElement_captured x tag b c c' hb hc')]
    trivial
  | none =>
    have hdepth := h.depth
    rw [Capture.inside_of_bind_close? hc] at hdepth
    unfold Binder.depth at hdepth
    cases hm : b.matched with
    | nil =>
      rw [hm] at hdepth
      cases hdepth
    | cons found outer =>
      rw [Action.meets_congr (close_eq_closeRules tag hc hm)]
      unfold closeRules
      simp only [Action.meets_bind, Action.meets_modify]
      refine (meets_callRules_balanced ..).mono (fun _ m _ => ?_) fun _ _ => id
      exact meets_callRules_balanced ..

namespace Document

variable {aware : Bool} {here : Position} {opened opened' : List OpenElement} {b b' : Binder κ}
  {base : List String}

theorem meets_liftFault_balanced {α : Type} (r : Except DocumentFault α) :
    (liftFault here r : Action κ BindError α).Meets b (fun _ _ => True)
      fun halt _ => halt.Balanced := by
  cases r
  · exact nofun
  · trivial

theorem meets_resolveTag_balanced (name : String) (attrs : List (String × String)) :
    (resolveTag aware here name attrs).Meets b (fun _ _ => True) fun halt _ => halt.Balanced := by
  refine Action.meets_iff.mpr ⟨fun _ _ _ => trivial, fun halt m h => ?_⟩
  obtain ⟨fault, rfl⟩ := resolveTag_eq_error h
  exact nofun

theorem meets_startTag_balanced (name : String) (attrs : List (String × String)) :
    (start x aware here name attrs opened).Meets b (fun _ _ => True)
      fun halt _ => halt.Balanced := by
  unfold start
  rw [Action.meets_bind]
  refine (meets_resolveTag_balanced name attrs).mono (fun r m _ => ?_) fun _ _ => id
  obtain ⟨element, attributes⟩ := r
  dsimp only
  rw [Action.meets_bind]
  exact (meets_start_balanced
    ⟨element.uri, element.localName, element.qualifiedName, attributes⟩ m).mono
      (fun _ _ _ => trivial) fun _ _ => id

theorem meets_endTag_balanced (h : InStep base (opened.map OpenElement.endTag) b) :
    (close x here opened).Meets b (fun _ _ => True) fun halt _ => halt.Balanced := by
  unfold close
  cases opened with
  | nil => exact meets_liftFault_balanced _
  | cons element outer =>
    dsimp only
    rw [Action.meets_bind]
    exact (InStep.meets_close_balanced h).mono (fun _ _ _ => trivial) fun _ _ => id

theorem meets_handle_balanced (hx : x.Aloof) (h : InStep base (opened.map OpenElement.endTag) b)
    (token : Token) :
    (handle x aware here opened token).Meets b (fun _ _ => True) fun halt _ => halt.Balanced := by
  unfold handle
  cases token with
  | start name attrs => exact meets_startTag_balanced name attrs
  | empty name attrs =>
    dsimp only
    rw [Action.meets_bind]
    refine (meets_startTag_balanced name attrs).mono_run (fun mid m hrun _ => ?_) fun _ _ => id
    obtain ⟨⟨es, fs, hhandled⟩, -⟩ := handled_start hrun
    exact meets_endTag_balanced (hhandled.inStep hx h)
  | close => exact meets_endTag_balanced h
  | text content => trivial
  | reference name =>
    dsimp only
    cases Markup.textReference? name.toList with
    | some c => trivial
    | none => exact meets_liftFault_balanced _
  | skipped | finish => trivial
  | badTag | broken => exact meets_liftFault_balanced _

theorem meets_handleAll_balanced (hx : x.Aloof) (tokens : List (Nat × Token)) (cursor : Cursor)
    (h : InStep base (opened.map OpenElement.endTag) b) :
    (handleAll x aware cursor opened tokens).Meets b (fun _ _ => True)
      fun halt _ => halt.Balanced := by
  induction tokens generalizing cursor opened b with
  | nil => trivial
  | cons entry rest ih =>
    obtain ⟨offset, token⟩ := entry
    have hreach := h.of_unread (b.unread_reach ((cursor.seek offset).positionOf offset) token)
    rw [Action.meets_congr (handleAll_cons ..), Action.meets_bind]
    refine (meets_handle_balanced hx hreach token).mono_run (fun mid m hrun _ => ?_) fun _ _ => id
    obtain ⟨⟨rs, es, fs, -, hhandled⟩, -⟩ := handled_handle hrun
    exact ih _ (hhandled.inStep hx hreach)

end Document

theorem meets_endDocument_balanced (b : Binder κ) :
    (endDocument x).Meets b (fun _ _ => True) fun halt _ => halt.Balanced := by
  unfold endDocument
  simp only [Action.meets_bind, Action.meets_modify, Action.meets_get, Action.meets_attempt]
  refine (meets_callRules_balanced ..).mono (fun _ _ _ => trivial) fun halt s h => ?_
  cases halt <;> exact h

/-! ### Texts -/

namespace Binder

theorem location_atStart (b : Binder κ) (text : List Char) :
    (b.atStart text).location = b.location :=
  congrArg (fun c => Location.mk c.1.path c.1.outerPaths c.1.matched) (course_note { b with
    position := some (Position.ofOffset text 0) } .debug .dispatch "start document")

end Binder

theorem inStep_atStart {b : Binder κ} (hpath : b.path = "") (hmatched : b.matched = [])
    (hcapture : b.capture = none) (text : List Char) :
    InStep b.outerPaths [] (b.atStart text) := by
  have hb : InStep b.outerPaths [] b := by
    constructor
    · unfold Binder.depth
      rw [hmatched, hcapture]
      rfl
    · rw [hpath, hcapture]
      rfl
    · rw [hcapture]
      rfl
  exact hb.congr (b.location_atStart text) (congrArg Capture.inside (b.capture_atStart text))

/-- The qualified names of the elements that are open behind some tokens, the innermost first. -/
def Markup.openNames (tokens : List (Nat × Token)) : List String :=
  tokens.foldl (fun names entry => entry.2.openNames names) []

theorem meets_run_balanced (hx : x.Aloof) {b : Binder κ} (hpath : b.path = "")
    (hmatched : b.matched = []) (hcapture : b.capture = none) (text : List Char) :
    (Document.run x text).Meets b (fun _ _ => True) fun halt _ => halt.Balanced := by
  unfold Document.run
  rw [Action.meets_bind, Action.meets_get, Action.meets_bind, Action.meets_modify,
    Action.meets_bind]
  refine (Document.meets_handleAll_balanced hx (Markup.scan text) _
    (inStep_atStart hpath hmatched hcapture text)).mono (fun opened m _ => ?_) fun _ _ => id
  cases opened with
  | nil => exact meets_endDocument_balanced m
  | cons element outer => exact Document.meets_liftFault_balanced _

/-- **Reader and binder stay in step.** Of a text, whatever it is, given to a binder in which no
element is open: after every token that got through, the reader has the elements that are open in
the text. Those of them that are not inside a captured node are the ones that the binder has rules
for, and their names are its path. So no end tag comes without its start tag, and a text gets
through only if it closes every element. -/
theorem lockstep_law (hx : x.Aloof) {b : Binder κ} (hpath : b.path = "") (hmatched : b.matched = [])
    (hcapture : b.capture = none) (text : String) :
    (∀ front back, Markup.scan text.toList = front ++ back → ∀ opened b',
      Document.handleAll x b.options.namespaceAware { rest := text.toList } [] front
        (b.atStart text.toList) = .ok opened b' →
      opened.map (·.qualifiedName) = Markup.openNames front ∧
        b'.depth + Capture.inside b'.capture = opened.length ∧
        ((∀ e ∈ opened, e.endTag.name ≠ "") →
          b'.path = "/".intercalate ((opened.map (·.endTag.name)).reverse.take b'.depth))) ∧
    (∀ name b', parse x text b ≠ .error (.error (.unbalanced name)) b') ∧
    ∀ root b', parse x text b = .ok root b' → Markup.openNames (Markup.scan text.toList) = [] := by
  have hstart := inStep_atStart hpath hmatched hcapture text.toList
  refine ⟨fun front back hsplit opened b' hrun => ?_, fun name b' hparse => ?_,
    fun root b' hparse => ?_⟩
  · obtain ⟨⟨rs, es, fs, -, hhandled⟩, hnames⟩ := Document.handled_handleAll hrun
    have hstep : InStep b.outerPaths (opened.map OpenElement.endTag) b' :=
      hhandled.inStep hx hstart
    refine ⟨hnames, hstep.depth.trans (List.length_map _), fun hproper => ?_⟩
    have hdue : ∀ tag ∈ opened.map OpenElement.endTag, tag.name ≠ "" := by
      intro tag htag
      obtain ⟨e, he, rfl⟩ := List.mem_map.mp htag
      exact hproper e he
    rw [hstep.path_eq hdue, List.map_map]
    rfl
  · have hrun := meets_run_balanced hx hpath hmatched hcapture text.toList
    unfold parse at hparse
    cases hr : Document.run x text.toList b with
    | ok a m =>
      rw [Action.bind_run_of_ok (Action.attempt_of_ok hr)] at hparse
      cases hparse
    | error halt m =>
      rw [Action.meets_of_error hr] at hrun
      cases halt with
      | error cause =>
        rw [Action.bind_run_of_ok (Action.attempt_of_error hr)] at hparse
        obtain ⟨hcause, -⟩ := EStateM.Result.error.inj hparse
        exact hrun name hcause
      | crash =>
        rw [Action.bind_run_of_error (Action.attempt_of_crash hr)] at hparse
        cases hparse
  · obtain ⟨m, hread⟩ := handleAll_of_parse hparse
    obtain ⟨-, hnames⟩ := Document.handled_handleAll hread
    exact hnames.symm

/-- Two elements, one of them captured, in front of an end tag that is missing. -/
theorem lockstep_law_of_a_captured_child :
    let rule : RuleRef Empty := ⟨0, .standard (.nodeCreate false)⟩
    let b : Binder Empty := { matcher := .plain (({} : Table _).register ['a', '/', 'b'] rule) }
    let text := "<a><b><c>t</c></b><d>"
    Extension.none.Aloof ∧ b.path = "" ∧ b.matched = [] ∧ b.capture = none ∧
      (∀ front back, Markup.scan text.toList = front ++ back → ∀ opened b',
        Document.handleAll .none b.options.namespaceAware { rest := text.toList } [] front
          (b.atStart text.toList) = .ok opened b' →
        opened.map (·.qualifiedName) = Markup.openNames front ∧
          b'.depth + Capture.inside b'.capture = opened.length ∧
          ((∀ e ∈ opened, e.endTag.name ≠ "") →
            b'.path = "/".intercalate ((opened.map (·.endTag.name)).reverse.take b'.depth))) ∧
      (∀ name b', parse .none text b ≠ .error (.error (.unbalanced name)) b') ∧
      ∀ root b', parse .none text b = .ok root b' →
        Markup.openNames (Markup.scan text.toList) = [] :=
  ⟨Extension.aloof_none, rfl, rfl, rfl, lockstep_law Extension.aloof_none rfl rfl rfl _⟩

end XmlBinding
