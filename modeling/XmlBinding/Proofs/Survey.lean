import XmlBinding.Proofs.Decoration
import XmlBinding.Proofs.Image
import XmlBinding.Proofs.Tally

/-!
# The elements of a mapped document

The four rules of the mapping are found for every element. So an element adds one line to the trace
and four calls to each phase, and what a whole document adds follows by induction on its tree: the
lines of its elements, in the order of their start tags.
-/
namespace XmlBinding

open Generic (ReaderEvent Fragment assignments delivered? nameIn)

/-! ### The tree of a text -/

/-- The tree of what is delivered to a binder for the tree of a text: the same texts, and elements
with the same names and attributes. -/
inductive Renders (aware : Bool) : Fragment → Content → Prop
  | done : Renders aware .done .done
  | text (content : String) {rest : Fragment} {rest' : Content} (hrest : Renders aware rest rest') :
    Renders aware (.text content rest) (.text content rest')
  | element {name : String} {attrs : List (String × String)} {tag : StartTag} {closing : EndTag}
      {inner rest : Fragment} {inner' rest' : Content}
      (hname : tag.name = elementName (nameIn aware name) name)
      (hassigned : tag.attrs.map (fun a => (a.name, a.value)) = assignments aware attrs)
      (hinner : Renders aware inner inner') (hrest : Renders aware rest rest') :
    Renders aware (.element name attrs inner rest) (.element tag inner' closing rest')

/-- The events of a reader are those of a tree if it delivers a tree. -/
theorem exists_renders {aware : Bool} {rs : List ReaderEvent} (k : Content)
    (h : List.Forall₂ (Conveys aware) rs k.events) :
    ∃ c : Fragment, c.events = rs ∧ Renders aware c k := by
  induction k generalizing rs with
  | done =>
    cases h
    exact ⟨.done, rfl, .done⟩
  | text content rest ih =>
    cases h with
    | cons hfirst hrest =>
      cases hfirst
      obtain ⟨c, rfl, hc⟩ := ih hrest
      exact ⟨.text content c, rfl, .text content hc⟩
  | element tag inner closing rest inner_ih rest_ih =>
    obtain ⟨first, others, hfirst, hothers, rfl⟩ := List.forall₂_cons_right_iff.mp h
    cases hfirst with
    | @start name attrs _ _ hname hassigned =>
      obtain ⟨c, hinner, hc⟩ := inner_ih (List.forall₂_take_append others _ _ hothers)
      obtain ⟨last, behind, hlast, hrest, hsplit⟩ :=
        List.forall₂_cons_right_iff.mp (List.forall₂_drop_append others _ _ hothers)
      cases hlast
      obtain ⟨d, rfl, hd⟩ := rest_ih hrest
      refine ⟨.element name attrs c d, ?_, .element hname hassigned hc hd⟩
      rw [Fragment.events, hinner, ← hsplit, List.take_append_drop]

namespace Generic

/-- The names of the elements, in the order of their start tags. -/
def Fragment.names (aware : Bool) : Fragment → List String
  | .done => []
  | .text _ rest => rest.names aware
  | .element name _ inner rest =>
    elementName (nameIn aware name) name :: (inner.names aware ++ rest.names aware)

/-- The elements in the order of their start tags, each with the names of the elements that it is
in, the outermost first, and its own. -/
def Fragment.paths (aware : Bool) (around : List String) : Fragment → List (List String)
  | .done => []
  | .text _ rest => rest.paths aware around
  | .element name _ inner rest =>
    let path := around ++ [elementName (nameIn aware name) name]
    path :: (inner.paths aware path ++ rest.paths aware around)

/-! ### What an element adds -/

/-- The line of an element. -/
def lineOf (trim : Bool) (path : List String) : ElementTrace :=
  ⟨pathOf path.reverse, path.length, (refs trim).map (·.name .none)⟩

/-- What some elements add to the metrics. -/
structure Adds (trim : Bool) (paths : List (List String)) (m m' : Metrics) : Prop where
  elements : m'.elements = m.elements + paths.length
  calls : ∀ phase, phase ≠ .finish → m'.count phase = m.count phase + 4 * paths.length
  maxDepth : m'.maxDepth = (paths.map List.length).foldl max m.maxDepth
  trace : m'.trace = m.trace ++ paths.map (lineOf trim)

namespace Adds

variable {trim : Bool} {paths more : List (List String)} {m m' m'' : Metrics}

theorem nothing (m : Metrics) : Adds trim [] m m :=
  ⟨rfl, fun _ _ => rfl, rfl, (List.append_nil _).symm⟩

theorem append (h : Adds trim paths m m') (h' : Adds trim more m' m'') :
    Adds trim (paths ++ more) m m'' := by
  constructor
  · rw [h'.elements, h.elements, List.length_append, Nat.add_assoc]
  · intro phase hphase
    rw [h'.calls phase hphase, h.calls phase hphase, List.length_append]
    omega
  · rw [h'.maxDepth, h.maxDepth, List.map_append, List.foldl_append]
  · rw [h'.trace, h.trace, List.map_append, List.append_assoc]

/-- An element arrives and its rules start; what is inside is added; then its rules get the text and
the end. -/
theorem element {l k : Ledger Empty} {a : Arrival Empty} {path : List String}
    {cb body close : Callback} (hline : a.line? .none = some (lineOf trim path))
    (hcb : cb.phase = .start) (hbody : body.phase = .body) (hclose : close.phase = .close)
    (hinner : Adds trim paths ((l.arrive .none a).callAll cb (refs trim)).metrics k.metrics) :
    Adds trim (path :: paths) l.metrics
      ((k.callAll body (refs trim)).callAll close (refs trim).reverse).metrics := by
  have hdepth : a.depth = path.length := by
    unfold Arrival.line? at hline
    split at hline
    · exact congrArg ElementTrace.depth (Option.some.inj hline)
    · cases hline
  have hstarts : ∀ phase,
      ((l.arrive .none a).callAll cb (refs trim)).metrics.count phase =
        l.metrics.count phase + if Phase.start = phase then 4 else 0 := by
    intro phase
    rw [Ledger.count_callAll, hcb]
    exact congrArg (· + _) (l.metrics.count_record phase ..)
  constructor
  · rw [Ledger.view_callAll _ _ _ Metrics.elements_countCall,
      Ledger.view_callAll _ _ _ Metrics.elements_countCall, hinner.elements,
      Ledger.view_callAll _ _ _ Metrics.elements_countCall, List.length_cons]
    change l.metrics.elements + 1 + paths.length = _
    omega
  · intro phase hphase
    rw [Ledger.count_callAll, Ledger.count_callAll, hinner.calls phase hphase, hstarts,
      hbody, hclose, List.length_cons, List.length_reverse]
    cases phase with
    | finish => exact absurd rfl hphase
    | start | body | close =>
      simp only [reduceCtorEq, if_true, if_false, refs, List.length_cons, List.length_nil]
      omega
  · rw [Ledger.maxDepth_callAll, Ledger.maxDepth_callAll, hinner.maxDepth, Ledger.maxDepth_callAll,
      List.map_cons, List.foldl_cons, ← hdepth]
    rfl
  · rw [Ledger.view_callAll _ _ _ Metrics.trace_countCall,
      Ledger.view_callAll _ _ _ Metrics.trace_countCall, hinner.trace,
      Ledger.view_callAll _ _ _ Metrics.trace_countCall, List.map_cons]
    change (l.metrics.record ..).trace ++ _ = _
    rw [Metrics.trace_record, hline]
    simp

end Adds

/-! ### What the events of a document do -/

/-- What the rules of the mapping never change. -/
structure Terms where
  matcher : Matcher (RuleRef Empty)
  capture : Option Capture
  options : Options

end Generic

def Binder.terms (b : Binder Empty) : Generic.Terms := ⟨b.matcher, b.capture, b.options⟩

namespace Binder

theorem terms_note (b : Binder Empty) (level : Level) (channel : Channel) (text : String) :
    (b.note level channel text).terms = b.terms := by
  rw [note_eq]
  rfl

theorem terms_recordCall (cb : Callback) (ref : RuleRef Empty) (b : Binder Empty) :
    (b.recordCall .none cb ref).terms = b.terms := by
  rw [recordCall_eq]
  rfl

theorem terms_closing {b : Binder Empty} (h : b.capture = none)
    (outer : List (List (RuleRef Empty))) : (b.closing outer).terms = b.terms := by
  unfold closing
  rw [endCapture_of_none h]
  exact terms_note { b with matched := outer } ..

theorem terms_opened (b : Binder Empty) (tag : StartTag) (found : List (RuleRef Empty)) :
    (b.opened .none tag found).terms = b.terms := terms_note ..

theorem terms_of_unread {s b : Binder Empty} (h : s.unread = b.unread) : s.terms = b.terms := by
  have hterms := congrArg terms h
  exact hterms

theorem terms_leave (b : Binder Empty) : b.leave.terms = b.terms := by
  unfold leave
  split <;> rfl

end Binder

namespace Generic

variable {trim : Bool} {b b' s : Binder Empty} {fs : List (Firing Empty)}

/-- The rules of the mapping do not change these terms. -/
theorem terms_called {cb : Callback} {found : List (RuleRef Empty)}
    (hfound : ∀ ref ∈ found, ref ∈ refs trim) (h : Called .none cb found b fs b') :
    b'.terms = b.terms := by
  induction h with
  | nil => rfl
  | @cons ref rest b m b' fs hfire _ ih =>
    obtain ⟨hmem, hrest⟩ := List.forall_mem_cons.mp hfound
    have hkeeps : (ref.fire .none cb).Keeps Binder.terms := by
      simp only [refs, List.mem_cons, List.not_mem_nil, or_false] at hmem
      rcases hmem with rfl | rfl | rfl | rfl <;>
        exact StandardRule.keeps_fire (fun _ => rfl) (fun _ => rfl) rfl (by cases cb <;> rfl)
    exact (ih hrest).trans ((hkeeps.of_ok hfire).trans (b.terms_recordCall cb ref))

/-- The rules of the mapping are found for every element, no node is captured, and a trace is
collected. -/
structure Traced (trim : Bool) (b : Binder Empty) : Prop where
  everywhere : Everywhere b.matcher (refs trim)
  capture : b.capture = none
  wanted : b.options.collectTrace = true

namespace Traced

theorem congr (h : Traced trim b) (hterms : s.terms = b.terms) : Traced trim s := by
  have hmatcher : s.matcher = b.matcher := congrArg Terms.matcher hterms
  have hcapture : s.capture = b.capture := congrArg Terms.capture hterms
  have hoptions : s.options = b.options := congrArg Terms.options hterms
  exact ⟨hmatcher ▸ h.everywhere, hcapture.trans h.capture, hoptions ▸ h.wanted⟩

theorem start (h : Traced trim b) {tag : StartTag} (he : Answers .none (.start tag) b fs b') :
    Traced trim b' ∧
      b'.location = ⟨pathInside b.path tag.name, b.path :: b.outerPaths, refs trim :: b.matched⟩ ∧
      b'.ledger = (b.ledger.arrive .none (b.arrival tag (refs trim))).callAll
        (.start tag.uri tag.name (b.expandAttributes tag.attrs)) (refs trim) := by
  cases he with
  | startInside _ hsome => cases h.capture.symm.trans hsome
  | start _ hfound hcalled =>
    obtain rfl := Option.some.inj ((h.everywhere.rulesFor?_eq ..).symm.trans hfound)
    refine ⟨h.congr ((terms_called (fun _ => id) hcalled).trans (b.terms_opened ..)), ?_, ?_⟩
    · rw [(hcalled.aloof Extension.aloof_none).1, b.location_opened]
    · rw [hcalled.ledger Extension.reserved_none, b.ledger_opened]

theorem close (h : Traced trim b) {tag : EndTag} {path : String} {outerPaths : List String}
    {outer : List (List (RuleRef Empty))} (hmatched : b.matched = refs trim :: outer)
    (hpaths : b.outerPaths = path :: outerPaths) (he : Answers .none (.close tag) b fs b') :
    Traced trim b' ∧ b'.location = ⟨path, outerPaths, outer⟩ ∧
      b'.ledger = (({ b.ledger with matched := outer }.callAll
        (.body tag.uri tag.name (b.expandText b.text)) (refs trim)).callAll
          (.close tag.uri tag.name) (refs trim).reverse) := by
  cases he with
  | closeInside _ hsome => cases h.capture.symm.trans hsome
  | @close _ _ m m' _ _ _ _ _ hm hbodies hends =>
    obtain ⟨rfl, rfl⟩ := List.cons.inj (hmatched.symm.trans hm)
    have hresume : m.resumeText.terms = m.terms := rfl
    refine ⟨h.congr ?_, ?_, ?_⟩
    · rw [m'.terms_leave, terms_called (fun _ => List.mem_reverse.mp) hends, hresume,
        terms_called (fun _ => id) hbodies, Binder.terms_closing h.capture]
    · have hlocation : m'.location = ⟨b.path, b.outerPaths, outer⟩ :=
        (hends.aloof Extension.aloof_none).1.trans
          ((hbodies.aloof Extension.aloof_none).1.trans (b.location_closing outer))
      have houter : m'.outerPaths = path :: outerPaths :=
        (congrArg Location.outerPaths hlocation).trans hpaths
      rw [Binder.leave_eq houter]
      exact congrArg (fun l : Location Empty => Location.mk path outerPaths l.matched) hlocation
    · have hledger : m.resumeText.ledger = m.ledger := rfl
      rw [m'.ledger_leave, hends.ledger Extension.reserved_none, hledger,
        hbodies.ledger Extension.reserved_none, b.ledger_closing]

end Traced

/-- What content leaves behind: the place where it stood, and its elements in the metrics. -/
structure Surveyed (trim : Bool) (paths : List (List String)) (b b' : Binder Empty) : Prop where
  traced : Traced trim b'
  location : b'.location = b.location
  adds : Adds trim paths b.metrics b'.metrics

/-- The names of the elements that are open, the outermost first. -/
structure Under (around : List String) (b : Binder Empty) : Prop where
  path : b.path = pathOf around.reverse
  depth : b.depth = around.length

namespace Under

variable {around : List String}

theorem congr (h : Under around b) (hlocation : s.location = b.location) : Under around s := by
  have hpath : s.path = b.path := congrArg Location.path hlocation
  have hmatched : s.matched = b.matched := congrArg Location.matched hlocation
  refine ⟨hpath.trans h.path, ?_⟩
  unfold Binder.depth
  rw [hmatched]
  exact h.depth

/-- Inside an element. -/
theorem inside (h : Under around b) {tag : StartTag} (hlocation : s.location =
    ⟨pathInside b.path tag.name, b.path :: b.outerPaths, refs trim :: b.matched⟩) :
    Under (around ++ [tag.name]) s := by
  constructor
  · have hpath : s.path = pathInside b.path tag.name := congrArg Location.path hlocation
    rw [hpath, h.path, List.reverse_append]
    rfl
  · have hmatched : s.matched = refs trim :: b.matched := congrArg Location.matched hlocation
    unfold Binder.depth
    rw [hmatched, List.length_append, ← h.depth]
    rfl

/-- The line of an element that opens here. -/
theorem line (h : Under around b) (htraced : Traced trim b) (tag : StartTag) :
    (b.arrival tag (refs trim)).line? .none = some (lineOf trim (around ++ [tag.name])) := by
  have hpath : (b.enter tag.name).path = pathOf (around ++ [tag.name]).reverse := by
    rw [List.reverse_append]
    change _ = pathInside (pathOf around.reverse) tag.name
    rw [← h.path]
    exact congrArg Progress.path (b.progress_enter tag.name)
  unfold Arrival.line? Binder.arrival lineOf
  rw [htraced.wanted, if_pos rfl, hpath, h.depth, List.length_append]
  rfl

end Under

namespace Surveyed

variable {paths more : List (List String)} {around : List String} {m : Binder Empty}

theorem append (h : Surveyed trim paths b m) (h' : Surveyed trim more m b') :
    Surveyed trim (paths ++ more) b b' :=
  ⟨h'.traced, h'.location.trans h.location, h.adds.append h'.adds⟩

/-- An element is surveyed if its content is. -/
theorem element {tag : StartTag} {closing : EndTag} {inner : Content} {es : List DocumentEvent}
    (hb : Traced trim b) (hunder : Under around b)
    (hinner : ∀ {o f within}, Traced trim o → Under (around ++ [tag.name]) o →
      Delivered .none inner.events o within f → Surveyed trim paths o f)
    (h : Delivered .none (.start tag :: (inner.events ++ .close closing :: es)) b fs b') :
    ∃ m gs, Surveyed trim ((around ++ [tag.name]) :: paths) b m ∧
      Delivered .none es m gs b' := by
  cases h with
  | @step _ _ _ s o _ _ _ hs hstart hbehind =>
    have hplace : s.location = b.location := Binder.location_of_unread hs
    have htraced := hb.congr (Binder.terms_of_unread hs)
    obtain ⟨hopened, hentered, hstarts⟩ := htraced.start hstart
    obtain ⟨f, within, behind, -, hcontent, hclose⟩ := hbehind.split
    have hfilled := hinner hopened ((hunder.congr hplace).inside hentered) hcontent
    cases hclose with
    | @step _ _ _ t m _ _ gs ht hclose hlater =>
      have hlocation : t.location = _ :=
        (Binder.location_of_unread ht).trans (hfilled.location.trans hentered)
      obtain ⟨hclosed, hback, hends⟩ := (hfilled.traced.congr (Binder.terms_of_unread ht)).close
        (congrArg Location.matched hlocation) (congrArg Location.outerPaths hlocation) hclose
      refine ⟨m, gs, ⟨hclosed, hback.trans hplace, ?_⟩, hlater⟩
      have hbefore : s.metrics = b.metrics :=
        congrArg Progress.metrics (Binder.progress_eq_of_unread hs)
      have hafter : t.metrics = f.metrics :=
        congrArg Progress.metrics (Binder.progress_eq_of_unread ht)
      have hopening : o.metrics = _ := congrArg Ledger.metrics hstarts
      have hclosing : m.metrics = _ := congrArg Ledger.metrics hends
      have hinside := hfilled.adds
      rw [hopening, ← hafter] at hinside
      rw [hclosing, ← hbefore]
      exact Adds.element (l := s.ledger) (k := { t.ledger with matched := s.matched })
        ((hunder.congr hplace).line htraced tag) rfl rfl rfl hinside

end Surveyed

/-- Content is surveyed, wherever it stands. -/
theorem surveyed_content {aware : Bool} {c : Fragment} {k : Content} {around : List String}
    (hc : Renders aware c k) (hb : Traced trim b) (hunder : Under around b)
    (h : Delivered .none k.events b fs b') : Surveyed trim (c.paths aware around) b b' := by
  induction hc generalizing around b fs b' with
  | done =>
    cases h with
    | done h =>
      have hmetrics : b'.metrics = b.metrics :=
        congrArg Progress.metrics (Binder.progress_eq_of_unread h)
      exact ⟨hb.congr (Binder.terms_of_unread h), Binder.location_of_unread h,
        hmetrics ▸ .nothing b'.metrics⟩
  | text content hrest ih =>
    have hbehind := h.behind_text
    rw [characters_of_not_capturing content hb.capture] at hbehind
    obtain ⟨htraced, hlocation, hadds⟩ :=
      ih (b := { b with text := b.text ++ content }) ⟨hb.everywhere, hb.capture, hb.wanted⟩
        ⟨hunder.path, hunder.depth⟩ hbehind
    exact ⟨htraced, hlocation, hadds⟩
  | element hname _ hinner hrest inner_ih rest_ih =>
    obtain ⟨m, gs, hfirst, hlater⟩ := Surveyed.element hb hunder inner_ih h
    rw [hname] at hfirst
    exact hfirst.append (rest_ih hfirst.traced (hunder.congr hfirst.location) hlater)

/-- The end of a document adds no element. -/
theorem adds_endDocument (h : endDocument .none b = .ok () b') :
    Adds trim [] b.metrics b'.metrics := by
  have henters := (Action.meets_of_ok h).mp (Turn.enters_endDocument Extension.reserved_none b)
  generalize hledger : b'.ledger = l at henters
  have hmetrics : b'.metrics = l.metrics := congrArg Ledger.metrics hledger
  rw [hmetrics]
  cases henters with
  | nothing => exact .nothing b.metrics
  | starts ha => cases ha
  | closes ht => cases ht
  | @finishes _ cb hcb done matched _ =>
    refine ⟨Ledger.view_callAll _ _ _ Metrics.elements_countCall, fun phase hphase => ?_,
      Ledger.maxDepth_callAll .., ?_⟩
    · change (b.ledger.callAll cb done).metrics.count phase = _
      rw [Ledger.count_callAll, hcb, if_neg hphase.symm]
      rfl
    · rw [List.map_nil, List.append_nil]
      exact Ledger.view_callAll _ _ _ Metrics.trace_countCall

/-- A text that got through is a tree. Its content was delivered, and then the document was ended. -/
theorem exists_content {text : String} {root : Option Value} (h : parse .none text b = .ok root b') :
    ∃ (c : Fragment) (k : Content) (m : Binder Empty) (fs : List (Firing Empty)),
      delivered? (Markup.scan text.toList) = some c.events ∧
      Renders b.options.namespaceAware c k ∧
      Delivered .none k.events (b.atStart text.toList) fs m ∧ endDocument .none m = .ok () b' := by
  obtain ⟨m, hread⟩ := handleAll_of_parse h
  have hend := (run_eq_endDocument hread).symm.trans (run_of_parse_ok h)
  obtain ⟨⟨rs, es, fs, hdelivered, hhandled⟩, -⟩ := Document.handled_handleAll hread
  obtain ⟨k, rfl⟩ := wellNested_iff.mp hhandled.pairs.closesAll
  obtain ⟨c, rfl, hrenders⟩ := exists_renders k hhandled.conveys
  exact ⟨c, k, m, fs, hdelivered, hrenders, hhandled.delivered, hend⟩

/-- Behind a text that was mapped the metrics have the elements of a tree. -/
theorem adds_parse {o : Options} {text : String} {root : Option Value}
    (h : parse .none text b = .ok root b') (htraced : Traced o.trimText b) (hunder : Under [] b)
    (ho : b.options = o) : ∃ c : Fragment, delivered? (Markup.scan text.toList) = some c.events ∧
      Adds o.trimText (c.paths o.namespaceAware []) {} b'.metrics := by
  obtain ⟨c, k, m, fs, hread, hrenders, hdelivered, hend⟩ := exists_content h
  have hterms : (b.atStart text.toList).terms = b.terms :=
    Binder.terms_note { b with position := some (Position.ofOffset text.toList 0) } ..
  have hsurveyed := surveyed_content hrenders (htraced.congr hterms)
    (hunder.congr (b.location_atStart text.toList)) hdelivered
  have hadds := hsurveyed.adds.append (adds_endDocument hend)
  rw [List.append_nil, ho] at hadds
  exact ⟨c, hread, hadds⟩

/-- The text that a mapping comes from is a tree, and the metrics have all of its elements. -/
theorem adds_run {o : Options} {text : String} {m : Mapping} (ho : o.collectTrace = true)
    (h : run o text = .ok m) :
    ∃ c : Fragment, delivered? (Markup.scan text.toList) = some c.events ∧
      Adds o.trimText (c.paths o.namespaceAware []) {} m.metrics := by
  obtain ⟨b, hall, ⟨matcher, journal, nextRule, nextStack, rfl⟩, hmap⟩ := exists_installed o text
  unfold run at h
  rw [hmap, Binder.push_eq] at h
  split at h
  · next hrun =>
    cases h
    obtain ⟨⟨⟩, s, hdiscard, hreturn⟩ := Action.bind_eq_ok.mp hrun
    obtain ⟨answer, hparse⟩ := Action.discard_eq_ok hdiscard
    cases hreturn
    exact adds_parse hparse ⟨hall, rfl, ho⟩ ⟨rfl, rfl⟩ rfl
  · cases h

end Generic

end XmlBinding
