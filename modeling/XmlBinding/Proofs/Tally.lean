import XmlBinding.Proofs.Ledger
import XmlBinding.Proofs.Lockstep

/-!
# What the metrics say of a run

A run begins where a document starts and takes one turn after the other, up to the first that does
not get through. Wherever it ends, the metrics have counted the calls of every phase and the start
tags that were dispatched, the greatest depth among these, and a line for each of them that arrived
while a trace was wanted. Elements that are open when the document starts are not measured, so the
greatest depth is that of the run if there are none. When a run gets through the tags of a document
that closes what it opens, every start has had its body and its end.
-/
namespace XmlBinding

variable {κ : Type} {x : Extension κ}

/-! ### Runs -/

/-- One turn after the other, up to the first that does not get through. -/
def proceed (x : Extension κ) (turns : List (Turn κ)) : Action κ BindError Unit :=
  turns.forM (Turn.run x)

/-- The turns that a run takes, with the binder in front of each. -/
def moments (x : Extension κ) : List (Turn κ) → Binder κ → List (Turn κ × Binder κ)
  | [], _ => []
  | t :: rest, b => (t, b) :: match t.run x b with
    | .ok _ b' => moments x rest b'
    | .error _ _ => []

/-- The start tags that a run dispatches, in their order. -/
def arrivals (x : Extension κ) (turns : List (Turn κ)) (b : Binder κ) : List (Arrival κ) :=
  (moments x turns b).filterMap fun moment => moment.1.arrival? moment.2

/-- How deep a run is in front of every turn and at its end. -/
def depths (x : Extension κ) (turns : List (Turn κ)) (b : Binder κ) : List Nat :=
  (moments x turns b).map (·.2.depth) ++ [((proceed x turns).after b).depth]

section Steps

variable {t : Turn κ} {rest : List (Turn κ)} {b b' : Binder κ} {halt : Halt BindError}

theorem after_proceed_of_ok (h : t.run x b = .ok () b') :
    (proceed x (t :: rest)).after b = (proceed x rest).after b' := Action.after_bind_of_ok h _

theorem after_proceed_of_error (h : t.run x b = .error halt b') :
    (proceed x (t :: rest)).after b = b' := Action.after_bind_of_error h _

theorem moments_of_ok (h : t.run x b = .ok () b') :
    moments x (t :: rest) b = (t, b) :: moments x rest b' := by
  rw [moments, h]

theorem moments_of_error (h : t.run x b = .error halt b') :
    moments x (t :: rest) b = [(t, b)] := by
  rw [moments, h]

theorem arrivals_of_ok (h : t.run x b = .ok () b') :
    arrivals x (t :: rest) b = (t.arrival? b).toList ++ arrivals x rest b' := by
  unfold arrivals
  rw [moments_of_ok h, List.filterMap_cons]
  cases t.arrival? b <;> rfl

theorem arrivals_of_error (h : t.run x b = .error halt b') :
    arrivals x (t :: rest) b = (t.arrival? b).toList := by
  unfold arrivals
  rw [moments_of_error h, List.filterMap_cons]
  cases t.arrival? b <;> rfl

theorem depths_of_ok (h : t.run x b = .ok () b') :
    depths x (t :: rest) b = b.depth :: depths x rest b' := by
  unfold depths
  rw [moments_of_ok h, after_proceed_of_ok h]
  rfl

theorem depths_of_error (h : t.run x b = .error halt b') :
    depths x (t :: rest) b = [b.depth, b'.depth] := by
  unfold depths
  rw [moments_of_error h, after_proceed_of_error h]
  rfl

end Steps

/-- Induction along a run, which goes on behind a turn that gets through and ends at one that does
not. Of every turn it is known what it enters. -/
theorem run_induction {P : List (Turn κ) → Binder κ → Prop} (hx : x.Reserved)
    {turns : List (Turn κ)} (hturns : ∀ t ∈ turns, t.Harmless) (b : Binder κ)
    (done : ∀ b, P [] b)
    (through : ∀ {t rest b b'}, t.run x b = .ok () b' → t.Enters x b true b'.ledger → P rest b' →
      P (t :: rest) b)
    (stops : ∀ {t rest b halt b'}, t.run x b = .error halt b' → t.Enters x b false b'.ledger →
      P (t :: rest) b) : P turns b := by
  induction turns generalizing b with
  | nil => exact done b
  | cons t rest ih =>
    obtain ⟨hok, herror⟩ := Action.meets_iff.mp (Turn.enters hx (hturns t List.mem_cons_self) b)
    cases hrun : t.run x b with
    | ok u b' =>
      have hlater := fun other hother => hturns other (List.mem_cons_of_mem _ hother)
      exact through hrun (hok u b' hrun) (ih hlater b')
    | error halt b' => exact stops hrun (herror halt b' hrun)

/-! ### Counting -/

namespace Metrics

/-- How many calls of a phase are counted. -/
def count (m : Metrics) : Phase → Nat
  | .start => m.starts
  | .body => m.bodies
  | .close => m.closes
  | .finish => m.finishes

theorem count_countCall (m : Metrics) (phase other : Phase) :
    (m.countCall phase).count other = m.count other + if phase = other then 1 else 0 := by
  cases phase <;> cases other <;> rfl

variable (m : Metrics) (phase : Phase)

@[simp] theorem elements_countCall : (m.countCall phase).elements = m.elements := by
  cases phase <;> rfl

@[simp] theorem matched_countCall : (m.countCall phase).matched = m.matched := by
  cases phase <;> rfl

@[simp] theorem maxDepth_countCall : (m.countCall phase).maxDepth = m.maxDepth := by
  cases phase <;> rfl

@[simp] theorem trace_countCall : (m.countCall phase).trace = m.trace := by
  cases phase <;> rfl

theorem count_record (depth : Nat) (isMatched : Bool) (line : Option ElementTrace) :
    (m.record depth isMatched line).count phase = m.count phase := by
  cases phase <;> rfl

theorem trace_record (depth : Nat) (isMatched : Bool) (line : Option ElementTrace) :
    (m.record depth isMatched line).trace = m.trace ++ line.toList := by
  change (line.toList ++ m.reversedTrace).reverse = m.reversedTrace.reverse ++ line.toList
  cases line <;> simp

end Metrics

namespace Ledger

variable (l : Ledger κ) (cb : Callback) (refs : List (RuleRef κ))

theorem count_callAll (phase : Phase) : (l.callAll cb refs).metrics.count phase =
    l.metrics.count phase + if cb.phase = phase then refs.length else 0 := by
  induction refs generalizing l with
  | nil => simp [callAll]
  | cons ref rest ih =>
    have hcall : (l.call cb ref).metrics.count phase =
        l.metrics.count phase + if cb.phase = phase then 1 else 0 :=
      l.metrics.count_countCall cb.phase phase
    rw [show l.callAll cb (ref :: rest) = (l.call cb ref).callAll cb rest from rfl, ih, hcall]
    by_cases hphase : cb.phase = phase
    · simp only [hphase, if_true, List.length_cons]
      omega
    · simp only [hphase, if_false]

/-- Calls leave alone what does not count them. -/
theorem view_callAll {γ : Type} {view : Metrics → γ}
    (hview : ∀ (m : Metrics) (phase : Phase), view (m.countCall phase) = view m) :
    view (l.callAll cb refs).metrics = view l.metrics := by
  induction refs generalizing l with
  | nil => rfl
  | cons ref rest ih => exact (ih (l.call cb ref)).trans (hview l.metrics cb.phase)

theorem maxDepth_callAll : (l.callAll cb refs).metrics.maxDepth = l.metrics.maxDepth :=
  l.view_callAll cb refs Metrics.maxDepth_countCall

end Ledger

/-- The metrics of a ledger agree with its calls and with the start tags that were dispatched. -/
structure Tallied (x : Extension κ) (seen : List (Arrival κ)) (l : Ledger κ) : Prop where
  calls : ∀ phase, l.metrics.count phase = l.calls.countP (·.callback.phase = phase)
  elements : l.metrics.elements = seen.length
  matched : l.metrics.matched = seen.countP (!·.rules.isEmpty)
  deepest : l.metrics.maxDepth = (seen.map (·.depth)).foldl max 0
  trace : l.metrics.trace = seen.filterMap (·.line? x)

namespace Tallied

variable {seen : List (Arrival κ)} {l : Ledger κ}

theorem call (h : Tallied x seen l) (cb : Callback) (ref : RuleRef κ) :
    Tallied x seen (l.call cb ref) := by
  constructor
  · intro phase
    change (l.metrics.countCall cb.phase).count phase = (⟨ref, cb⟩ :: l.calls).countP _
    rw [Metrics.count_countCall, h.calls, List.countP_cons]
    simp only [decide_eq_true_eq]
  · exact (l.metrics.elements_countCall cb.phase).trans h.elements
  · exact (l.metrics.matched_countCall cb.phase).trans h.matched
  · exact (l.metrics.maxDepth_countCall cb.phase).trans h.deepest
  · exact (l.metrics.trace_countCall cb.phase).trans h.trace

theorem callAll (h : Tallied x seen l) (cb : Callback) (refs : List (RuleRef κ)) :
    Tallied x seen (l.callAll cb refs) := by
  induction refs generalizing l with
  | nil => exact h
  | cons ref rest ih => exact ih (h.call cb ref)

theorem setMatched (h : Tallied x seen l) (matched : List (List (RuleRef κ))) :
    Tallied x seen { l with matched } := ⟨h.calls, h.elements, h.matched, h.deepest, h.trace⟩

theorem arrive (h : Tallied x seen l) (a : Arrival κ) :
    Tallied x (seen ++ [a]) (l.arrive x a) := by
  constructor
  · intro phase
    exact (l.metrics.count_record phase ..).trans (h.calls phase)
  · change l.metrics.elements + 1 = _
    rw [h.elements, List.length_append, List.length_singleton]
  · change (if (!a.rules.isEmpty) = true then l.metrics.matched + 1 else l.metrics.matched) = _
    rw [h.matched, List.countP_append, List.countP_singleton]
    split <;> rfl
  · change max l.metrics.maxDepth a.depth = _
    rw [h.deepest, List.map_append, List.foldl_append]
    rfl
  · change (l.metrics.record ..).trace = _
    rw [Metrics.trace_record, h.trace, List.filterMap_append]
    cases hline : a.line? x <;> simp [hline]

/-- A turn adds the start tag that it dispatches. -/
theorem enters {t : Turn κ} {b : Binder κ} {through : Bool} (h : Tallied x seen b.ledger)
    (ht : t.Enters x b through l) : Tallied x (seen ++ (t.arrival? b).toList) l := by
  cases ht with
  | nothing ht =>
    rw [ht, Option.toList_none, List.append_nil]
    exact h
  | starts ha =>
    rw [ha]
    exact (h.arrive _).callAll ..
  | closes ht =>
    subst ht
    rw [show (Turn.event (.close _)).arrival? b = none from rfl, Option.toList_none,
      List.append_nil]
    exact ((h.setMatched _).callAll ..).callAll ..
  | finishes ht =>
    subst ht
    rw [show Turn.endDocument.arrival? b = none from rfl, Option.toList_none, List.append_nil]
    exact (h.callAll ..).setMatched _

/-- A run adds the start tags that it dispatches, wherever it ends. -/
theorem proceed (hx : x.Reserved) {turns : List (Turn κ)} (hturns : ∀ t ∈ turns, t.Harmless)
    {b : Binder κ} (h : Tallied x seen b.ledger) :
    Tallied x (seen ++ arrivals x turns b) ((proceed x turns).after b).ledger := by
  -- What a run adds does not depend on what was seen before it.
  revert seen
  apply run_induction hx hturns b
  case done =>
    intro b seen h
    rw [show arrivals x [] b = [] from rfl, List.append_nil]
    exact h
  case through =>
    intro t rest b b' hrun henters ih seen h
    rw [arrivals_of_ok hrun, after_proceed_of_ok hrun, ← List.append_assoc]
    exact ih (h.enters henters)
  case stops =>
    intro t rest b halt b' hrun henters seen h
    rw [arrivals_of_error hrun, after_proceed_of_error hrun]
    exact h.enters henters

end Tallied

/-! ### Depths -/

/-- A turn goes down at most by one, and then it is measured. -/
theorem Turn.Enters.climbs {t : Turn κ} {b : Binder κ} {through : Bool} {l : Ledger κ}
    (h : t.Enters x b through l) :
    (l.metrics.maxDepth = b.metrics.maxDepth ∧ l.matched.length ≤ b.depth) ∨
      (l.matched.length = b.depth + 1 ∧
        l.metrics.maxDepth = max b.metrics.maxDepth (b.depth + 1)) := by
  cases h with
  | nothing => exact Or.inl ⟨rfl, Nat.le_refl _⟩
  | @starts a ha =>
    have hdepth : a.depth = b.depth + 1 := by
      unfold Turn.arrival? at ha
      split at ha
      · split at ha
        · cases ha
        · obtain ⟨found, -, rfl⟩ := Option.map_eq_some_iff.mp ha
          rfl
      · cases ha
    right
    rw [Ledger.matched_callAll, Ledger.maxDepth_callAll]
    refine ⟨rfl, ?_⟩
    rw [← hdepth]
    rfl
  | @closes tag ht found outer hm =>
    left
    rw [Ledger.matched_callAll, Ledger.matched_callAll, Ledger.maxDepth_callAll,
      Ledger.maxDepth_callAll]
    refine ⟨rfl, ?_⟩
    unfold Binder.depth
    rw [hm]
    exact Nat.le_succ _
  | finishes _ _ hm =>
    left
    refine ⟨Ledger.maxDepth_callAll .., ?_⟩
    rcases hm with rfl | rfl
    · exact Nat.zero_le _
    · exact Nat.le_refl _

/-- Along a run from a binder these depths are reached, none of them is greater than the first one and
what is measured at the end, and what is newly measured is reached. -/
structure Spans (b : Binder κ) (reached : List Nat) (top : Nat) : Prop where
  measured : b.metrics.maxDepth ≤ top
  bounded : ∀ d ∈ reached, d ≤ max b.depth top
  top_mem : top = b.metrics.maxDepth ∨ top ∈ reached
  depth_mem : b.depth ∈ reached

namespace Spans

variable {b b' : Binder κ} {reached : List Nat} {top : Nat}

theorem rest (b : Binder κ) : Spans b [b.depth] b.metrics.maxDepth where
  measured := Nat.le_refl _
  bounded := by
    intro d hd
    obtain rfl := List.mem_singleton.mp hd
    exact Nat.le_max_left ..
  top_mem := Or.inl rfl
  depth_mem := List.mem_singleton_self _

/-- One turn more in front. -/
theorem cons (h : Spans b' reached top) {t : Turn κ} {through : Bool}
    (ht : t.Enters x b through b'.ledger) : Spans b (b.depth :: reached) top := by
  have hclimbs : (b'.metrics.maxDepth = b.metrics.maxDepth ∧ b'.depth ≤ b.depth) ∨
      (b'.depth = b.depth + 1 ∧ b'.metrics.maxDepth = max b.metrics.maxDepth (b.depth + 1)) :=
    ht.climbs
  have hmeasured := h.measured
  constructor
  case measured => omega
  case bounded =>
    intro d hd
    rcases List.mem_cons.mp hd with rfl | hd
    · exact Nat.le_max_left ..
    · have hd := h.bounded d hd
      omega
  case top_mem =>
    rcases h.top_mem with htop | htop
    · -- What is not measured later was measured before this turn or is the depth behind it.
      by_cases hold : b'.metrics.maxDepth = b.metrics.maxDepth
      · exact Or.inl (htop.trans hold)
      · have hnew : top = b'.depth := by omega
        rw [hnew]
        exact Or.inr (List.mem_cons_of_mem _ h.depth_mem)
    · exact Or.inr (List.mem_cons_of_mem _ htop)
  case depth_mem => exact List.mem_cons_self

theorem proceed (hx : x.Reserved) {turns : List (Turn κ)} (hturns : ∀ t ∈ turns, t.Harmless)
    (b : Binder κ) :
    Spans b (depths x turns b) ((proceed x turns).after b).metrics.maxDepth := by
  apply run_induction hx hturns b
  case done => exact .rest
  case through =>
    intro t rest b b' hrun henters ih
    rw [depths_of_ok hrun, after_proceed_of_ok hrun]
    exact ih.cons henters
  case stops =>
    intro t rest b halt b' hrun henters
    rw [depths_of_error hrun, after_proceed_of_error hrun]
    exact (Spans.rest b').cons henters

end Spans

/-! ### Documents that close what they open -/

namespace Ledger

/-- Every start that was counted has had its body and its end, or its element is open. Of the open
elements, some rules may have started before. -/
def Owes (l : Ledger κ) (before : Nat) : Prop :=
  l.metrics.count .start + before = l.metrics.count .body + l.matched.flatten.length ∧
    l.metrics.count .body = l.metrics.count .close

end Ledger

/-- An event that gets through starts the rules of an element and leaves it open, or closes one and
gives each of its rules its body and its end. -/
theorem Turn.Enters.owes {t : Turn κ} {b : Binder κ} {l : Ledger κ} {before : Nat}
    (h : t.Enters x b true l) (ht : t ≠ .endDocument) (hb : b.ledger.Owes before) :
    l.Owes before := by
  obtain ⟨hstarts, hbodies⟩ := hb
  cases h with
  | nothing => exact ⟨hstarts, hbodies⟩
  | @starts a _ cb hcb done hall =>
    obtain rfl := hall rfl
    unfold Ledger.Owes
    simp only [Ledger.count_callAll, Ledger.matched_callAll, hcb, reduceCtorEq, if_true, if_false,
      Nat.add_zero]
    refine ⟨?_, hbodies⟩
    change b.ledger.metrics.count .start + a.rules.length + before =
      b.ledger.metrics.count .body + (a.rules ++ b.ledger.matched.flatten).length
    rw [List.length_append]
    omega
  | @closes _ _ found outer hm body close hbody hclose told ended hall =>
    obtain ⟨rfl, hlength⟩ := hall rfl
    unfold Ledger.Owes
    simp only [Ledger.count_callAll, Ledger.matched_callAll, hbody, hclose, reduceCtorEq, if_true,
      if_false, Nat.add_zero]
    have hmatched : b.ledger.matched.flatten.length = told.length + outer.flatten.length := by
      change b.matched.flatten.length = _
      rw [hm, List.flatten_cons, List.length_append]
    omega
  | finishes hend => exact absurd hend ht

/-- So many elements that a run has opened are open, on top of those that were open before. Where a
node was captured before, they are all inside it. -/
inductive Within (base : List (List (RuleRef κ))) (opened : Nat) (b : Binder κ) : Prop
  | outside {inner : List (List (RuleRef κ))} (hm : b.matched = inner ++ base)
      (hopened : inner.length + Capture.inside b.capture = opened)
  | captured {c : Capture} (hc : b.capture = some c) (hm : b.matched = base)
      (hopened : opened ≤ c.nested.length)

theorem Called.fresh (hx : x.Reserved) {cb : Callback} {refs : List (RuleRef κ)} {b b' : Binder κ}
    {fs : List (Firing κ)} (h : Called x cb refs b fs b') (hb : Capture.Fresh b.capture) :
    Capture.Fresh b'.capture := by
  induction h with
  | nil => exact hb
  | @cons ref rest b m b' fs hfire _ ih =>
    have hcapture : (b.recordCall x cb ref).capture = b.capture :=
      congrArg Prod.snd (b.course_recordCall x cb ref)
    rw [← hcapture] at hb
    apply ih
    obtain ⟨id, rule | rule⟩ := ref
    · exact (StandardRule.aloof_fire hfire).2 hb
    · exact hx.fresh hfire hb

theorem Capture.fresh_none : Fresh none := nofun

namespace Within

variable {base : List (List (RuleRef κ))} {opened : Nat} {b b' : Binder κ} {fs : List (Firing κ)}
  {e : DocumentEvent} {es : List DocumentEvent}

theorem start (b : Binder κ) : Within b.matched 0 b := by
  cases hb : b.capture with
  | none => exact .outside (List.nil_append _).symm (by rw [hb]; rfl)
  | some c => exact .captured hb rfl (Nat.zero_le _)

theorem matched_eq (h : Within base 0 b) : b.matched = base := by
  cases h with
  | outside hm hopened =>
    obtain ⟨hnil, -⟩ := Nat.add_eq_zero_iff.mp hopened
    rw [hm, List.length_eq_zero_iff.mp hnil, List.nil_append]
  | captured _ hm _ => exact hm

theorem congr (h : Within base opened b) (hm : b'.matched = b.matched)
    (hc : b'.capture = b.capture) : Within base opened b' := by
  cases h with
  | outside hb hopened => exact .outside (hm.trans hb) (by rw [hc, hopened])
  | captured hown hb hopened => exact .captured (hc.trans hown) (hm.trans hb) hopened

theorem text (h : Within base opened b) (content : String) :
    Within base opened (b.characters content) := by
  cases hb : b.capture with
  | none =>
    rw [characters_of_not_capturing content hb]
    exact h.congr rfl rfl
  | some own =>
    have hlength := own.length_nested_text content
    rw [characters_of_capturing content hb]
    cases h with
    | outside hm hopened =>
      rw [hb] at hopened
      refine .outside hm ?_
      change _ + (own.text content).nested.length = opened
      rw [hlength]
      exact hopened
    | captured hc hm hopened =>
      obtain rfl := Option.some.inj (hc.symm.trans hb)
      refine .captured rfl hm ?_
      rw [hlength]
      exact hopened

/-- A start tag that gets through opens one element more. -/
theorem opens (hx : x.Reserved) (h : Within base opened b) {tag : StartTag}
    (he : Answers x (.start tag) b fs b') : Within base (opened + 1) b' := by
  cases he with
  | @startInside _ _ own hb =>
    cases h with
    | outside hm hopened =>
      rw [hb] at hopened
      refine .outside hm ?_
      change _ + (own.nested.length + 1) = _
      rw [← Nat.add_assoc]
      exact congrArg (· + 1) hopened
    | captured hc hm hopened =>
      obtain rfl := Option.some.inj (hc.symm.trans hb)
      exact .captured rfl hm (Nat.succ_le_succ hopened)
  | @start _ _ _ found _ hb _ hcalled =>
    have hmatched : b'.matched = found :: b.matched := by
      have hledger := hcalled.ledger hx
      rw [b.ledger_opened] at hledger
      exact (congrArg Ledger.matched hledger).trans (Ledger.matched_callAll ..)
    have hcapture : (b.opened x tag found).capture = none := (b.capture_enter tag.name).trans hb
    have hinside : Capture.inside b'.capture = 0 :=
      Capture.inside_of_fresh (hcalled.fresh hx (hcapture ▸ Capture.fresh_none))
    cases h with
    | @outside inner hm hopened =>
      rw [hb] at hopened
      refine .outside (by rw [hmatched, hm, List.cons_append]) ?_
      rw [hinside]
      exact congrArg (· + 1) hopened
    | captured hc => cases hc.symm.trans hb

/-- An end tag that gets through closes one of them. -/
theorem closes (hx : x.Reserved) (h : Within base (opened + 1) b) {tag : EndTag}
    (he : Answers x (.close tag) b fs b') : Within base opened b' := by
  cases he with
  | @closeInside _ _ own own' hb hc =>
    have hlength := Capture.length_nested_close hc
    cases h with
    | @outside inner hm hopened =>
      rw [hb] at hopened
      change inner.length + own.nested.length = opened + 1 at hopened
      refine .outside hm ?_
      change inner.length + own'.nested.length = opened
      omega
    | captured hown hm hopened =>
      obtain rfl := Option.some.inj (hown.symm.trans hb)
      exact .captured rfl hm (by omega)
  | @close _ _ m m' found outer fs gs hc hm hbodies hends =>
    cases h with
    | captured hown _ hopened =>
      -- A node that was captured before the run outlives what the run opens in it.
      have hnested := Capture.inside_of_bind_close? hc
      rw [hown] at hnested
      change _ = 0 at hnested
      change opened + 1 ≤ Capture.inside (some _) at hopened
      omega
    | @outside inner hbase hopened =>
      rw [Capture.inside_of_bind_close? hc] at hopened
      cases inner with
      | nil => cases hopened
      | cons first inner =>
        obtain ⟨-, rfl⟩ := List.cons.inj (hm.symm.trans hbase)
        have hresumed : m.resumeText.ledger = m.ledger := rfl
        have hmatched : m'.leave.matched = inner ++ base := by
          have hledger := hends.ledger hx
          rw [hresumed, hbodies.ledger hx, b.ledger_closing] at hledger
          have hkept := congrArg Ledger.matched hledger
          rw [Ledger.matched_callAll, Ledger.matched_callAll] at hkept
          exact (congrArg Ledger.matched m'.ledger_leave).trans hkept
        have hnone : (b.closing (inner ++ base)).capture = none :=
          congrArg Prod.snd (b.course_closing _)
        have hfresh : Capture.Fresh m'.leave.capture := by
          rw [m'.capture_leave]
          exact hends.fresh hx (hbodies.fresh hx (hnone ▸ Capture.fresh_none))
        refine .outside hmatched ?_
        rw [Capture.inside_of_fresh hfresh]
        exact Nat.succ.inj hopened

/-- An event of a document that closes what it opens. -/
theorem answers (hx : x.Reserved) (h : Within base opened b) (he : Answers x e b fs b')
    (hes : closesAll opened (e :: es) = true) :
    ∃ opened', Within base opened' b' ∧ closesAll opened' es = true := by
  cases e with
  | start tag => exact ⟨opened + 1, h.opens hx he, hes⟩
  | text content =>
    cases he
    exact ⟨opened, h.text content, hes⟩
  | close tag =>
    cases opened with
    | zero => cases hes
    | succ outer => exact ⟨outer, h.closes hx he, hes⟩

end Within

def Turn.event? : Turn κ → Option DocumentEvent
  | .event e => some e
  | _ => none

/-- A run that gets through the tags of a document that closes what it opens leaves the elements open
that it found open, and owes what was owed. -/
theorem settled_proceed (hx : x.Reserved) {turns : List (Turn κ)}
    (hturns : ∀ t ∈ turns, t.Harmless) (hend : .endDocument ∉ turns)
    {base : List (List (RuleRef κ))} {opened before : Nat} {b m : Binder κ}
    (hes : closesAll opened (turns.filterMap Turn.event?) = true) (hb : Within base opened b)
    (howes : b.ledger.Owes before) (hrun : proceed x turns b = .ok () m) :
    m.matched = base ∧ m.ledger.Owes before := by
  -- A tag changes how many elements are open; what is owed stays the same throughout.
  induction turns generalizing b opened with
  | nil =>
    cases hrun
    obtain rfl : opened = 0 := by simpa [closesAll] using hes
    exact ⟨hb.matched_eq, howes⟩
  | cons t rest ih =>
    obtain ⟨⟨⟩, b', ht, hrest⟩ := Action.bind_eq_ok.mp hrun
    have hharmless := hturns t List.mem_cons_self
    have hne : t ≠ .endDocument := fun h => hend (h ▸ List.mem_cons_self)
    have howes' : b'.ledger.Owes before :=
      ((Action.meets_of_ok ht).mp (Turn.enters hx hharmless b)).owes hne howes
    have hlater := fun other hother => hturns other (List.mem_cons_of_mem _ hother)
    have hend' : .endDocument ∉ rest := fun h => hend (List.mem_cons_of_mem _ h)
    cases t with
    | endDocument => exact absurd rfl hne
    | aside f =>
      cases ht
      obtain ⟨hledger, hcapture⟩ := hharmless b
      exact ih hlater hend' hes (hb.congr (congrArg Ledger.matched hledger) hcapture) howes' hrest
    | event e =>
      obtain ⟨fs, hanswers⟩ := deliver_eq_ok.mp ht
      obtain ⟨opened', hb', hes'⟩ := hb.answers hx hanswers hes
      exact ih hlater hend' hes' hb' howes' hrest

/-- The end of a document starts no rule and gives none its body or its end. -/
theorem Turn.Enters.count_endDocument {b : Binder κ} {through : Bool} {l : Ledger κ}
    (h : Turn.endDocument.Enters x b through l) {phase : Phase} (hphase : phase ≠ .finish) :
    l.metrics.count phase = b.metrics.count phase := by
  cases h with
  | nothing => rfl
  | starts ha => cases ha
  | closes ht => cases ht
  | @finishes _ cb hcb done =>
    have hcount := b.ledger.count_callAll cb done phase
    rw [hcb, if_neg hphase.symm, Nat.add_zero] at hcount
    exact hcount

/-! ### The law -/

/-- What the metrics say at the end of a run, whose turns began when a document was started. -/
structure Metered (x : Extension κ) (b : Binder κ) (turns : List (Turn κ)) (m : Binder κ) :
    Prop where
  /-- The calls of every phase are counted, one that failed included. -/
  calls : ∀ phase, m.metrics.count phase = m.calls.countP (·.callback.phase = phase)
  /-- The start tags that were dispatched are counted, and those among them that found rules. -/
  elements : m.metrics.elements = (arrivals x turns b).length
  matched : m.metrics.matched = (arrivals x turns b).countP (!·.rules.isEmpty)
  /-- The greatest depth is the greatest to which one of them led. -/
  deepest : m.metrics.maxDepth = ((arrivals x turns b).map (·.depth)).foldl max 0
  /-- If no element was open, it is the greatest depth reached at all. -/
  depth_le : ∀ d ∈ depths x turns b, d ≤ max b.depth m.metrics.maxDepth
  depth_mem : b.depth = 0 → m.metrics.maxDepth ∈ depths x turns b
  /-- The trace has a line for each of them that arrived while a trace was wanted. -/
  trace : m.metrics.trace = (arrivals x turns b).filterMap (·.line? x)
  /-- Of a document that closes what it opens, every start has its body and its end. -/
  closed : ∀ tags last, turns = tags ++ last → last = [] ∨ last = [.endDocument] →
    .endDocument ∉ tags → WellNested (tags.filterMap Turn.event?) →
    proceed x turns b = .ok () m →
    m.metrics.starts = m.metrics.bodies ∧ m.metrics.bodies = m.metrics.closes

/-- The metrics of a document that closes what it opens. -/
theorem closed_of_proceed (hx : x.Reserved) {tags last : List (Turn κ)}
    (htags : ∀ t ∈ tags, t.Harmless) (hlast : last = [] ∨ last = [.endDocument])
    (hend : .endDocument ∉ tags) (hnested : WellNested (tags.filterMap Turn.event?))
    {b m : Binder κ} (hrun : proceed x (tags ++ last) b.startDocument = .ok () m) :
    m.metrics.starts = m.metrics.bodies ∧ m.metrics.bodies = m.metrics.closes := by
  have howes : b.startDocument.ledger.Owes b.startDocument.matched.flatten.length :=
    ⟨rfl, rfl⟩
  rw [proceed, Action.forM_append] at hrun
  obtain ⟨⟨⟩, s, htagged, hlasted⟩ := Action.bind_eq_ok.mp hrun
  obtain ⟨hmatched, hstarts, hbodies⟩ :=
    settled_proceed hx htags hend hnested (Within.start _) howes htagged
  have hs : s.metrics.count .start = s.metrics.count .body := by
    change s.metrics.count .start + _ = s.metrics.count .body + s.matched.flatten.length at hstarts
    rw [hmatched] at hstarts
    omega
  rcases hlast with rfl | rfl
  · cases hlasted
    exact ⟨hs, hbodies⟩
  · obtain ⟨⟨⟩, _, hended, ⟨⟩⟩ := Action.bind_eq_ok.mp hlasted
    have hharmless : (Turn.endDocument : Turn κ).Harmless := trivial
    have henters := (Action.meets_of_ok hended).mp (Turn.enters hx hharmless s)
    have hkept : ∀ phase ≠ .finish, m.metrics.count phase = s.metrics.count phase :=
      fun _ hphase => henters.count_endDocument hphase
    change m.metrics.count .start = m.metrics.count .body ∧
      m.metrics.count .body = m.metrics.count .close
    rw [hkept .start nofun, hkept .body nofun, hkept .close nofun]
    exact ⟨hs, hbodies⟩

/-- **Metrics count what happened.** From the start of a document on, whatever turns follow and
wherever the run stops. -/
theorem tally_law (hx : x.Reserved) {turns : List (Turn κ)} (hturns : ∀ t ∈ turns, t.Harmless)
    (b : Binder κ) :
    Metered x b.startDocument turns ((proceed x turns).after b.startDocument) := by
  have hnew : Tallied x [] b.startDocument.ledger :=
    ⟨fun phase => by cases phase <;> rfl, rfl, rfl, rfl, rfl⟩
  have htally := hnew.proceed hx hturns
  have hspans := Spans.proceed hx hturns b.startDocument
  rw [List.nil_append] at htally
  refine ⟨htally.calls, htally.elements, htally.matched, htally.deepest, hspans.bounded, ?_,
    htally.trace, ?_⟩
  · intro hdepth
    rcases hspans.top_mem with htop | htop
    · rw [htop, show b.startDocument.metrics.maxDepth = 0 from rfl, ← hdepth]
      exact hspans.depth_mem
    · exact htop
  · rintro tags last rfl hlast hend hnested hrun
    have htags := fun t ht => hturns t (List.mem_append_left _ ht)
    exact closed_of_proceed hx htags hlast hend hnested hrun

/-- An element behind a position that is noted, with a rule that fails at the end of the document. -/
theorem tally_law_of_a_failing_finish :
    let x : Extension Unit := ⟨fun _ => "fails", fun _ cb => match cb with
      | .finish => Action.fail (.custom "no")
      | _ => pure ()⟩
    let table : Table (RuleRef Unit) := ({} : Table _).register ['a'] ⟨0, .custom ()⟩
    let b : Binder Unit := { matcher := .plain table, options := { collectTrace := true } }
    let turns : List (Turn Unit) := [.aside fun b => { b with position := some ⟨1, 1⟩ },
      .event (.start ⟨"", "", "a", []⟩), .event (.text "t"), .event (.close ⟨"", "", "a"⟩),
      .endDocument]
    let m := (proceed x turns).after b.startDocument
    x.Reserved ∧ (∀ t ∈ turns, t.Harmless) ∧ Metered x b.startDocument turns m ∧
      m.metrics.finishes = 1 ∧ m.metrics.trace = [⟨"a", 1, ["fails"]⟩] := by
  intro x table b turns m
  have hfire : ∀ {γ : Type} (view : Binder Unit → γ) rule cb, (x.fire rule cb).Keeps view := by
    intro γ view rule cb
    cases cb with
    | finish => exact Action.keeps_fail _
    | _ => exact Action.keeps_pure _
  have hx : x.Reserved :=
    ⟨hfire _, fun h hfresh => (hfire Binder.capture _ _).of_ok h ▸ hfresh⟩
  have hturns : ∀ t ∈ turns, t.Harmless := by
    intro t ht
    cases t with
    | aside f =>
      simp only [turns, List.mem_cons, Turn.aside.injEq, reduceCtorEq, List.not_mem_nil,
        or_false] at ht
      subst ht
      exact fun _ => ⟨rfl, rfl⟩
    | event e => trivial
    | endDocument => trivial
  exact ⟨hx, hturns, tally_law hx hturns b, by decide +kernel, by decide +kernel⟩

/-- An element that is open when the document starts is not measured, however long it stays open. -/
theorem open_elements_are_not_measured :
    let b := (deliver .none (.start ⟨"", "", "a", []⟩)).after ({} : Binder Empty)
    let m := (proceed .none [.event (.text "t")]).after b.startDocument
    m.depth = 1 ∧ m.metrics.maxDepth = 0 := by
  decide +kernel

end XmlBinding
