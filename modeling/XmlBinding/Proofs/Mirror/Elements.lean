import XmlBinding.Proofs.Mirror.Events

/-!
# Elements and their mirror images

Between the tags of a document two related binders have the same elements open, inside a captured
node or not, and the decorations that are in place are those of the rules of the open elements. So a
document that has closed all its elements has taken all decorations down again.
-/
namespace XmlBinding

/-- How many decorations the rules of the open elements have put up. -/
def decorations (matched : List (List (RuleRef Empty))) : Nat := Action.decorators matched.flatten

theorem decorations_cons (found : List (RuleRef Empty)) (outer : List (List (RuleRef Empty))) :
    decorations (found :: outer) = decorations outer + Action.decorators found := by
  unfold decorations Action.decorators
  rw [List.flatten_cons, List.countP_append, Nat.add_comm]

/-- What a ground is set up with refers to no object that was there before. -/
structure Ground.Closed (g : Ground) : Prop where
  setup : g.setup.Closed
  rules : g.matcher.Closed g.setup.labels

/-- Two binders in the middle of a document, with so many elements open. -/
structure Along (g : Ground) (depth : Nat) (spaces : String → List String) (s b : Binder Empty) :
    Prop where
  mirrors : Mirrors g ⟨decorations s.matched, spaces⟩ s b
  texts : s.outerTexts.length = s.matched.length
  depth_eq : depth = s.matched.length + Capture.inside s.capture

namespace Progress

variable {κ : Type} (p : Progress κ) (tag : EndTag) (found : List (RuleRef κ))
  (outer : List (List (RuleRef κ))) (text : String)

theorem matched_closed : (p.closed tag found outer text).matched = outer := by
  unfold closed leave
  split <;> rfl

theorem outerTexts_closed : (p.closed tag found outer text).outerTexts = p.outerTexts.tail := by
  unfold closed leave
  split <;> rfl

end Progress

namespace Along

open XmlBinding.Action

variable {g : Ground} {depth : Nat} {spaces : String → List String} {s b : Binder Empty}

theorem characters (h : Along g depth spaces s b) (content : String) :
    Along g depth spaces (s.characters content) (b.characters content) := by
  have hm := h.mirrors.characters content
  cases hc : s.capture with
  | some c =>
    rw [characters_of_capturing content hc] at hm ⊢
    refine ⟨hm, h.texts, ?_⟩
    rw [h.depth_eq, hc]
    exact congrArg (_ + ·) (c.length_nested_text content).symm
  | none =>
    rw [characters_of_not_capturing content hc] at hm ⊢
    exact ⟨hm, h.texts, h.depth_eq⟩

/-- A start tag opens one more element. -/
theorem start (hg : g.Closed) (h : Along g depth spaces s b) (tag : StartTag) :
    Together id (fun _ => Along g (depth + 1) spaces) (Related g)
      (deliver .none (.start tag) s) (deliver .none (.start tag) b) := by
  cases hc : s.capture with
  | some c =>
    rw [startElement_captured .none tag s c hc,
      startElement_captured .none tag b c (h.mirrors.capture.trans hc)]
    refine .ok ⟨h.mirrors.setCapture _, h.texts, ?_⟩
    rw [h.depth_eq, hc]
    exact Nat.add_assoc ..
  | none =>
    have hcb : b.capture = none := h.mirrors.capture.trans hc
    have hfound := h.mirrors.rulesAt?_eq tag
    cases hf : s.rulesAt? tag with
    | none =>
      rw [hf] at hfound
      rw [start_eq_crash tag hc hf, start_eq_crash tag hcb (Option.map_eq_none_iff.mp hfound)]
      exact .crash
    | some found =>
      rw [hf] at hfound
      obtain ⟨found', hf', hsame⟩ := Option.map_eq_some_iff.mp hfound
      have hclosed : ∀ ref ∈ found, ref.standard.Closed g.setup.labels :=
        h.mirrors.matcher.closed hg.rules _ _ _ _ _ hf
      -- The second run has the answers of the first, and only the first is asked how far it came.
      have htogether : Together id
          (fun _ => Mirrors g (Stage.up ⟨decorations s.matched, spaces⟩ (decorators found)))
          (Related g) (deliver .none (.start tag) s) (deliver .none (.start tag) b) := by
        rw [start_eq_callRules tag hc hf, start_eq_callRules tag hcb hf',
          h.mirrors.expandAttributes]
        exact (mirrored_starts hg.setup hclosed hsame ..).together _ _ (h.mirrors.opened tag hsame)
      refine (htogether.and_meets (meets_start Extension.quiet_none tag s hc)).mono
        (fun _ s' b' hnew => ?_) fun _ _ => id
      obtain ⟨hmirrors, own, hown, hprogress, hfresh⟩ := hnew
      obtain rfl : found = own := Option.some.inj (hf.symm.trans hown)
      rw [Binder.progress_opened] at hprogress
      have hmatched : s'.matched = found :: s.matched := congrArg Progress.matched hprogress
      have htexts : s'.outerTexts = s.text :: s.outerTexts :=
        congrArg Progress.outerTexts hprogress
      have hinside : Capture.inside s'.capture = 0 := by
        cases hs' : s'.capture with
        | none => rfl
        | some own => exact congrArg List.length (hfresh own hs')
      refine ⟨?_, ?_, ?_⟩
      · have hcount : decorations s'.matched = decorations s.matched + decorators found := by
          rw [hmatched, decorations_cons]
        rw [hcount]
        exact hmirrors
      · rw [htexts, hmatched, List.length_cons, List.length_cons, h.texts]
      · rw [hinside, hmatched, h.depth_eq, hc]
        rfl

/-- An end tag inside a captured node closes an element of the node. -/
theorem close_captured (h : Along g (depth + 1) spaces s b) (tag : EndTag) {c c' : Capture}
    (hc : s.capture = some c) (hc' : c.close? = some c') :
    Together id (fun _ => Along g depth spaces) (Related g)
      (deliver .none (.close tag) s) (deliver .none (.close tag) b) := by
  rw [endElement_captured .none tag s c c' hc hc',
    endElement_captured .none tag b c c' (h.mirrors.capture.trans hc) hc']
  refine .ok ⟨h.mirrors.setCapture _, h.texts, ?_⟩
  have hinside := Capture.length_nested_close hc'
  have hdepth := h.depth_eq
  rw [hc] at hdepth
  change depth + 1 = s.matched.length + c.nested.length at hdepth
  change depth = s.matched.length + c'.nested.length
  omega

/-- Where no element of a node is open, the innermost open element has rules, and both binders have
the same ones for it. -/
theorem exists_innermost (h : Along g (depth + 1) spaces s b)
    (hclose : s.capture.bind (·.close?) = none) :
    ∃ found outer found' outer', s.matched = found :: outer ∧ b.matched = found' :: outer' ∧
      found'.map RuleRef.anonymous = found.map RuleRef.anonymous ∧
      outer'.map (List.map RuleRef.anonymous) = outer.map (List.map RuleRef.anonymous) ∧
      depth = outer.length := by
  have hinside : Capture.inside s.capture = 0 := by
    cases hc : s.capture with
    | none => rfl
    | some c =>
      rw [hc, Option.bind_some] at hclose
      exact congrArg List.length (Capture.nested_eq_nil hclose)
  have hlength : s.matched.length = depth + 1 := by
    have hdepth := h.depth_eq
    omega
  obtain ⟨found, outer, hm⟩ := List.exists_cons_of_length_eq_add_one hlength
  have hmatched := h.mirrors.matched
  rw [hm] at hmatched hlength
  obtain ⟨found', outer', hm', hsame, houter⟩ := List.map_eq_cons_iff.mp hmatched
  exact ⟨found, outer, found', outer', hm, hm', hsame, houter, (Nat.succ.inj hlength).symm⟩

/-- An end tag closes one. -/
theorem close (h : Along g (depth + 1) spaces s b) (tag : EndTag) :
    Together id (fun _ => Along g depth spaces) (Related g)
      (deliver .none (.close tag) s) (deliver .none (.close tag) b) := by
  cases hclose : s.capture.bind (·.close?) with
  | some c' =>
    obtain ⟨c, hc, hc'⟩ := Option.bind_eq_some_iff.mp hclose
    exact h.close_captured tag hc hc'
  | none =>
    obtain ⟨found, outer, found', outer', hm, hm', hsame, houter, hdepth⟩ :=
      h.exists_innermost hclose
    have hcloseb : b.capture.bind (·.close?) = none := by
      rw [h.mirrors.capture]
      exact hclose
    have htexts : s.outerTexts ≠ [] := by
      intro hnil
      have hlen := h.texts
      rw [hnil, hm] at hlen
      cases hlen
    -- The element takes down what it has put up, so the stage is split at its rules.
    have hmirrors : Mirrors g (Stage.up ⟨decorations outer, spaces⟩ (decorators found))
        (s.closing outer) (b.closing outer') := by
      have hbefore := h.mirrors
      rw [hm, decorations_cons] at hbefore
      exact hbefore.closing houter
    have htogether : Together id (fun _ => Mirrors g ⟨decorations outer, spaces⟩)
        (Related g) (deliver .none (.close tag) s) (deliver .none (.close tag) b) := by
      rw [close_eq_closeRules tag hclose hm, close_eq_closeRules tag hcloseb hm',
        h.mirrors.expandText, h.mirrors.text htexts]
      exact (mirrored_closeRules hsame tag _).together _ _ hmirrors
    refine (htogether.and_meets (meets_close Extension.quiet_none tag s found outer hclose hm)).mono
      (fun _ s' b' hnew => ?_) fun _ _ => id
    obtain ⟨hmirrors, hcapture, hprogress⟩ := hnew
    have hmatched : s'.matched = outer :=
      (congrArg Progress.matched hprogress).trans (Progress.matched_closed ..)
    have hrest : s'.outerTexts = s.outerTexts.tail :=
      (congrArg Progress.outerTexts hprogress).trans (Progress.outerTexts_closed ..)
    refine ⟨hmatched ▸ hmirrors, ?_, ?_⟩
    · rw [hrest, hmatched, List.length_tail, h.texts, hm]
      rfl
    · rw [hmatched, hcapture]
      exact hdepth

end Along

end XmlBinding
