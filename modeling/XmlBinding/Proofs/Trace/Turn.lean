import XmlBinding.Proofs.Trace.Held

/-!
# The turn of one rule

A rule of an element is called three times: at the start tag, with the text and at the end tag. The
rules in front of it have their starts and their texts before it and their ends behind it, so between
its start and its end there are only calls of the rules behind it, the texts of all rules and the
calls of the content.
-/
namespace XmlBinding

variable {κ : Type} {x : Extension κ} {tag : StartTag} {inner : Content} {closing : EndTag}
  {b b' : Binder κ}

/-- The three calls of one rule among the calls of its element. -/
structure Passage.Turn (p : Passage x tag inner closing b b') (front : List (RuleRef κ))
    (ref : RuleRef κ) (back : List (RuleRef κ)) where
  ahead : List (Firing κ)
  opening : Firing κ
  later : List (Firing κ)
  starting_eq : p.starting = ahead ++ opening :: later
  ahead_length : ahead.length = front.length
  opening_call : opening.call =
    ⟨ref, .start tag.uri tag.name (p.entry.expandAttributes tag.attrs)⟩
  later_calls : later.map Firing.call =
    back.map (⟨·, .start tag.uri tag.name (p.entry.expandAttributes tag.attrs)⟩)
  heard : List (Firing κ)
  told : Firing κ
  unheard : List (Firing κ)
  telling_eq : p.telling = heard ++ told :: unheard
  heard_length : heard.length = front.length
  told_call : told.call = ⟨ref, .body closing.uri closing.name p.text⟩
  sooner : List (Firing κ)
  ending : Firing κ
  behind : List (Firing κ)
  ending_eq : p.ending = sooner ++ ending :: behind
  sooner_calls : sooner.map Firing.call = back.reverse.map (⟨·, .close closing.uri closing.name⟩)
  ending_call : ending.call = ⟨ref, .close closing.uri closing.name⟩
  behind_length : behind.length = front.length

/-- Among the calls of some rules, in their order, is the call of each. -/
theorem Called.exists_call {cb : Callback} {front back : List (RuleRef κ)} {ref : RuleRef κ}
    {fs : List (Firing κ)} (h : Called x cb (front ++ ref :: back) b fs b') :
    ∃ ahead f behind, fs = ahead ++ f :: behind ∧
      ahead.map Firing.call = front.map (⟨·, cb⟩) ∧ f.call = ⟨ref, cb⟩ ∧
      behind.map Firing.call = back.map (⟨·, cb⟩) := by
  have hcalls := h.map_call
  rw [List.map_append, List.map_cons] at hcalls
  obtain ⟨ahead, rest, rfl, hahead, hrest⟩ := List.map_eq_append_iff.mp hcalls
  obtain ⟨f, behind, rfl, hcall, hbehind⟩ := List.map_eq_cons_iff.mp hrest
  exact ⟨ahead, f, behind, rfl, hahead, hcall, hbehind⟩

/-- Every rule of an element has its turn. -/
theorem Passage.exists_turn (p : Passage x tag inner closing b b') {front back : List (RuleRef κ)}
    {ref : RuleRef κ} (h : p.found = front ++ ref :: back) : Nonempty (p.Turn front ref back) := by
  have length_eq {refs : List (RuleRef κ)} {cb : Callback} {fs : List (Firing κ)}
      (hcalls : fs.map Firing.call = refs.map (⟨·, cb⟩)) : fs.length = refs.length := by
    simpa using congrArg List.length hcalls
  obtain ⟨ahead, opening, later, hstarting, hahead, hopening, hlater⟩ := (h ▸ p.starts).exists_call
  obtain ⟨heard, told, unheard, htelling, hheard, htold, -⟩ := (h ▸ p.bodies).exists_call
  have hends := p.ends
  rw [h, List.reverse_append, List.reverse_cons, List.append_assoc] at hends
  obtain ⟨sooner, ending, behind, hending, hsooner, hlast, hbehind⟩ := hends.exists_call
  exact ⟨⟨ahead, opening, later, hstarting, length_eq hahead, hopening, hlater, heard, told, unheard,
    htelling, length_eq hheard, htold, sooner, ending, behind, hending, hsooner, hlast,
    (length_eq hbehind).trans List.length_reverse⟩⟩

namespace Passage.Turn

variable {p : Passage x tag inner closing b b'} {front back : List (RuleRef κ)} {ref : RuleRef κ}
  (t : p.Turn front ref back)

/-- The calls between the start of the rule and its end. -/
def between : List (Firing κ) := t.later ++ ((p.within ++ p.telling) ++ t.sooner)

theorem firings_eq :
    p.firings = t.ahead ++ t.opening :: (t.between ++ t.ending :: t.behind) := by
  unfold Passage.firings between
  rw [t.starting_eq, t.ending_eq]
  simp only [List.append_assoc, List.cons_append]

theorem opening_fires : t.opening.Fires x :=
  p.fires _ (by simp [t.firings_eq])

theorem told_fires : t.told.Fires x :=
  p.bodies.fires _ (by simp [t.telling_eq])

theorem ending_fires : t.ending.Fires x :=
  p.fires _ (by simp [t.firings_eq])

theorem between_fires : ∀ f ∈ t.between, f.Fires x :=
  fun f hf => p.fires f (by simp [t.firings_eq, hf])

/-- What rules work on is handed on from the start of the rule to its end. -/
theorem linked : Linked Binder.held t.opening.after.held t.between t.ending.before.held := by
  have hlinked := p.linked
  rw [t.firings_eq] at hlinked
  obtain ⟨first, -, hrest⟩ := hlinked.split
  cases hrest with
  | cons _ hrest =>
    obtain ⟨last, hbetween, hending⟩ := hrest.split
    cases hending with
    | cons hlast _ =>
      rw [← hlast] at hbetween
      exact hbetween

end Passage.Turn

end XmlBinding
