import XmlBinding.Proofs.LongestSuffix
import XmlBinding.Proofs.Matching
import XmlBinding.Proofs.Scene
import XmlBinding.Registration
import XmlBinding.Script.MatcherStep

/-!
# Several rules under one pattern

When several rules are registered under one pattern, either all of them are, behind everything that
was there, or nothing has changed. A refusal hangs on the pattern and on the kind of the matcher
only, so the first rule decides for the others. And a refused rule leaves no trace in any of the
lists that a matcher keeps, whatever it is wrapped in: to be able to say so, registration is
written once more below in single steps, where what was done before a refusal stays done.
-/
namespace XmlBinding

variable {ρ : Type}

/-! ### Registration step by step -/

/-- Register a rule in a table: the check, the row of the pattern, the list of all. -/
def Table.enter (check : List Char → Except PatternError Unit) (pattern : String) (rule : ρ) :
    EStateM PatternError (Table ρ) Unit := do
  let key := Pattern.dropFinalSlash pattern.toList
  match check key with
  | .error cause => throw cause
  | .ok () =>
    let t ← get
    let e : Entry ρ := ⟨String.ofList key, t.scope, rule, t.entries.length⟩
    modify fun t => { t with rows := Table.file key e t.rows }
    modify fun t => { t with entries := t.entries ++ [e] }

/-- Read a pattern that is not empty in the dialect of the moment. -/
def Textual.read (t : Textual ρ) (pattern : String) : Except PatternError Compiled :=
  if pattern.isEmpty then .error .empty
  else match t.dialect.compile? pattern.toList with
    | some c => .ok c
    | none => .error (.notAnExpression pattern)

/-- Register a rule under a pattern that is read. -/
def Textual.enter (pattern : String) (rule : ρ) : EStateM PatternError (Textual ρ) Unit := do
  let t ← get
  match t.read pattern with
  | .error cause => throw cause
  | .ok c =>
    let e : Entry ρ := ⟨pattern, t.scope, rule, t.registered.length⟩
    modify fun t => { t with registered := t.registered ++ [(e, c)] }

/-- Work on a part of a state. -/
def within {ε σ τ : Type} (whole : σ → τ) : EStateM.Result ε σ Unit → EStateM.Result ε τ Unit
  | .ok () part => .ok () (whole part)
  | .error cause part => .error cause (whole part)

namespace Matcher

/-- Register a rule layer by layer. A matcher with defaults notes a rule for its own list when the
matcher inside has taken it. -/
def enter (pattern : String) (rule : ρ) : Matcher ρ → EStateM.Result PatternError (Matcher ρ) Unit
  | .plain t => within .plain (Table.enter Pattern.checkPlain pattern rule t)
  | .extended t => within .extended (Table.enter Pattern.checkExtended pattern rule t)
  | .textual t => within .textual (Textual.enter pattern rule t)
  | .foreign m history => match m.add history pattern rule with
    | .ok history => .ok () (.foreign m history)
    | .error cause => .error cause (.foreign m history)
  | .withDefaults inner defaults all => match inner.enter pattern rule with
    | .ok () inner => .ok () (.withDefaults inner defaults (all ++ [rule]))
    | .error cause inner => .error cause (.withDefaults inner defaults all)
  | .decorated inner place extra => within (.decorated · place extra) (inner.enter pattern rule)

/-- Register several rules, up to the first that is refused. -/
def enterAll (pattern : String) : List ρ → Matcher ρ → EStateM.Result PatternError (Matcher ρ) Unit
  | [], m => .ok () m
  | rule :: rest, m => match m.enter pattern rule with
    | .ok () m => m.enterAll pattern rest
    | .error cause m => .error cause m

end Matcher

/-- The outcome of a step that leaves everything as it was if it fails. -/
def wholly {ε σ : Type} (s : σ) : Except ε σ → EStateM.Result ε σ Unit
  | .ok s' => .ok () s'
  | .error cause => .error cause s

theorem within_wholly {ε σ τ : Type} (whole : σ → τ) (s : σ) (r : Except ε σ) :
    within whole (wholly s r) = wholly (whole s) (r.map whole) := by
  cases r <;> rfl

theorem Table.enter_eq (check : List Char → Except PatternError Unit) (pattern : String) (rule : ρ)
    (t : Table ρ) : Table.enter check pattern rule t = wholly t (t.add check pattern rule) := by
  rw [Table.add_eq]
  unfold Table.enter
  dsimp only
  cases check (Pattern.dropFinalSlash pattern.toList) <;> rfl

/-- A registration hangs on the reading of its pattern alone. -/
theorem Textual.add_eq (t : Textual ρ) (pattern : String) (rule : ρ) :
    t.add pattern rule = (t.read pattern).map fun c => { t with
      registered := t.registered ++ [(⟨pattern, t.scope, rule, t.registered.length⟩, c)] } := by
  unfold Textual.add Textual.read
  cases pattern.isEmpty with
  | true => rfl
  | false => cases t.dialect.compile? pattern.toList <;> rfl

theorem Textual.enter_eq (pattern : String) (rule : ρ) (t : Textual ρ) :
    Textual.enter pattern rule t = wholly t (t.add pattern rule) := by
  rw [Textual.add_eq]
  change (match t.read pattern with
    | .error cause => throw cause
    | .ok c => modify fun s => { s with
        registered := s.registered ++ [(⟨pattern, t.scope, rule, t.registered.length⟩, c)] } :
      EStateM PatternError (Textual ρ) Unit) t = _
  cases t.read pattern <;> rfl

/-- **A refused rule leaves no trace in any layer.** -/
theorem Matcher.enter_eq (pattern : String) (rule : ρ) (m : Matcher ρ) :
    m.enter pattern rule = wholly m (m.add pattern rule) := by
  induction m with
  | plain t => rw [enter, Table.enter_eq, within_wholly]; rfl
  | extended t => rw [enter, Table.enter_eq, within_wholly]; rfl
  | textual t => rw [enter, Textual.enter_eq, within_wholly]; rfl
  | foreign m history =>
    rw [enter, add]
    cases m.add history pattern rule <;> rfl
  | withDefaults inner defaults all ih =>
    rw [enter, add, ih]
    cases inner.add pattern rule <;> rfl
  | decorated inner place extra ih => rw [enter, ih, within_wholly]; rfl

/-! ### What a matcher gains -/

/-- The entries for rules under one pattern, in their order. -/
def news (pattern : String) (scope : Option String) : Nat → List ρ → List (Entry ρ)
  | _, [] => []
  | order, rule :: rest => ⟨pattern, scope, rule, order⟩ :: news pattern scope (order + 1) rest

theorem map_rule_news (pattern : String) (scope : Option String) (order : Nat) (added : List ρ) :
    (news pattern scope order added).map (·.rule) = added := by
  induction added generalizing order with
  | nil => rfl
  | cons rule rest ih => rw [news, List.map_cons, ih]

/-- A table with rules under one more pattern behind all others. -/
structure Table.Gains (check : List Char → Except PatternError Unit) (pattern : String)
    (added : List ρ) (t t' : Table ρ) : Prop where
  entries : t'.entries = t.entries ++
    news (String.ofList (Pattern.dropFinalSlash pattern.toList)) t.scope t.entries.length added
  scope : t'.scope = t.scope
  registered : t'.Registered check

/-- A list with rules under one more pattern behind all others, the pattern read in the dialect of
the moment. -/
structure Textual.Gains (pattern : String) (added : List ρ) (t t' : Textual ρ) : Prop where
  registered : ∃ new, t'.registered = t.registered ++ new ∧
    new.map (·.1) = news pattern t.scope t.registered.length added ∧
    ∀ p ∈ new, t.dialect.compile? pattern.toList = some p.2
  scope : t'.scope = t.scope
  dialect : t'.dialect = t.dialect

namespace Table.Gains

variable {check : List Char → Except PatternError Unit} {pattern : String} {t t₁ t₂ : Table ρ}

theorem refl (h : t.Registered check) : t.Gains check pattern [] t :=
  ⟨(List.append_nil _).symm, rfl, h⟩

theorem register (h : t.Registered check)
    (hcheck : check (Pattern.dropFinalSlash pattern.toList) = .ok ()) (rule : ρ) :
    t.Gains check pattern [rule] (t.register (Pattern.dropFinalSlash pattern.toList) rule) :=
  ⟨rfl, rfl, h.register hcheck rule⟩

theorem cons {rule : ρ} {rest : List ρ} (h : t.Gains check pattern [rule] t₁)
    (hrest : t₁.Gains check pattern rest t₂) : t.Gains check pattern (rule :: rest) t₂ := by
  refine ⟨?_, hrest.scope.trans h.scope, hrest.registered⟩
  rw [hrest.entries, h.scope, h.entries, List.append_assoc, List.length_append]
  rfl

theorem rules {added : List ρ} (h : t.Gains check pattern added t₁) :
    t₁.rules = t.rules ++ added := by
  unfold Table.rules
  rw [h.entries, List.map_append, map_rule_news]

end Table.Gains

namespace Textual.Gains

variable {pattern : String} {t t₁ t₂ : Textual ρ}

theorem refl (pattern : String) (t : Textual ρ) : t.Gains pattern [] t :=
  ⟨⟨[], (List.append_nil _).symm, rfl, nofun⟩, rfl, rfl⟩

theorem read_eq {added : List ρ} (h : t.Gains pattern added t₁) :
    t₁.read pattern = t.read pattern := by
  unfold read
  rw [h.dialect]

theorem of_read {c : Compiled} (h : t.read pattern = .ok c) (rule : ρ) :
    t.Gains pattern [rule] { t with
      registered := t.registered ++ [(⟨pattern, t.scope, rule, t.registered.length⟩, c)] } := by
  refine ⟨⟨_, rfl, rfl, fun p hp => ?_⟩, rfl, rfl⟩
  obtain rfl := List.mem_singleton.mp hp
  unfold read at h
  split at h
  · cases h
  · split at h
    · next hc => rw [hc, Except.ok.inj h]
    · cases h

theorem cons {rule : ρ} {rest : List ρ} (h : t.Gains pattern [rule] t₁)
    (hrest : t₁.Gains pattern rest t₂) : t.Gains pattern (rule :: rest) t₂ := by
  obtain ⟨first, hfirst, hnews, hread⟩ := h.registered
  obtain ⟨others, hothers, hnews', hread'⟩ := hrest.registered
  refine ⟨⟨first ++ others, ?_, ?_, ?_⟩, hrest.scope.trans h.scope, hrest.dialect.trans h.dialect⟩
  · rw [hothers, hfirst, List.append_assoc]
  · have hlength : first.length = 1 := by
      rw [← List.length_map (·.1), hnews]
      rfl
    rw [List.map_append, hnews, hnews', hfirst, h.scope, List.length_append, hlength]
    rfl
  · intro p hp
    rcases List.mem_append.mp hp with hp | hp
    · exact hread p hp
    · rw [← h.dialect]
      exact hread' p hp

theorem rules {added : List ρ} (h : t.Gains pattern added t₁) :
    t₁.rules = t.rules ++ added := by
  obtain ⟨new, hnew, hnews, -⟩ := h.registered
  have hadded : new.map (·.1.rule) = added := by
    rw [← map_rule_news pattern t.scope t.registered.length added, ← hnews, List.map_map]
    rfl
  unfold Textual.rules
  rw [hnew, List.map_append, hadded]

end Textual.Gains

namespace Matcher

/-- A matcher with rules under one more pattern behind all others, in every layer. -/
inductive Gains (pattern : String) (added : List ρ) : Matcher ρ → Matcher ρ → Prop
  | plain {t t' : Table ρ} (h : t.Gains Pattern.checkPlain pattern added t') :
    Gains pattern added (.plain t) (.plain t')
  | extended {t t' : Table ρ} (h : t.Gains Pattern.checkExtended pattern added t') :
    Gains pattern added (.extended t) (.extended t')
  | textual {t t' : Textual ρ} (h : t.Gains pattern added t') :
    Gains pattern added (.textual t) (.textual t')
  | withDefaults {inner inner' : Matcher ρ} (h : Gains pattern added inner inner')
    (defaults all : List ρ) :
    Gains pattern added (.withDefaults inner defaults all)
      (.withDefaults inner' defaults (all ++ added))
  | decorated {inner inner' : Matcher ρ} (h : Gains pattern added inner inner')
    (place : Option (List Char)) (extra : ρ) :
    Gains pattern added (.decorated inner place extra) (.decorated inner' place extra)

/-- A matcher of the library whose tables list what was registered. -/
def Sound : Matcher ρ → Prop
  | .plain t => t.Registered Pattern.checkPlain
  | .extended t => t.Registered Pattern.checkExtended
  | .textual _ => True
  | .foreign _ _ => False
  | .withDefaults inner _ _ => inner.Sound
  | .decorated inner _ _ => inner.Sound

/-- What the innermost matcher says about a pattern. -/
def verdict (pattern : String) : Matcher ρ → Except PatternError Unit
  | .plain _ => Pattern.checkPlain (Pattern.dropFinalSlash pattern.toList)
  | .extended _ => Pattern.checkExtended (Pattern.dropFinalSlash pattern.toList)
  | .textual t => (t.read pattern).map fun _ => ()
  | .foreign _ _ => .ok ()
  | .withDefaults inner _ _ => inner.verdict pattern
  | .decorated inner _ _ => inner.verdict pattern

namespace Gains

variable {pattern : String} {m m₁ m₂ : Matcher ρ}

theorem refl (pattern : String) (h : m.Sound) : Gains pattern [] m m := by
  induction m with
  | plain t => exact .plain (.refl h)
  | extended t => exact .extended (.refl h)
  | textual t => exact .textual (.refl pattern t)
  | foreign m history => exact h.elim
  | withDefaults inner defaults all ih =>
    have hall := withDefaults (ih h) defaults all
    rwa [List.append_nil] at hall
  | decorated inner place extra ih => exact .decorated (ih h) place extra

theorem sound {added : List ρ} (h : Gains pattern added m m₁) : m₁.Sound := by
  induction h with
  | plain h => exact h.registered
  | extended h => exact h.registered
  | textual h => exact trivial
  | withDefaults h defaults all ih => exact ih
  | decorated h place extra ih => exact ih

/-- What was said about a pattern is said again. -/
theorem verdict_eq {added : List ρ} (h : Gains pattern added m m₁) :
    m₁.verdict pattern = m.verdict pattern := by
  induction h with
  | plain h => rfl
  | extended h => rfl
  | textual h => exact congrArg (·.map fun _ => ()) h.read_eq
  | withDefaults h defaults all ih => exact ih
  | decorated h place extra ih => exact ih

theorem cons {rule : ρ} {rest : List ρ} (h : Gains pattern [rule] m m₁)
    (hrest : Gains pattern rest m₁ m₂) : Gains pattern (rule :: rest) m m₂ := by
  induction h generalizing m₂ with
  | plain h => cases hrest with | plain hrest => exact .plain (h.cons hrest)
  | extended h => cases hrest with | extended hrest => exact .extended (h.cons hrest)
  | textual h => cases hrest with | textual hrest => exact .textual (h.cons hrest)
  | withDefaults h defaults all ih =>
    cases hrest with
    | withDefaults hrest =>
      have hall := withDefaults (ih hrest) defaults all
      rwa [List.append_cons] at hall
  | decorated h place extra ih =>
    cases hrest with | decorated hrest => exact .decorated (ih hrest) place extra

/-- The rules gained stand behind all others. -/
theorem rules {added : List ρ} (h : Gains pattern added m m₁) : m₁.rules = m.rules ++ added := by
  induction h with
  | plain h => exact h.rules
  | extended h => exact h.rules
  | textual h => exact h.rules
  | withDefaults h defaults all ih => rfl
  | decorated h place extra ih => exact ih

end Gains

/-! ### Registering -/

theorem add_table {check : List Char → Except PatternError Unit} {hold : Table ρ → Matcher ρ}
    (hh : Table.Holds check hold) {t : Table ρ} (h : t.Registered check) (pattern : String)
    (rule : ρ) :
    (check (Pattern.dropFinalSlash pattern.toList) = .ok () ∧
        ∃ t', (hold t).add pattern rule = .ok (hold t') ∧ t.Gains check pattern [rule] t') ∨
      ∃ cause, check (Pattern.dropFinalSlash pattern.toList) = .error cause ∧
        (hold t).add pattern rule = .error cause := by
  rw [hh.add, Table.add_eq]
  cases hcheck : check (Pattern.dropFinalSlash pattern.toList) with
  | ok u => exact Or.inl ⟨rfl, _, rfl, .register h hcheck rule⟩
  | error cause => exact Or.inr ⟨cause, rfl, rfl⟩

/-- A matcher takes a rule or refuses it as it says, whatever the rule is. -/
theorem add_cases {m : Matcher ρ} (h : m.Sound) (pattern : String) (rule : ρ) :
    (m.verdict pattern = .ok () ∧ ∃ m', m.add pattern rule = .ok m' ∧ Gains pattern [rule] m m') ∨
      ∃ cause, m.verdict pattern = .error cause ∧ m.add pattern rule = .error cause := by
  induction m with
  | plain t =>
    rcases add_table Plain.holds_plain h pattern rule with ⟨hcheck, t', hadd, hgains⟩ | hrefused
    · exact Or.inl ⟨hcheck, _, hadd, .plain hgains⟩
    · exact Or.inr hrefused
  | extended t =>
    rcases add_table Extended.holds_extended h pattern rule with
      ⟨hcheck, t', hadd, hgains⟩ | hrefused
    · exact Or.inl ⟨hcheck, _, hadd, .extended hgains⟩
    · exact Or.inr hrefused
  | textual t =>
    rw [verdict, add, Textual.add_eq]
    cases hread : t.read pattern with
    | ok c => exact Or.inl ⟨rfl, _, rfl, .textual (.of_read hread rule)⟩
    | error cause => exact Or.inr ⟨cause, rfl, rfl⟩
  | foreign m history => exact h.elim
  | withDefaults inner defaults all ih =>
    rw [verdict, add]
    rcases ih h with ⟨hverdict, inner', hadd, hgains⟩ | ⟨cause, hverdict, hadd⟩
    · exact Or.inl ⟨hverdict, _, by rw [hadd]; rfl, .withDefaults hgains defaults all⟩
    · exact Or.inr ⟨cause, hverdict, by rw [hadd]; rfl⟩
  | decorated inner place extra ih =>
    rw [verdict, add]
    rcases ih h with ⟨hverdict, inner', hadd, hgains⟩ | ⟨cause, hverdict, hadd⟩
    · exact Or.inl ⟨hverdict, _, by rw [hadd]; rfl, .decorated hgains place extra⟩
    · exact Or.inr ⟨cause, hverdict, by rw [hadd]; rfl⟩

/-- Rules under a pattern that the matcher takes are all taken. -/
theorem enterAll_of_ok {m : Matcher ρ} (h : m.Sound) {pattern : String}
    (hok : m.verdict pattern = .ok ()) (added : List ρ) :
    ∃ m', m.enterAll pattern added = .ok () m' ∧ Gains pattern added m m' := by
  induction added generalizing m with
  | nil => exact ⟨m, rfl, .refl pattern h⟩
  | cons rule rest ih =>
    rcases add_cases h pattern rule with ⟨-, m₁, hadd, hgains⟩ | ⟨cause, hrefused, -⟩
    · obtain ⟨m₂, hrest, hgains'⟩ := ih hgains.sound (hgains.verdict_eq.trans hok)
      refine ⟨m₂, ?_, hgains.cons hgains'⟩
      rw [enterAll, enter_eq, hadd]
      exact hrest
    · rw [hok] at hrefused
      cases hrefused

/-- Of rules under a pattern that the matcher refuses the first one is refused. -/
theorem enterAll_of_error {m : Matcher ρ} (h : m.Sound) {pattern : String} {cause : PatternError}
    (herror : m.verdict pattern = .error cause) (rule : ρ) (rest : List ρ) :
    m.enterAll pattern (rule :: rest) = .error cause m := by
  rcases add_cases h pattern rule with ⟨hok, -⟩ | ⟨other, hrefused, hadd⟩
  · rw [hok] at herror
    cases herror
  · obtain rfl : other = cause := Except.error.inj (hrefused.symm.trans herror)
    rw [enterAll, enter_eq, hadd]
    rfl

/-- **A matcher takes all rules under a pattern or none of them.** -/
theorem enterAll_cases {m : Matcher ρ} (h : m.Sound) (pattern : String) (added : List ρ) :
    (∃ m', m.enterAll pattern added = .ok () m' ∧ Gains pattern added m m') ∨
      ∃ cause, m.enterAll pattern added = .error cause m := by
  cases hverdict : m.verdict pattern with
  | ok u => exact Or.inl (enterAll_of_ok h hverdict added)
  | error cause =>
    cases added with
    | nil => exact Or.inl ⟨m, rfl, .refl pattern h⟩
    | cons rule rest => exact Or.inr ⟨cause, enterAll_of_error h hverdict rule rest⟩

/-! ### What can become of a matcher -/

/-- The matchers of the library, in all the states they can come to. -/
inductive Reachable : Matcher ρ → Prop
  | plain : Reachable (.plain {})
  | extended : Reachable (.extended {})
  | textual (dialect : Dialect) : Reachable (.textual { dialect })
  | wrap {inner : Matcher ρ} (h : Reachable inner) : Reachable inner.wrap
  | decorated {inner : Matcher ρ} (h : Reachable inner) (place : Option (List Char)) (extra : ρ) :
    Reachable (.decorated inner place extra)
  | step {m : Matcher ρ} (h : Reachable m) (name : ρ → String) (s : MatcherStep ρ) :
    Reachable (m.step name s).2

theorem Sound.setScope {m : Matcher ρ} (h : m.Sound) (scope : Option String) :
    (m.setScope scope).Sound := by
  induction m with
  | plain t => exact Table.Registered.setScope h scope
  | extended t => exact Table.Registered.setScope h scope
  | textual t => exact trivial
  | foreign m history => exact h.elim
  | withDefaults inner defaults all ih => exact ih h
  | decorated inner place extra ih => exact ih h

theorem Sound.clear {m : Matcher ρ} (h : m.Sound) : m.clear.Sound := by
  induction m with
  | plain t => exact Table.registered_empty t.scope
  | extended t => exact Table.registered_empty t.scope
  | textual t => exact trivial
  | foreign m history => exact h.elim
  | withDefaults inner defaults all ih => exact ih h
  | decorated inner place extra ih => exact ih h

theorem Sound.step {m : Matcher ρ} (h : m.Sound) (name : ρ → String) (s : MatcherStep ρ) :
    (m.step name s).2.Sound := by
  cases s with
  | add pattern rule =>
    rw [Matcher.step]
    rcases add_cases h pattern rule with ⟨-, m', hadd, hgains⟩ | ⟨cause, -, hadd⟩
    · rw [hadd]
      exact hgains.sound
    · rw [hadd]
      exact h
  | addDefault rule => cases m <;> exact h
  | setScope scope => exact h.setScope scope
  | clear => exact h.clear
  | rulesFor uri path =>
    rw [Matcher.step]
    split <;> exact h
  | setDialect dialect => cases m <;> exact h
  | takeDecorated => cases m <;> exact h
  | scope => exact h
  | rules => exact h
  | entries => exact h
  | defaults => exact h
  | inspect => exact h

theorem Reachable.sound {m : Matcher ρ} (h : m.Reachable) : m.Sound := by
  induction h with
  | plain => exact Table.registered_empty none
  | extended => exact Table.registered_empty none
  | textual dialect => exact trivial
  | wrap h ih => exact ih
  | decorated h place extra ih => exact ih
  | step h name s ih => exact ih.step name s

end Matcher

/-! ### Registering with a binder -/

section

variable {κ : Type}

open XmlBinding.Action

theorem addRule_eq (x : Extension κ) (pattern : String) (ref : RuleRef κ) (b : Binder κ) :
    ∃ journal, addRule x pattern ref b = match b.matcher.enter pattern ref with
      | .ok () matcher => .ok () { b with matcher, journal }
      | .error cause matcher => .error (.error (.pattern cause)) { b with matcher, journal } := by
  refine ⟨(b.note .debug .dispatch
    ("add " ++ ref.name x ++ " for '" ++ pattern ++ "'")).journal, ?_⟩
  unfold addRule note
  rw [modify_bind_run, get_bind_run, b.note_eq, Matcher.enter_eq]
  cases b.matcher.add pattern ref <;> rfl

/-- A binder registers several rules as its matcher does. -/
theorem addRules_eq (x : Extension κ) (pattern : String) (refs : List (RuleRef κ))
    (b : Binder κ) :
    ∃ journal, addRules x pattern refs b = match b.matcher.enterAll pattern refs with
      | .ok () matcher => .ok () { b with matcher, journal }
      | .error cause matcher => .error (.error (.pattern cause)) { b with matcher, journal } := by
  induction refs generalizing b with
  | nil => exact ⟨b.journal, rfl⟩
  | cons ref rest ih =>
    obtain ⟨journal, hfirst⟩ := addRule_eq x pattern ref b
    rw [Matcher.enterAll]
    cases henter : b.matcher.enter pattern ref with
    | error cause matcher =>
      rw [henter] at hfirst
      exact ⟨journal, bind_run_of_error hfirst _⟩
    | ok u matcher =>
      rw [henter] at hfirst
      obtain ⟨journal', hrest⟩ := ih { b with matcher, journal }
      exact ⟨journal', (bind_run_of_ok hfirst _).trans hrest⟩

/-- **Several rules under one pattern are all registered, in their order behind all others, or the
matcher is as it was.** -/
theorem wholeness_law (x : Extension κ) (pattern : String) (refs : List (RuleRef κ))
    {b : Binder κ} (h : b.matcher.Reachable) :
    (∃ matcher journal, b.matcher.enterAll pattern refs = .ok () matcher ∧
        addRules x pattern refs b = .ok () { b with matcher, journal } ∧
        Matcher.Gains pattern refs b.matcher matcher ∧
        matcher.rules = b.matcher.rules ++ refs) ∨
      ∃ cause journal, b.matcher.enterAll pattern refs = .error cause b.matcher ∧
        addRules x pattern refs b = .error (.error (.pattern cause)) { b with journal } := by
  obtain ⟨journal, hrun⟩ := addRules_eq x pattern refs b
  rcases Matcher.enterAll_cases h.sound pattern refs with ⟨matcher, hall, hgains⟩ | ⟨cause, hall⟩
  · rw [hall] at hrun
    exact Or.inl ⟨matcher, journal, hall, hrun, hgains, hgains.rules⟩
  · rw [hall] at hrun
    exact Or.inr ⟨cause, journal, hall, hrun⟩

/-- Two rules for a matcher with defaults in a decoration, under a good pattern and under one where
a mark is out of place. -/
theorem wholeness_law_of_decorated :
    let x : Extension Unit := ⟨fun _ => "rule", fun _ _ => pure ()⟩
    let b : Binder Unit :=
      { matcher := .decorated (.wrap (.extended {})) (some "a/".toList) ⟨0, .custom ()⟩ }
    let refs : List (RuleRef Unit) := [⟨1, .custom ()⟩, ⟨2, .custom ()⟩]
    b.matcher.Reachable ∧
      (∃ matcher journal, addRules x "a/?" refs b = .ok () { b with matcher, journal } ∧
        matcher.rules = refs) ∧
      ∃ cause journal,
        addRules x "a/?/b" refs b = .error (.error (.pattern cause)) { b with journal } := by
  intro x b refs
  have hb : b.matcher.Reachable := .decorated (.wrap .extended) _ _
  refine ⟨hb, ?_, ?_⟩
  · rcases wholeness_law x "a/?" refs hb with
      ⟨matcher, journal, -, hrun, -, hrules⟩ | ⟨cause, journal, hall, -⟩
    · exact ⟨matcher, journal, hrun, hrules⟩
    · cases hall
  · rcases wholeness_law x "a/?/b" refs hb with
      ⟨matcher, journal, hall, -⟩ | ⟨cause, journal, -, hrun⟩
    · cases hall
    · exact ⟨cause, journal, hrun⟩

end

end XmlBinding
