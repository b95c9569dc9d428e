import XmlBinding.Proofs.AllOrNothing
import XmlBinding.Proofs.Finish

/-!
# Rules of two kinds in one list

A matcher with defaults cannot see the matcher inside change, so it keeps a list of its own of the
rules of both kinds. Everything that is done to it must be done to that list as well: a rule joins
it when the matcher inside has taken the rule and not before, and clearing empties both. What the
list should be is said below without it, by the members in the order in which they came in.
-/
namespace XmlBinding

variable {ρ : Type}

/-! ### The rules of a matcher -/

theorem Table.rules_add {check : List Char → Except PatternError Unit} {t t' : Table ρ}
    {pattern : String} {rule : ρ} (h : t.add check pattern rule = .ok t') :
    t'.rules = t.rules ++ [rule] := by
  rw [Table.add_eq] at h
  obtain ⟨-, -, rfl⟩ := exists_of_map_eq_ok h
  exact List.map_append

/-- A matcher of the user's own kind that lists its rules as it should: a rule that is taken stands
behind all others, a namespace that is chosen adds none, and clearing forgets them all. -/
structure Foreign.Lists (m : Foreign ρ) : Prop where
  add : ∀ history pattern rule, m.refuses history pattern rule = none →
    m.rules (.add pattern rule :: history) = m.rules history ++ [rule]
  setScope : ∀ history scope, m.rules (.setScope scope :: history) = m.rules history
  clear : ∀ history, m.rules (.clear :: history) = []

namespace Matcher

/-- A matcher of the user's own kind, if there is one below the decorations, lists its rules as it
should. All other kinds do. -/
def Lists : Matcher ρ → Prop
  | .foreign m _ => m.Lists
  | .decorated inner _ _ => inner.Lists
  | _ => True

variable {m m' : Matcher ρ} {pattern : String} {rule : ρ}

/-- A rule that is taken stands behind all others. -/
theorem rules_add (h : m.Lists) (hadd : m.add pattern rule = .ok m') :
    m'.rules = m.rules ++ [rule] ∧ m'.Lists := by
  induction m generalizing m' with
  | plain t =>
    obtain ⟨t', ht, rfl⟩ := exists_of_map_eq_ok hadd
    exact ⟨Table.rules_add ht, trivial⟩
  | extended t =>
    obtain ⟨t', ht, rfl⟩ := exists_of_map_eq_ok hadd
    exact ⟨Table.rules_add ht, trivial⟩
  | textual t =>
    obtain ⟨t', ht, rfl⟩ := exists_of_map_eq_ok hadd
    rw [Textual.add_eq] at ht
    obtain ⟨c, -, rfl⟩ := exists_of_map_eq_ok ht
    exact ⟨List.map_append, trivial⟩
  | foreign m history =>
    obtain ⟨history', hhistory, rfl⟩ := exists_of_map_eq_ok hadd
    unfold Foreign.add at hhistory
    cases hrefuses : m.refuses history pattern rule with
    | some cause =>
      rw [hrefuses] at hhistory
      cases hhistory
    | none =>
      rw [hrefuses] at hhistory
      cases hhistory
      exact ⟨Foreign.Lists.add h history pattern rule hrefuses, h⟩
  | withDefaults inner defaults all ih =>
    obtain ⟨inner', -, rfl⟩ := exists_of_map_eq_ok hadd
    exact ⟨rfl, trivial⟩
  | decorated inner place extra ih =>
    obtain ⟨inner', hinner, rfl⟩ := exists_of_map_eq_ok hadd
    have hgrown := ih h hinner
    exact hgrown

/-- The choice of a namespace is none of a rule. -/
theorem rules_setScope (h : m.Lists) (scope : Option String) :
    (m.setScope scope).rules = m.rules ∧ (m.setScope scope).Lists := by
  induction m with
  | foreign m history => exact ⟨Foreign.Lists.setScope h history scope, h⟩
  | decorated inner place extra ih => exact ih h
  | _ => exact ⟨rfl, trivial⟩

/-- A matcher that is cleared has no rules. -/
theorem rules_clear (h : m.Lists) : m.clear.rules = [] ∧ m.clear.Lists := by
  induction m with
  | foreign m history => exact ⟨Foreign.Lists.clear h history, h⟩
  | decorated inner place extra ih => exact ih h
  | _ => exact ⟨rfl, trivial⟩

end Matcher

/-! ### The members -/

/-- What is done to a matcher with defaults. -/
inductive Provision (ρ : Type)
  | registration (r : Registration ρ)
  | fallback (rule : ρ)

def Provision.registration? : Provision ρ → Option (Registration ρ)
  | .registration r => some r
  | .fallback _ => none

def Matcher.provide (m : Matcher ρ) : Provision ρ → Matcher ρ
  | .registration r => m.apply r
  | .fallback rule => m.addDefault rule

/-- A rule of a matcher with defaults, of one kind or the other. -/
inductive Member (ρ : Type)
  | registered (rule : ρ)
  | fallback (rule : ρ)

namespace Member

def rule : Member ρ → ρ
  | .registered rule | .fallback rule => rule

def registered? : Member ρ → Option ρ
  | .registered rule => some rule
  | .fallback _ => none

def fallback? : Member ρ → Option ρ
  | .registered _ => none
  | .fallback rule => some rule

/-- The members behind a registration, which a matcher may refuse. -/
def behind (inner : Matcher ρ) (members : List (Member ρ)) : Registration ρ → List (Member ρ)
  | .add pattern rule => match inner.add pattern rule with
    | .ok _ => members ++ [.registered rule]
    | .error _ => members
  | .setScope _ => members
  | .clear => []

theorem behind_of_taken {inner inner' : Matcher ρ} {pattern : String} {rule : ρ}
    (h : inner.add pattern rule = .ok inner') (members : List (Member ρ)) :
    behind inner members (.add pattern rule) = members ++ [.registered rule] := by
  simp only [behind, h]

theorem behind_of_refused {inner : Matcher ρ} {pattern : String} {rule : ρ} {cause : PatternError}
    (h : inner.add pattern rule = .error cause) (members : List (Member ρ)) :
    behind inner members (.add pattern rule) = members := by
  simp only [behind, h]

/-- The members of a matcher with defaults, each of them where it came in. Only the matcher inside
has a say in it. -/
def arrive (inner : Matcher ρ) (members : List (Member ρ)) :
    List (Provision ρ) → List (Member ρ)
  | [] => members
  | .registration r :: rest => arrive (inner.apply r) (behind inner members r) rest
  | .fallback rule :: rest => arrive inner (members ++ [.fallback rule]) rest

end Member

/-- A matcher with defaults whose lists tell its members, as does the matcher inside. -/
structure Matcher.Joins (m inner : Matcher ρ) (members : List (Member ρ)) : Prop where
  eq : m = .withDefaults inner (members.filterMap Member.fallback?) (members.map Member.rule)
  rules : inner.rules = members.filterMap Member.registered?
  lists : inner.Lists

namespace Matcher.Joins

variable {m inner : Matcher ρ} {members : List (Member ρ)}

/-- The rules that a matcher brings along are its first members. -/
theorem wrap (h : inner.Lists) : (inner.wrap).Joins inner (inner.rules.map Member.registered) := by
  refine ⟨?_, ?_, h⟩
  · unfold Matcher.wrap
    rw [List.filterMap_map, List.map_map]
    have hnone : inner.rules.filterMap (Member.fallback? ∘ Member.registered) = [] := by
      rw [List.filterMap_eq_nil_iff]
      exact fun rule _ => rfl
    have hrules : inner.rules.map (Member.rule ∘ Member.registered) = inner.rules := List.map_id _
    rw [hnone, hrules]
  · rw [List.filterMap_map]
    exact (List.filterMap_some).symm

theorem registration (h : m.Joins inner members) (r : Registration ρ) :
    (m.apply r).Joins (inner.apply r) (Member.behind inner members r) := by
  obtain ⟨rfl, hrules, hlists⟩ := h
  cases r with
  | add pattern rule =>
    cases hadd : inner.add pattern rule with
    | error cause =>
      have hrefused : (Matcher.withDefaults inner (members.filterMap Member.fallback?)
          (members.map Member.rule)).add pattern rule = .error cause := by
        unfold Matcher.add
        rw [hadd]
        rfl
      rw [apply_of_refused hadd, apply_of_refused hrefused, Member.behind_of_refused hadd]
      exact ⟨rfl, hrules, hlists⟩
    | ok inner' =>
      have htaken : (Matcher.withDefaults inner (members.filterMap Member.fallback?)
          (members.map Member.rule)).add pattern rule = .ok (.withDefaults inner'
            (members.filterMap Member.fallback?) (members.map Member.rule ++ [rule])) := by
        unfold Matcher.add
        rw [hadd]
        rfl
      obtain ⟨hgrown, hlists'⟩ := rules_add hlists hadd
      rw [apply_of_taken hadd, apply_of_taken htaken, Member.behind_of_taken hadd]
      refine ⟨?_, ?_, hlists'⟩
      · simp [Member.fallback?, Member.rule]
      · rw [hgrown, hrules]
        simp [Member.registered?]
  | setScope scope =>
    obtain ⟨hsame, hlists'⟩ := rules_setScope hlists scope
    exact ⟨rfl, hsame.trans hrules, hlists'⟩
  | clear =>
    obtain ⟨hnone, hlists'⟩ := rules_clear hlists
    exact ⟨rfl, hnone, hlists'⟩

theorem fallback (h : m.Joins inner members) (rule : ρ) :
    (m.addDefault rule).Joins inner (members ++ [.fallback rule]) := by
  obtain ⟨rfl, hrules, hlists⟩ := h
  refine ⟨?_, ?_, hlists⟩
  · simp [addDefault, Member.fallback?, Member.rule]
  · rw [hrules]
    simp [Member.registered?]

/-- Whatever is done, the lists tell the members, and the matcher inside is the one that had the
registrations alone. -/
theorem run (h : m.Joins inner members) (steps : List (Provision ρ)) :
    (steps.foldl provide m).Joins (inner.replay (steps.filterMap Provision.registration?))
      (Member.arrive inner members steps) := by
  induction steps generalizing m inner members with
  | nil => exact h
  | cons step rest ih =>
    cases step with
    | registration r => exact ih (h.registration r)
    | fallback rule => exact ih (h.fallback rule)

end Matcher.Joins

/-! ### The end of a document -/

/-- Each instance is among the rules without repetition once. -/
theorem mem_ids_distinctRules {κ : Type} {refs : List (RuleRef κ)} {id : Nat} :
    id ∈ (distinctRules refs).map (·.id) ↔ id ∈ refs.map (·.id) := by
  constructor
  · intro h
    obtain ⟨ref, hmem, hid⟩ := List.mem_map.mp h
    exact List.mem_map.mpr ⟨ref, (unseenRules_sublist [] refs).subset hmem, hid⟩
  · intro h
    obtain ⟨ref, hmem, rfl⟩ := List.mem_map.mp h
    exact mem_ids_unseenRules hmem List.not_mem_nil

/-- At the end of a document every instance among the rules finishes once, unless one of them
fails. -/
theorem exists_finishing {κ : Type} (x : Extension κ) (b : Binder κ) :
    ∃ refs, refs.Sublist b.matcher.rules ∧ (refs.map (·.id)).Nodup ∧
      (∀ id, id ∈ refs.map (·.id) ↔ id ∈ b.matcher.rules.map (·.id)) ∧
      ((∃ fs s, Called x .finish refs b.noteLeftover fs s ∧
          endDocument x b = .ok () s.closeDocument) ∨
        ∃ ref ∈ refs, ∃ s halt s' b', Fails x .finish ref s halt s' ∧
          endDocument x b = .error halt b') := by
  refine ⟨distinctRules b.matcher.rules, unseenRules_sublist [] _, (nodup_unseenRules _ []).1,
    fun _ => mem_ids_distinctRules, ?_⟩
  obtain ⟨fs, s, hcalled, hend⟩ | ⟨front, ref, back, fs, s, halt, s', hrefs, -, hfails, hend⟩ :=
    finishes_endDocument (x := x) b
  · exact .inl ⟨fs, s, hcalled, hend⟩
  · have hmem : ref ∈ distinctRules b.matcher.rules := by
      rw [hrefs]
      exact List.mem_append_right _ List.mem_cons_self
    exact .inr ⟨ref, hmem, s, halt, s', _, hfails, hend⟩

/-- A member is of one kind or of the other. -/
theorem Member.mem_map_rule {members : List (Member ρ)} {rule : ρ} :
    rule ∈ members.map Member.rule ↔
      rule ∈ members.filterMap registered? ++ members.filterMap fallback? := by
  rw [List.mem_append, List.mem_map, List.mem_filterMap, List.mem_filterMap]
  constructor
  · rintro ⟨member, hmem, rfl⟩
    cases member with
    | registered rule => exact .inl ⟨_, hmem, rfl⟩
    | fallback rule => exact .inr ⟨_, hmem, rfl⟩
  · rintro (⟨member, hmem, hrule⟩ | ⟨member, hmem, hrule⟩) <;> cases member <;> cases hrule
    · exact ⟨_, hmem, rfl⟩
    · exact ⟨_, hmem, rfl⟩

/-- **Rules of both kinds.** Whatever is done to a matcher with defaults, and whatever the matcher
inside brought along, the list of its rules holds those of the matcher inside and the defaults, each
where it came in. Elements for which the matcher inside has no rules have the defaults. At the end of
a document every instance of either kind finishes once, unless one of them fails. -/
theorem merged_law {κ : Type} {inner : Matcher (RuleRef κ)} (h : inner.Lists)
    (steps : List (Provision (RuleRef κ))) :
    let registered := inner.replay (steps.filterMap Provision.registration?)
    let members := Member.arrive inner (inner.rules.map Member.registered) steps
    let defaults := members.filterMap Member.fallback?
    let m := steps.foldl Matcher.provide inner.wrap
    m.rules = members.map Member.rule ∧
      registered.rules = members.filterMap Member.registered? ∧
      m.defaultsAndInner = (defaults, registered.rules) ∧
      (∀ uri path name attrs, m.rulesFor? uri path name attrs =
        (registered.rulesFor? uri path name attrs).map fun found =>
          if found.isEmpty then defaults else found) ∧
      ∀ (x : Extension κ) (b : Binder κ), b.matcher.core = m →
        ∃ refs, refs.Sublist m.rules ∧ (refs.map (·.id)).Nodup ∧
          (∀ id, id ∈ refs.map (·.id) ↔ id ∈ (registered.rules ++ defaults).map (·.id)) ∧
          ((∃ fs s, Called x .finish refs b.noteLeftover fs s ∧
              endDocument x b = .ok () s.closeDocument) ∨
            ∃ ref ∈ refs, ∃ s halt s' b', Fails x .finish ref s halt s' ∧
              endDocument x b = .error halt b') := by
  intro registered members defaults m
  have hjoins : m.Joins registered members := (Matcher.Joins.wrap h).run steps
  have hm : m = .withDefaults registered defaults (members.map Member.rule) := hjoins.eq
  have hrules : m.rules = members.map Member.rule := congrArg Matcher.rules hm
  refine ⟨hrules, hjoins.rules, congrArg Matcher.defaultsAndInner hm, ?_, ?_⟩
  · intro uri path name attrs
    rw [hm, Matcher.rulesFor?]
    rcases registered.rulesFor? uri path name attrs with _ | _ | _ <;> rfl
  · intro x b hb
    have hlisted : b.matcher.rules = m.rules := by rw [← hb, Matcher.rules_core]
    have hkinds (ref : RuleRef κ) : ref ∈ m.rules ↔ ref ∈ registered.rules ++ defaults := by
      rw [hrules, hjoins.rules]
      exact Member.mem_map_rule
    obtain ⟨refs, hsublist, hnodup, hmem, hend⟩ := exists_finishing x b
    rw [hlisted] at hsublist
    refine ⟨refs, hsublist, hnodup, fun id => ?_, hend⟩
    rw [hmem, hlisted, List.mem_map, List.mem_map]
    simp only [hkinds]

/-- One matcher with defaults in another. A rule is refused, another is registered twice. -/
theorem merged_law_of_two_wrappers :
    let rule (id : Nat) : RuleRef Empty := ⟨id, .standard (.setProperty "name" "value")⟩
    let first : Matcher (RuleRef Empty) := .plain (({} : Table _).register ['a'] (rule 0))
    let inner := first.wrap.addDefault (rule 1)
    let steps : List (Provision (RuleRef Empty)) :=
      [.registration (.add "b" (rule 2)), .registration (.add "" (rule 3)), .fallback (rule 4),
        .registration (.setScope (some "u")), .registration (.add "c" (rule 0))]
    let m := steps.foldl Matcher.provide inner.wrap
    inner.Lists ∧ m.rules.map (·.id) = [0, 1, 2, 4, 0] ∧
      ∀ (x : Extension Empty) (b : Binder Empty), b.matcher.core = m →
        ∃ refs, (∀ id, id ∈ refs.map (·.id) ↔ id ∈ [0, 1, 2, 0, 4]) ∧
          ((∃ fs s, Called x .finish refs b.noteLeftover fs s ∧
              endDocument x b = .ok () s.closeDocument) ∨
            ∃ ref ∈ refs, ∃ s halt s' b', Fails x .finish ref s halt s' ∧
              endDocument x b = .error halt b') := by
  intro rule first inner steps m
  have hlists : inner.Lists := trivial
  obtain ⟨hrules, -, -, -, hends⟩ := merged_law hlists steps
  refine ⟨hlists, ?_, fun x b hb => ?_⟩
  · rw [hrules]
    decide
  · obtain ⟨refs, -, -, hmem, hend⟩ := hends x b hb
    exact ⟨refs, fun id => (hmem id).trans (iff_of_eq (congrArg (id ∈ ·) (by decide))), hend⟩

end XmlBinding
