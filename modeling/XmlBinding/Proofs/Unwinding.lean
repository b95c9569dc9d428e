import XmlBinding.Proofs.AllOrNothing
import XmlBinding.Proofs.Finish

/-!
# Decorations that come off

While elements with nested properties are open, the matcher of a binder is decorated, and rules may
be registered all the same. A registration goes through every decoration to the matcher inside. So
the matcher inside all decorations is at any time the one that had the registrations alone, and it
comes out again when the decorations are removed, by whatever means.
-/
namespace XmlBinding

/-! ### Registration below decorations -/

namespace Matcher

variable {ρ : Type}

/-- The number of decorations around a matcher. -/
def decorations : Matcher ρ → Nat
  | .decorated inner _ _ => inner.decorations + 1
  | _ => 0

theorem map_core_map {α : Type} {whole : α → Matcher ρ} (h : ∀ part, (whole part).core = whole part)
    (r : Except PatternError α) : (r.map whole).map core = r.map whole := by
  cases r with
  | error cause => rfl
  | ok part => exact congrArg Except.ok (h part)

/-- The matcher inside takes a rule if and only if the decorated one does. -/
theorem map_core_add (m : Matcher ρ) (pattern : String) (rule : ρ) :
    (m.add pattern rule).map core = m.core.add pattern rule := by
  induction m with
  | decorated inner place extra ih =>
    change ((inner.add pattern rule).map (.decorated · place extra)).map core =
      inner.core.add pattern rule
    rw [← ih]
    cases inner.add pattern rule <;> rfl
  | _ => exact map_core_map (fun _ => rfl) _

theorem decorations_add {m m' : Matcher ρ} {pattern : String} {rule : ρ}
    (h : m.add pattern rule = .ok m') : m'.decorations = m.decorations := by
  induction m generalizing m' with
  | decorated inner place extra ih =>
    obtain ⟨inner', hinner, rfl⟩ := exists_of_map_eq_ok h
    exact congrArg (· + 1) (ih hinner)
  | _ =>
    obtain ⟨_, -, rfl⟩ := exists_of_map_eq_ok h
    rfl

/-- A registration reaches the matcher inside all decorations. -/
theorem core_apply (m : Matcher ρ) (r : Registration ρ) : (m.apply r).core = m.core.apply r := by
  cases r with
  | add pattern rule =>
    have hcore := m.map_core_add pattern rule
    cases hadd : m.add pattern rule with
    | error cause =>
      rw [hadd] at hcore
      rw [apply_of_refused hadd, apply_of_refused hcore.symm]
    | ok m' =>
      rw [hadd] at hcore
      rw [apply_of_taken hadd, apply_of_taken hcore.symm]
  | setScope scope =>
    induction m with
    | decorated inner place extra ih => exact ih
    | _ => rfl
  | clear =>
    induction m with
    | decorated inner place extra ih => exact ih
    | _ => rfl

/-- A registration leaves the decorations where they are. -/
theorem decorations_apply (m : Matcher ρ) (r : Registration ρ) :
    (m.apply r).decorations = m.decorations := by
  cases r with
  | add pattern rule =>
    cases hadd : m.add pattern rule with
    | error cause => rw [apply_of_refused hadd]
    | ok m' =>
      rw [apply_of_taken hadd]
      exact decorations_add hadd
  | setScope scope =>
    induction m with
    | decorated inner place extra ih => exact congrArg (· + 1) ih
    | _ => rfl
  | clear =>
    induction m with
    | decorated inner place extra ih => exact congrArg (· + 1) ih
    | _ => rfl

/-- A decoration has no namespace of its own. -/
theorem scope_core (m : Matcher ρ) : m.core.scope = m.scope := by
  induction m with
  | decorated inner place extra ih => exact ih
  | _ => rfl

theorem replay_append_singleton (m : Matcher ρ) (history : List (Registration ρ))
    (r : Registration ρ) : m.replay (history ++ [r]) = (m.replay history).apply r :=
  List.foldl_concat apply m r history

end Matcher

/-! ### What is done while decorations come and go -/

variable {κ : Type} {x : Extension κ} {b s s' : Binder κ}

/-- A rule for nested properties decorates the matcher, the outermost decoration is removed, or
something is registered. -/
inductive Handling (κ : Type)
  | install (config : NestedConfig)
  | remove
  | registration (r : Registration (RuleRef κ))

namespace Handling

def registration? : Handling κ → Option (Registration (RuleRef κ))
  | .registration r => some r
  | _ => none

/-- The decorations that are installed behind some handlings, the last of them first. Where there is
none, none is removed. -/
def installed : List (Handling κ) → Nat
  | [] => 0
  | .install _ :: past => installed past + 1
  | .remove :: past => installed past - 1
  | .registration _ :: past => installed past

/-- The registrations among some handlings, the last of which comes first, in their order. -/
def registrations (past : List (Handling κ)) : List (Registration (RuleRef κ)) :=
  past.reverse.filterMap registration?

theorem registrations_cons (step : Handling κ) (past : List (Handling κ)) :
    registrations (step :: past) = registrations past ++ step.registration?.toList := by
  unfold registrations
  rw [List.reverse_cons, List.filterMap_append]
  cases step <;> rfl

theorem registrations_of_none {step : Handling κ} (h : step.registration? = none)
    (past : List (Handling κ)) : registrations (step :: past) = registrations past := by
  rw [registrations_cons, h]
  exact List.append_nil _

end Handling

/-- A binder behind some handlings of the matcher of `b`, the last of them first. Between two of them
anything may happen that leaves the matcher alone. -/
inductive Maintained (x : Extension κ) (b : Binder κ) : List (Handling κ) → Binder κ → Prop
  | start : Maintained x b [] b
  | other {past : List (Handling κ)} {s s' : Binder κ} (h : Maintained x b past s)
      (hmatcher : s'.matcher = s.matcher) : Maintained x b past s'
  | install {past : List (Handling κ)} {s : Binder κ} (h : Maintained x b past s)
      (config : NestedConfig) (uri name : String) (attrs : Attributes) :
      Maintained x b (.install config :: past)
        (((StandardRule.setNested config).fire (.start uri name attrs) :
          Action κ RuleError Unit).after s)
  | remove {past : List (Handling κ)} {s : Binder κ} (h : Maintained x b past s) :
      Maintained x b (.remove :: past) s.undecorate.2
  | add {past : List (Handling κ)} {s : Binder κ} (h : Maintained x b past s) (pattern : String)
      (ref : RuleRef κ) :
      Maintained x b (.registration (.add pattern ref) :: past) ((addRule x pattern ref).after s)
  | setScope {past : List (Handling κ)} {s : Binder κ} (h : Maintained x b past s)
      (scope : Option String) :
      Maintained x b (.registration (.setScope scope) :: past)
        { s with matcher := s.matcher.setScope scope }
  | clear {past : List (Handling κ)} {s : Binder κ} (h : Maintained x b past s) :
      Maintained x b (.registration .clear :: past) { s with matcher := s.matcher.clear }

/-- Decorations are removed until there is none: as often as this, from one binder to the other. -/
inductive Unwinds : Nat → Binder κ → Binder κ → Prop
  | done {b : Binder κ} (h : b.undecorate = (false, b)) : Unwinds 0 b b
  | again {n : Nat} {b m b' : Binder κ} (h : b.undecorate = (true, m)) (hrest : Unwinds n m b') :
      Unwinds (n + 1) b b'

/-- Removing goes on as long as there are decorations, and leaves the matcher inside. -/
theorem exists_unwinds (b : Binder κ) :
    ∃ s, Unwinds b.matcher.decorations b s ∧ s.matcher = b.matcher.core := by
  generalize hm : b.matcher = m
  induction m generalizing b with
  | decorated inner place extra ih =>
    have hremoved : b.undecorate = (true, { b with matcher := inner }) := by
      unfold Binder.undecorate
      rw [hm]
      rfl
    obtain ⟨s, hrest, hs⟩ := ih { b with matcher := inner } rfl
    exact ⟨s, .again hremoved hrest, hs⟩
  | _ =>
    refine ⟨b, .done ?_, hm⟩
    unfold Binder.undecorate
    rw [hm]
    rfl

/-- Removing a decoration leaves the matcher inside all of them. -/
theorem shell_undecorate (b : Binder κ) :
    b.undecorate.2.matcher.core = b.matcher.core ∧
      b.undecorate.2.matcher.decorations = b.matcher.decorations - 1 := by
  unfold Binder.undecorate
  cases hm : b.matcher with
  | decorated inner place extra => exact ⟨rfl, rfl⟩
  | _ =>
    dsimp only [Matcher.undecorated?]
    rw [hm]
    exact ⟨rfl, rfl⟩

theorem matcher_addRule (x : Extension κ) (pattern : String) (ref : RuleRef κ) (s : Binder κ) :
    ((addRule x pattern ref).after s).matcher = s.matcher.apply (.add pattern ref) := by
  obtain ⟨journal, hrun⟩ := addRule_eq x pattern ref s
  unfold Action.after
  rw [hrun, Matcher.enter_eq]
  cases hadd : s.matcher.add pattern ref with
  | error cause => exact (Matcher.apply_of_refused hadd).symm
  | ok m => exact (Matcher.apply_of_taken hadd).symm

/-- Around the matcher that had the registrations alone are the decorations that are installed. -/
structure Handling.Shells (past : List (Handling κ)) (base m : Matcher (RuleRef κ)) : Prop where
  core : m.core = base.replay (registrations past)
  decorations : m.decorations = installed past

namespace Handling.Shells

variable {past : List (Handling κ)} {base m : Matcher (RuleRef κ)}

theorem start (h : base.undecorated? = none) : Shells [] base base := by
  refine ⟨Matcher.core_eq_self h, ?_⟩
  cases base with
  | decorated inner place extra => cases h
  | _ => rfl

theorem registration (h : Shells past base m) (r : Registration (RuleRef κ)) :
    Shells (.registration r :: past) base (m.apply r) := by
  refine ⟨?_, ?_⟩
  · rw [m.core_apply, h.core, registrations_cons]
    exact (base.replay_append_singleton _ r).symm
  · rw [m.decorations_apply]
    exact h.decorations

theorem install (h : Shells past base m) (config : NestedConfig) (place : Option (List Char))
    (extra : RuleRef κ) : Shells (.install config :: past) base (.decorated m place extra) := by
  refine ⟨?_, congrArg (· + 1) h.decorations⟩
  rw [registrations_of_none rfl]
  exact h.core

theorem remove (h : Shells past base s.matcher) :
    Shells (.remove :: past) base s.undecorate.2.matcher := by
  obtain ⟨hcore, hdecorations⟩ := shell_undecorate s
  refine ⟨?_, ?_⟩
  · rw [hcore, registrations_of_none rfl]
    exact h.core
  · rw [hdecorations, h.decorations]
    rfl

end Handling.Shells

open Handling

theorem Maintained.shells {past : List (Handling κ)} (h : Maintained x b past s)
    (hbase : b.matcher.undecorated? = none) : Shells past b.matcher s.matcher := by
  induction h with
  | start => exact .start hbase
  | other _ hmatcher ih => exact hmatcher ▸ ih
  | install _ config uri name attrs ih => exact ih.install config _ _
  | remove _ ih => exact ih.remove
  | @add past s _ pattern ref ih =>
    rw [matcher_addRule]
    exact ih.registration _
  | setScope _ scope ih => exact ih.registration (.setScope scope)
  | clear _ ih => exact ih.registration .clear

/-- **Decorations come off completely.** Whatever was registered while decorations were there, all of
them are removed in as many steps as there are, and the matcher that is left is the one without
decorations that had the registrations alone. Until then its rules are listed already. -/
theorem unwinding_law {past : List (Handling κ)} (hbase : b.matcher.undecorated? = none)
    (h : Maintained x b past s) :
    let base := b.matcher.replay (registrations past)
    s.matcher.rules = base.rules ∧ s.matcher.scope = base.scope ∧ s.reset.matcher = base ∧
      ∃ s', Unwinds (installed past) s s' ∧ s'.matcher = base := by
  intro base
  have hshells := h.shells hbase
  refine ⟨?_, ?_, ?_, ?_⟩
  · rw [← Matcher.rules_core, hshells.core]
  · rw [← Matcher.scope_core, hshells.core]
  · unfold Binder.reset
    rw [Binder.undecorateAll_eq]
    exact hshells.core
  · obtain ⟨s', hunwinds, hs'⟩ := exists_unwinds s
    exact ⟨s', hshells.decorations ▸ hunwinds, hs'.trans hshells.core⟩

/-- Of two decorations one is removed, and rules are registered before, between and behind them. -/
theorem unwinding_law_of_two_decorations :
    let rule (id : Nat) : RuleRef Empty := ⟨id, .standard (.setProperty "name" "value")⟩
    let decorated (s : Binder Empty) : Binder Empty :=
      ((StandardRule.setNested {}).fire (.start "" "a" []) : Action Empty RuleError Unit).after s
    let b : Binder Empty := {}
    let once := decorated ((addRule .none "a" (rule 0)).after b)
    let twice := decorated ((addRule .none "a/b" (rule 1)).after once)
    let s := (addRule .none "" (rule 3)).after ((addRule .none "c" (rule 2)).after twice.undecorate.2)
    b.matcher.undecorated? = none ∧ s.matcher.rules.map (·.id) = [0, 1, 2] ∧
      s.reset.matcher.rules.map (·.id) = [0, 1, 2] ∧
      ∃ s', Unwinds 1 s s' ∧ s'.matcher.rules.map (·.id) = [0, 1, 2] := by
  intro rule decorated b once twice s
  have hstart : Maintained .none b _ b := .start
  have honce : Maintained .none b _ once := (hstart.add "a" (rule 0)).install {} "" "a" []
  have htwice : Maintained .none b _ twice := (honce.add "a/b" (rule 1)).install {} "" "a" []
  have hs : Maintained .none b _ s := (htwice.remove.add "c" (rule 2)).add "" (rule 3)
  obtain ⟨hrules, -, hreset, s', hunwinds, hs'⟩ := unwinding_law rfl hs
  refine ⟨rfl, ?_, ?_, s', hunwinds, ?_⟩
  · rw [hrules]
    decide
  · rw [hreset]
    decide
  · rw [hs']
    decide

end XmlBinding
