import XmlBinding.Matcher

/-!
# The reference of competing patterns

What a list of registrations means for a path, said of segments and without any search. Among the
patterns without `!` there is at most one winner. A pattern with `!` stands outside the competition
and is taken whenever it covers the path. A universal pattern without any mark covers nothing.
-/
namespace XmlBinding

variable {ρ : Type}

/-- Whether the pattern of an entry begins with `!`. -/
def Entry.universal (e : Entry ρ) : Bool := e.pattern.toList.head? == some '!'

/-- The segments of the pattern of an entry, without a leading `!`. -/
def Entry.segments (e : Entry ρ) : List (List Char) :=
  Pattern.segments (Pattern.withoutBang e.pattern.toList)

/-- The length by which the pattern of an entry competes: the marks in it do not count. -/
def Entry.weight (e : Entry ρ) : Nat :=
  Text.byteLength (e.pattern.toList.filter fun c => c ≠ '*' ∧ c ≠ '?')

namespace Extended

/-- The namespace of the registrations to come and the registrations so far, after one more thing
was done. A pattern that is refused leaves no trace, and the order of an entry is its place. -/
def record : Option String × List (Entry ρ) → Registration ρ → Option String × List (Entry ρ)
  | (scope, es), .add pattern rule =>
    let key := Pattern.dropFinalSlash pattern.toList
    match Pattern.checkExtended key with
    | .ok () => (scope, es ++ [⟨String.ofList key, scope, rule, es.length⟩])
    | .error _ => (scope, es)
  | (_, es), .setScope scope => (scope, es)
  | (scope, _), .clear => (scope, [])

/-- The registrations that a history leaves in an empty matcher. -/
def registrations (history : List (Registration ρ)) : List (Entry ρ) :=
  (history.foldl record (none, [])).2

/-- The segment that stands for any ancestors or for any descendants. -/
def star : List Char := ['*']

/-- The segment that stands for one child. -/
def question : List Char := ['?']

/-- A pattern that begins with a star covers a path at any depth. -/
inductive CoversAnywhere (path : List (List Char)) : List (List Char) → Prop
  | ending {s : List (List Char)} (hs : s ≠ []) (h : s <:+ path) : CoversAnywhere path (star :: s)
  | child {s : List (List Char)} (hs : s ≠ []) (h : s <:+ path.dropLast) :
      CoversAnywhere path (star :: (s ++ [question]))
  | through {s : List (List Char)} (hs : s ≠ []) (h : s <:+: path) :
      CoversAnywhere path (star :: (s ++ [star]))

/-- A pattern outside the competition covers a path. -/
inductive CoversAlways (path : List (List Char)) : List (List Char) → Prop
  | all : CoversAlways path [star]
  | child (h : path.dropLast ≠ []) : CoversAlways path (path.dropLast ++ [question])
  | anywhere {key : List (List Char)} (h : CoversAnywhere path key) : CoversAlways path key
  | within {s : List (List Char)} (hs : s ≠ []) (h : s <+: path) : CoversAlways path (s ++ [star])

/-- No pattern consists of two marks. -/
def NoBareMarks (es : List (Entry ρ)) : Prop :=
  ∀ e ∈ es, e.segments ≠ [star, star] ∧ e.segments ≠ [star, question]

instance (es : List (Entry ρ)) : Decidable (NoBareMarks es) :=
  List.decidableBAll _ es

variable (es : List (Entry ρ)) (path : List (List Char))

/-- A pattern takes part in the competition. -/
def Competes (key : List (List Char)) : Prop :=
  ∃ e ∈ es, e.universal = false ∧ e.segments = key

/-- A pattern for exactly the children of the enclosing element takes part. -/
def ChildCompetes : Prop := path.dropLast ≠ [] ∧ Competes es (path.dropLast ++ [question])

/-- A pattern for the path, for the children of its parent or for the descendants of one of its
ancestors takes part. -/
def Settled : Prop :=
  Competes es path ∨ ChildCompetes es path ∨
    ∃ s, s ≠ [] ∧ s <+: path.dropLast ∧ Competes es (s ++ [star])

/-- The pattern that wins the competition. The path itself comes first, then the children of its
parent, then the descendants of the nearest ancestor that has some. Of the patterns that cover the
path at any depth the heaviest wins, and of equally heavy ones the first. A lone star comes last. -/
inductive Wins : List (List Char) → Prop
  | exact (h : Competes es path) : Wins path
  | child (hexact : ¬Competes es path) (h : ChildCompetes es path) :
      Wins (path.dropLast ++ [question])
  | within (hexact : ¬Competes es path) (hchild : ¬ChildCompetes es path)
      {s : List (List Char)} (hs : s ≠ []) (hbegins : s <+: path.dropLast)
      (h : Competes es (s ++ [star]))
      (hnearest : ∀ t, t <+: path.dropLast → s.length < t.length → ¬Competes es (t ++ [star])) :
      Wins (s ++ [star])
  | anywhere (hfree : ¬Settled es path) {e : Entry ρ} (he : e ∈ es) (hown : e.universal = false)
      (h : CoversAnywhere path e.segments)
      (hbest : ∀ f ∈ es, f.universal = false → CoversAnywhere path f.segments →
        f.weight < e.weight ∨ f.weight = e.weight ∧ e.order ≤ f.order) :
      Wins e.segments
  | all (hfree : ¬Settled es path)
      (hnone : ∀ f ∈ es, f.universal = false → ¬CoversAnywhere path f.segments)
      (h : Competes es [star]) : Wins [star]

/-- An entry is taken for an element: its pattern wins, or it covers the path out of competition. -/
def Taken (e : Entry ρ) : Prop :=
  (e.universal = false ∧ Wins es path e.segments) ∨
    (e.universal = true ∧ CoversAlways path e.segments)

variable {es path}

theorem Settled.of_within {s : List (List Char)} (hs : s ≠ []) (hbegins : s <+: path.dropLast)
    (h : Competes es (s ++ [star])) : Settled es path :=
  Or.inr (Or.inr ⟨s, hs, hbegins, h⟩)

/-- There is at most one winner. -/
theorem Wins.unique (horder : ∀ e ∈ es, ∀ f ∈ es, e.order = f.order → e = f)
    {key other : List (List Char)} (h : Wins es path key) (h' : Wins es path other) :
    key = other := by
  cases h with
  | exact h =>
    cases h' with
    | exact _ => rfl
    | child hexact _ => exact absurd h hexact
    | within hexact _ _ _ _ _ => exact absurd h hexact
    | anywhere hfree _ _ _ _ => exact absurd (Or.inl h) hfree
    | all hfree _ _ => exact absurd (Or.inl h) hfree
  | child hexact h =>
    cases h' with
    | exact h' => exact absurd h' hexact
    | child _ _ => rfl
    | within _ hchild _ _ _ _ => exact absurd h hchild
    | anywhere hfree _ _ _ _ => exact absurd (Or.inr (Or.inl h)) hfree
    | all hfree _ _ => exact absurd (Or.inr (Or.inl h)) hfree
  | within hexact hchild hs hbegins h hnearest =>
    cases h' with
    | exact h' => exact absurd h' hexact
    | child _ h' => exact absurd h' hchild
    | @within _ _ t _ hbegins' h' hnearest' =>
      have hle := Nat.le_of_not_lt fun hlt => hnearest _ hbegins' hlt h'
      have hge := Nat.le_of_not_lt fun hlt => hnearest' _ hbegins hlt h
      have heq := (List.prefix_of_prefix_length_le hbegins' hbegins hle).eq_of_length
        (Nat.le_antisymm hle hge)
      rw [heq]
    | anywhere hfree _ _ _ _ => exact absurd (Settled.of_within hs hbegins h) hfree
    | all hfree _ _ => exact absurd (Settled.of_within hs hbegins h) hfree
  | @anywhere hfree e he hown h hbest =>
    cases h' with
    | exact h' => exact absurd (Or.inl h') hfree
    | child _ h' => exact absurd (Or.inr (Or.inl h')) hfree
    | within _ _ hs hbegins h' _ => exact absurd (Settled.of_within hs hbegins h') hfree
    | @anywhere _ f hf hown' h' hbest' =>
      have hle := hbest f hf hown' h'
      have hge := hbest' e he hown h
      have heq : e = f := horder e he f hf (by omega)
      rw [heq]
    | all _ hnone _ => exact absurd h (hnone e he hown)
  | all hfree hnone h =>
    cases h' with
    | exact h' => exact absurd (Or.inl h') hfree
    | child _ h' => exact absurd (Or.inr (Or.inl h')) hfree
    | within _ _ hs hbegins h' _ => exact absurd (Settled.of_within hs hbegins h') hfree
    | @anywhere _ f hf hown' h' _ => exact absurd h' (hnone f hf hown')
    | all _ _ _ => rfl

end Extended

end XmlBinding
