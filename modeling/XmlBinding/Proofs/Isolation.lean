import XmlBinding.Proofs.LongestSuffix

/-!
# What rules of other namespaces do to a plain matcher

Rules that are scoped to other namespaces could just as well not be registered, with one exception.
The lookup of the exact path leaves them out before it decides, but the search for the longest
`*/suffix` decides first. Where the longest suffix has rules of other namespaces only, it hides the
shorter ones, and the element gets no rule at all. The lemmas compare a matcher with one that never
heard of the foreign registrations; their places in the order of registration differ, and nothing
else does.
-/
namespace XmlBinding.Plain

open Pattern

variable {ρ : Type}

/-- A history without the registrations for other namespaces, given the namespace for which it
registers at its beginning. -/
def heard (uri : String) : Option String → List (Registration ρ) → List (Registration ρ)
  | _, [] => []
  | scope, .add pattern rule :: rest =>
    if scope = none ∨ scope = some uri then .add pattern rule :: heard uri scope rest
    else heard uri scope rest
  | _, .setScope scope :: rest => .setScope scope :: heard uri scope rest
  | scope, .clear :: rest => .clear :: heard uri scope rest

/-- What a registration says, apart from its place. -/
def content (e : Entry ρ) : String × Option String × ρ := (e.pattern, e.scope, e.rule)

/-- The second list has what applies in a namespace of the first one. -/
def Narrows (uri : String) (es own : List (Entry ρ)) : Prop :=
  own.map content = (es.filter (·.Applies uri)).map content

variable {uri : String} {es own : List (Entry ρ)} {path key : List Char}

/-! ### The registrations that are heard -/

theorem narrows_append {e f : Entry ρ} (h : Narrows uri es own) (happlies : e.Applies uri)
    (hcontent : content f = content e) : Narrows uri (es ++ [e]) (own ++ [f]) := by
  unfold Narrows at h ⊢
  rw [List.filter_append, List.filter_cons_of_pos (by simpa using happlies), List.filter_nil,
    List.map_append, List.map_append, h, List.map_singleton, List.map_singleton, hcontent]

theorem narrows_append_foreign {e : Entry ρ} (h : Narrows uri es own)
    (hforeign : ¬e.Applies uri) : Narrows uri (es ++ [e]) own := by
  unfold Narrows at h ⊢
  rw [List.filter_append, List.filter_cons_of_neg (by simpa using hforeign), List.filter_nil,
    List.append_nil, h]

/-- What is left of the heard history is what applies of all that is left. -/
theorem heard_narrows (check : List Char → Except PatternError Unit)
    (history : List (Registration ρ)) (scope : Option String) (h : Narrows uri es own) :
    Narrows uri (history.foldl (Table.record check) (scope, es)).2
      ((heard uri scope history).foldl (Table.record check) (scope, own)).2 := by
  induction history generalizing scope es own with
  | nil => exact h
  | cons done rest ih =>
    cases done with
    | setScope other => exact ih other h
    | clear => exact ih scope rfl
    | add pattern rule =>
      rw [List.foldl_cons]
      by_cases happlies : scope = none ∨ scope = some uri
      · rw [heard, if_pos happlies, List.foldl_cons]
        cases hcheck : check (dropFinalSlash pattern.toList) with
        | error cause =>
          simp only [Table.record, hcheck]
          exact ih scope h
        | ok u =>
          simp only [Table.record, hcheck]
          exact ih scope (narrows_append h happlies rfl)
      · rw [heard, if_neg happlies]
        cases hcheck : check (dropFinalSlash pattern.toList) with
        | error cause =>
          simp only [Table.record, hcheck]
          exact ih scope h
        | ok u =>
          simp only [Table.record, hcheck]
          exact ih scope (narrows_append_foreign h happlies)

/-! ### What both matchers look at -/

/-- Under every pattern both matchers find the same rules for the namespace. -/
theorem under_of_narrows (h : Narrows uri es own) (key : List Char) :
    (under own uri key).map content = (under es uri key).map content := by
  -- The test of an entry does not ask for its place.
  let isUnder : String × Option String × ρ → Bool := fun c =>
    decide (c.1.toList = key ∧ (c.2.1 = none ∨ c.2.1 = some uri))
  have hunder : ∀ l : List (Entry ρ),
      (under l uri key).map content = (l.map content).filter isUnder := by
    intro l
    rw [List.filter_map]
    rfl
  have hagain : under (es.filter (·.Applies uri)) uri key = under es uri key := by
    unfold under
    rw [List.filter_filter]
    refine List.filter_congr fun e _ => ?_
    rw [Bool.eq_iff_iff]
    simp only [Bool.and_eq_true, decide_eq_true_eq]
    tauto
  calc (under own uri key).map content
      = (own.map content).filter isUnder := hunder own
    _ = ((es.filter (·.Applies uri)).map content).filter isUnder := by rw [h]
    _ = (under (es.filter (·.Applies uri)) uri key).map content := (hunder _).symm
    _ = (under es uri key).map content := by rw [hagain]

theorem rules_of_content {found other : List (Entry ρ)}
    (h : found.map content = other.map content) : found.map (·.rule) = other.map (·.rule) := by
  have hrules := congrArg (List.map fun c => c.2.2) h
  rw [List.map_map, List.map_map] at hrules
  exact hrules

theorem under_eq_nil_iff (h : Narrows uri es own) (key : List Char) :
    under own uri key = [] ↔ under es uri key = [] := by
  rw [← List.map_eq_nil_iff (f := content), under_of_narrows h, List.map_eq_nil_iff]

theorem exists_of_under {l : List (Entry ρ)} (h : under l uri key ≠ []) :
    ∃ e ∈ l, e.pattern.toList = key ∧ e.Applies uri := by
  obtain ⟨e, he⟩ := List.exists_mem_of_ne_nil _ h
  obtain ⟨hmem, hunder⟩ := List.mem_filter.mp he
  exact ⟨e, hmem, of_decide_eq_true hunder⟩

/-- Everything that was heard applies. -/
theorem applies_of_narrows (h : Narrows uri es own) {f : Entry ρ} (hf : f ∈ own) :
    f.Applies uri := by
  have hmem : content f ∈ (es.filter (·.Applies uri)).map content := by
    rw [← h]
    exact List.mem_map_of_mem hf
  obtain ⟨e, he, hcontent⟩ := List.mem_map.mp hmem
  have happlies : e.Applies uri := of_decide_eq_true (List.mem_filter.mp he).2
  have hscope : e.scope = f.scope := congrArg (fun c => c.2.1) hcontent
  unfold Entry.Applies at happlies ⊢
  rw [← hscope]
  exact happlies

/-- The suffixes that the narrow matcher compares are those with a rule for the namespace. -/
theorem coversEnd_iff (h : Narrows uri es own) :
    CoversEnd own path key ↔ CoversEnd es path key ∧ under es uri key ≠ [] := by
  constructor
  · rintro ⟨suffix, hkey, ⟨f, hf, hpattern⟩, hends⟩
    have hunder : under es uri key ≠ [] := by
      rw [ne_eq, ← under_eq_nil_iff h]
      refine List.ne_nil_of_mem (a := f) (List.mem_filter.mpr ⟨hf, ?_⟩)
      exact decide_eq_true ⟨hpattern, applies_of_narrows h hf⟩
    obtain ⟨e, he, hsame, -⟩ := exists_of_under hunder
    exact ⟨⟨suffix, hkey, ⟨e, he, hsame⟩, hends⟩, hunder⟩
  · rintro ⟨⟨suffix, hkey, -, hends⟩, hunder⟩
    rw [ne_eq, ← under_eq_nil_iff h] at hunder
    obtain ⟨f, hf, hpattern, -⟩ := exists_of_under hunder
    exact ⟨suffix, hkey, ⟨f, hf, hpattern⟩, hends⟩

/-! ### The two answers -/

/-- Rules of other namespaces hide the rules for an element: the longest covering suffix has no rule
for its namespace, and a shorter one has. -/
structure Shadowed (es : List (Entry ρ)) (uri : String) (path : List Char) : Prop where
  exact : under es uri path = []
  foreign : ∃ key, CoversEnd es path key ∧ under es uri key = [] ∧
    ∀ other, CoversEnd es path other → Text.byteLength other ≤ Text.byteLength key
  hidden : ∃ key, CoversEnd es path key ∧ under es uri key ≠ []

/-- Behind a suffix of other namespaces nothing is found. -/
theorem Shadowed.answers (h : Shadowed es uri path) {found : List (Entry ρ)}
    (hfound : Answers es uri path found) : found = [] := by
  obtain ⟨key, hkey, hnone, hbest⟩ := h.foreign
  have hanswer := Answers.longest h.exact hkey hbest
  rw [hnone] at hanswer
  exact hfound.unique hanswer

/-- Without the rules of other namespaces the hidden ones are found. -/
theorem Shadowed.answers_narrow (h : Shadowed es uri path) (hown : Narrows uri es own)
    {found : List (Entry ρ)} (hfound : Answers own uri path found) : found ≠ [] := by
  cases hfound with
  | exact hne => exact hne
  | longest hexact hkey hbest =>
    rw [ne_eq, under_eq_nil_iff hown]
    exact ((coversEnd_iff hown).mp hkey).2
  | nothing hexact hnone =>
    obtain ⟨key, hkey⟩ := h.hidden
    exact absurd ((coversEnd_iff hown).mpr hkey) (hnone key)

/-- Where nothing is hidden both matchers find the same rules. -/
theorem answers_of_not_shadowed (h : ¬Shadowed es uri path) (hown : Narrows uri es own)
    {found narrow : List (Entry ρ)} (hfound : Answers es uri path found)
    (hnarrow : Answers own uri path narrow) : narrow.map content = found.map content := by
  cases hfound with
  | exact hne =>
    have hanswer := Answers.exact ((under_eq_nil_iff hown path).not.mpr hne)
    rw [hnarrow.unique hanswer]
    exact under_of_narrows hown path
  | @longest hexact key hkey hbest =>
    have hnil : under own uri path = [] := (under_eq_nil_iff hown path).mpr hexact
    by_cases hunder : under es uri key = []
    · -- A shorter suffix with a rule for the namespace would be hidden.
      have hnone : ∀ other, ¬CoversEnd own path other := by
        intro other hother
        exact h ⟨hexact, ⟨key, hkey, hunder, hbest⟩, ⟨other, (coversEnd_iff hown).mp hother⟩⟩
      rw [hnarrow.unique (.nothing hnil hnone), hunder]
    · have hbest' : ∀ other, CoversEnd own path other →
          Text.byteLength other ≤ Text.byteLength key := by
        intro other hother
        exact hbest other ((coversEnd_iff hown).mp hother).1
      have hanswer := Answers.longest hnil ((coversEnd_iff hown).mpr ⟨hkey, hunder⟩) hbest'
      rw [hnarrow.unique hanswer]
      exact under_of_narrows hown key
  | nothing hexact hnone =>
    have hnil : under own uri path = [] := (under_eq_nil_iff hown path).mpr hexact
    have hanswer := Answers.nothing hnil fun key hkey =>
      hnone key ((coversEnd_iff hown).mp hkey).1
    rw [hnarrow.unique hanswer]

/-- **Rules of other namespaces change the answer only where they hide all rules there are.** -/
theorem isolation_law (history : List (Registration ρ)) (uri : String) (path : List Char)
    (name : String) (attrs : Attributes) :
    ∃ found narrow : List ρ,
      (Matcher.replay (.plain {}) history).rulesFor? uri path name attrs = some found ∧
      (Matcher.replay (.plain {}) (heard uri none history)).rulesFor? uri path name attrs =
        some narrow ∧
      (¬Shadowed (registrations history) uri path → found = narrow) ∧
      (Shadowed (registrations history) uri path → found = [] ∧ narrow ≠ []) := by
  obtain ⟨found, hrules, hfound⟩ := rulesFor?_replay history uri path name attrs
  obtain ⟨narrow, hrules', hnarrow⟩ := rulesFor?_replay (heard uri none history) uri path name attrs
  have hown : Narrows uri (registrations history) (registrations (heard uri none history)) :=
    heard_narrows checkPlain history none rfl
  refine ⟨found.map (·.rule), narrow.map (·.rule), hrules, hrules', ?_, ?_⟩
  · intro h
    exact (rules_of_content (answers_of_not_shadowed h hown hfound hnarrow)).symm
  · intro h
    have hhidden : narrow ≠ [] := h.answers_narrow hown hnarrow
    rw [h.answers hfound]
    exact ⟨rfl, fun hnil => hhidden (List.map_eq_nil_iff.mp hnil)⟩

/-- A rule for all elements `b`, and one for the elements `b` of a namespace below an `a`. -/
def ruleBehindForeign : List (Registration Nat) :=
  [.add "*/b" 0, .setScope (some "x"), .add "*/a/b" 1]

/-- In another namespace the longer suffix hides the rule for all elements. -/
theorem foreign_suffix_hides_a_rule :
    (Matcher.replay (.plain {}) ruleBehindForeign).rulesFor? "y" "a/b".toList "b" [] = some [] ∧
      (Matcher.replay (.plain {}) (heard "y" none ruleBehindForeign)).rulesFor? "y" "a/b".toList
        "b" [] = some [0] := by
  decide

end XmlBinding.Plain
