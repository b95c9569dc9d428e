import Mathlib.Data.List.Induction
import XmlBinding.Proofs.Blind.Documents
import XmlBinding.Proofs.Survey

/-!
# The summary of a mapped document

A summary is computed from the lines of the trace. It reads the name of an element back from the end
of its path, counts the names, and keeps the first of the deepest paths. As the trace is only
written, the document is mapped to the same objects with a summary and without one.
-/
namespace XmlBinding.Generic

/-! ### Counting names -/

/-- How many elements are counted, under whatever name. -/
def total (counts : Dict String Nat) : Nat :=
  counts.entries.foldr (fun entry sum => entry.2 + sum) 0

theorem countNames_concat (names : List String) (name : String) :
    countNames (names ++ [name]) =
      (countNames names).insert name (((countNames names).get? name).getD 0 + 1) := by
  unfold countNames
  rw [List.foldl_append]
  rfl

/-- A name is a key if it occurs, and then it is counted as often as it occurs. -/
theorem get?_countNames (names : List String) (name : String) :
    (countNames names).get? name =
      if names.count name = 0 then none else some (names.count name) := by
  induction names using List.reverseRecOn with
  | nil => rfl
  | append_singleton names last ih =>
    rw [countNames_concat, Dict.get?_insert, List.count_append, List.count_singleton]
    by_cases hlast : name = last
    · subst hlast
      have hcount : ((countNames names).get? name).getD 0 = names.count name := by
        rw [ih]
        split <;> simp [*]
      simp [hcount]
    · simp [hlast, ih, Ne.symm hlast]

theorem total_insert (counts : Dict String Nat) (name : String) :
    total (counts.insert name ((counts.get? name).getD 0 + 1)) = total counts + 1 := by
  obtain ⟨entries⟩ := counts
  unfold total Dict.insert Dict.get?
  dsimp only
  induction entries with
  | nil => rfl
  | cons e rest ih =>
    obtain ⟨key, n⟩ := e
    rw [Dict.put, Dict.lookup]
    split
    · simp only [Option.getD_some, List.foldr_cons]
      omega
    · simp only [List.foldr_cons, ih]
      omega

theorem total_countNames (names : List String) : total (countNames names) = names.length := by
  induction names using List.reverseRecOn with
  | nil => rfl
  | append_singleton names name ih =>
    rw [countNames_concat, total_insert, ih, List.length_append]
    rfl

/-! ### The deepest element -/

/-- The first of the longest paths. -/
def FirstLongest (paths : List (List String)) (path : List String) : Prop :=
  ∃ front back, paths = front ++ path :: back ∧ (∀ p ∈ front, p.length < path.length) ∧
    ∀ p ∈ back, p.length ≤ path.length

namespace FirstLongest

variable {paths : List (List String)} {path last : List String}

theorem concat_of_lt (h : FirstLongest paths path) (hlast : path.length < last.length) :
    FirstLongest (paths ++ [last]) last := by
  obtain ⟨front, back, rfl, hfront, hback⟩ := h
  refine ⟨front ++ path :: back, [], rfl, fun p hp => ?_, List.forall_mem_nil _⟩
  rcases List.mem_append.mp hp with hp | hp
  · exact (hfront p hp).trans hlast
  · rcases List.mem_cons.mp hp with rfl | hp
    · exact hlast
    · exact (hback p hp).trans_lt hlast

theorem concat_of_le (h : FirstLongest paths path) (hlast : last.length ≤ path.length) :
    FirstLongest (paths ++ [last]) path := by
  obtain ⟨front, back, rfl, hfront, hback⟩ := h
  refine ⟨front, back ++ [last], by simp, hfront, fun p hp => ?_⟩
  rcases List.mem_append.mp hp with hp | hp
  · exact hback p hp
  · rw [List.mem_singleton.mp hp]
    exact hlast

end FirstLongest

theorem deepest_concat_none {lines : List ElementTrace} (h : deepest lines = none)
    (line : ElementTrace) :
    deepest (lines ++ [line]) = if 0 < line.depth then some line else none := by
  unfold deepest at h ⊢
  rw [List.foldl_append, h]
  rfl

theorem deepest_concat_some {lines : List ElementTrace} {best : ElementTrace}
    (h : deepest lines = some best) (line : ElementTrace) :
    deepest (lines ++ [line]) = if best.depth < line.depth then some line else some best := by
  unfold deepest at h ⊢
  rw [List.foldl_append, h]
  rfl

/-- The first of the deepest lines is that of the first of the longest paths, and no path is longer.
-/
theorem deepest_lines (trim : Bool) {paths : List (List String)} (hne : paths ≠ [])
    (hpaths : ∀ p ∈ paths, p ≠ []) :
    ∃ path, FirstLongest paths path ∧ deepest (paths.map (lineOf trim)) = some (lineOf trim path) ∧
      (paths.map List.length).foldl max 0 = path.length := by
  induction paths using List.reverseRecOn with
  | nil => exact absurd rfl hne
  | append_singleton paths last ih =>
    obtain ⟨hbefore, hlast⟩ := List.forall_mem_append.mp hpaths
    have hpos : 0 < last.length := List.length_pos_iff.mpr (hlast last List.mem_cons_self)
    simp only [List.map_append, List.map_cons, List.map_nil, List.foldl_append, List.foldl_cons,
      List.foldl_nil]
    by_cases hempty : paths = []
    · subst hempty
      refine ⟨last, ⟨[], [], rfl, List.forall_mem_nil _, List.forall_mem_nil _⟩, ?_, ?_⟩
      · exact (deepest_concat_none rfl _).trans (if_pos hpos)
      · exact Nat.zero_max _
    · obtain ⟨path, hfirst, hdeepest, hmax⟩ := ih hempty hbefore
      rw [hmax, deepest_concat_some hdeepest]
      by_cases hlt : path.length < last.length
      · exact ⟨last, hfirst.concat_of_lt hlt, if_pos hlt, Nat.max_eq_right hlt.le⟩
      · have hle := Nat.le_of_not_lt hlt
        exact ⟨path, hfirst.concat_of_le hle, if_neg hlt, Nat.max_eq_left hle⟩

/-! ### Names and paths -/

namespace Fragment

variable {aware : Bool} {around : List String}

theorem length_paths (c : Fragment) :
    (c.paths aware around).length = (c.names aware).length := by
  induction c generalizing around with
  | done => rfl
  | text content rest ih => exact ih
  | element name attrs inner rest inner_ih rest_ih =>
    simp only [paths, names, List.length_cons, List.length_append, inner_ih, rest_ih]

theorem paths_ne_nil (c : Fragment) : ∀ p ∈ c.paths aware around, p ≠ [] := by
  induction c generalizing around with
  | done => exact List.forall_mem_nil _
  | text content rest ih => exact ih
  | element name attrs inner rest inner_ih rest_ih =>
    exact List.forall_mem_cons.mpr ⟨by simp, List.forall_mem_append.mpr ⟨inner_ih, rest_ih⟩⟩

/-- A path has the names of elements. -/
theorem mem_names_of_mem_paths (c : Fragment) {p : List String} (hp : p ∈ c.paths aware around)
    {name : String} (hname : name ∈ p) : name ∈ around ∨ name ∈ c.names aware := by
  induction c generalizing around with
  | done => cases hp
  | text content rest ih => exact ih hp
  | element own attrs inner rest inner_ih rest_ih =>
    have hpath : ∀ n ∈ around ++ [elementName (nameIn aware own) own],
        n ∈ around ∨ n ∈ (element own attrs inner rest).names aware := by
      intro n hn
      refine (List.mem_append.mp hn).imp_right fun hn => ?_
      rw [List.mem_singleton.mp hn]
      exact List.mem_cons_self
    rcases List.mem_cons.mp hp with rfl | hp
    · exact hpath name hname
    · rcases List.mem_append.mp hp with hp | hp
      · rcases inner_ih hp with hin | hin
        · exact hpath name hin
        · exact .inr (List.mem_cons_of_mem _ (List.mem_append_left _ hin))
      · exact (rest_ih hp).imp_right fun hin =>
          List.mem_cons_of_mem _ (List.mem_append_right _ hin)

/-- The last name of an element's path is its own. -/
theorem map_lastSegment (c : Fragment) (h : ∀ name ∈ c.names aware, '/' ∉ name.toList) :
    (c.paths aware around).map (fun p => StandardRule.lastSegment (pathOf p.reverse)) =
      c.names aware := by
  induction c generalizing around with
  | done => rfl
  | text content rest ih => exact ih h
  | element name attrs inner rest inner_ih rest_ih =>
    obtain ⟨hname, hothers⟩ := List.forall_mem_cons.mp h
    obtain ⟨hinner, hrest⟩ := List.forall_mem_append.mp hothers
    simp only [paths, names, List.map_cons, List.map_append, inner_ih hinner, rest_ih hrest,
      List.reverse_append]
    exact congrArg (· :: _) (lastSegment_pathInside _ hname)

end Fragment

/-! ### Summaries -/

/-- The summary of a document with these elements. -/
structure Summary.Describes (s : Summary) (names : List String) (paths : List (List String)) :
    Prop where
  elements : s.mapping.metrics.elements = names.length
  /-- Every name that occurs is counted as often as it occurs, and no other one. -/
  counts : ∀ name, s.counts.get? name =
    if names.count name = 0 then none else some (names.count name)
  total : total s.counts = s.mapping.metrics.elements
  deepest : paths ≠ [] → ∃ path, FirstLongest paths path ∧
    s.deepestPath = "/".intercalate path ∧ s.mapping.metrics.maxDepth = path.length
  empty : paths = [] → s.deepestPath = "" ∧ s.mapping.metrics.maxDepth = 0
  starts : s.mapping.metrics.starts = 4 * names.length
  bodies : s.mapping.metrics.bodies = 4 * names.length
  closes : s.mapping.metrics.closes = 4 * names.length

/-- Lines that were collected from the start are summed up. -/
theorem describes_summary {trim aware : Bool} {c : Fragment} {m : Mapping}
    (hadds : Adds trim (c.paths aware []) {} m.metrics)
    (hnames : ∀ name ∈ c.names aware, ProperName name) :
    m.summary.Describes (c.names aware) (c.paths aware []) := by
  have htrace : m.metrics.trace = (c.paths aware []).map (lineOf trim) := hadds.trace
  have hlines : m.metrics.trace.map (fun line => StandardRule.lastSegment line.path) =
      c.names aware := by
    rw [htrace, List.map_map]
    exact c.map_lastSegment fun name hname => (hnames name hname).2
  have helements : m.metrics.elements = (c.names aware).length := by
    rw [hadds.elements, c.length_paths]
    exact Nat.zero_add _
  have hcalls : ∀ phase, phase ≠ .finish → m.metrics.count phase = 4 * (c.names aware).length := by
    intro phase hphase
    rw [hadds.calls phase hphase, c.length_paths]
    cases phase <;> exact Nat.zero_add _
  have hcounts : m.summary.counts = countNames (c.names aware) := congrArg countNames hlines
  constructor
  case elements => exact helements
  case counts =>
    intro name
    rw [hcounts, get?_countNames]
  case total =>
    rw [hcounts, total_countNames]
    exact helements.symm
  case deepest =>
    intro hne
    obtain ⟨path, hfirst, hdeepest, hmax⟩ := deepest_lines trim hne c.paths_ne_nil
    have hproper : ∀ name ∈ path.reverse, name ≠ "" := by
      intro name hname
      obtain ⟨front, back, hsplit, -, -⟩ := hfirst
      have hmem : path ∈ c.paths aware [] := by simp [hsplit]
      rcases c.mem_names_of_mem_paths hmem (List.mem_reverse.mp hname) with hnone | hname
      · cases hnone
      · exact (hnames name hname).1
    refine ⟨path, hfirst, ?_, hadds.maxDepth.trans hmax⟩
    unfold Mapping.summary
    rw [htrace, hdeepest, Option.map_some, Option.getD_some, lineOf, pathOf_eq_intercalate hproper,
      List.reverse_reverse]
  case empty =>
    intro hempty
    have hmax := hadds.maxDepth
    unfold Mapping.summary
    rw [hempty] at htrace hmax
    rw [htrace]
    exact ⟨rfl, hmax⟩
  case starts => exact hcalls .start nofun
  case bodies => exact hcalls .body nofun
  case closes => exact hcalls .close nofun

/-- **The summary describes the document.** A text that is mapped is a tree, and with a summary it
is mapped to the same objects and has the same counts. Where no name of an element is empty or has
a slash in it, the summary counts the elements under their names and has the path of the first of
the deepest elements, and the four rules got the start, the text and the end of every element. -/
theorem summary_law {o : Options} {text : String} {m : Mapping} (h : run o text = .ok m) :
    (∃ c : Fragment, delivered? (Markup.scan text.toList) = some c.events) ∧
    ∃ s, runVerbose o text = .ok s ∧ s.mapping.root = m.root ∧ s.mapping.heap = m.heap ∧
      s.mapping.metrics.traceless = m.metrics.traceless ∧
      ∀ c : Fragment, delivered? (Markup.scan text.toList) = some c.events →
        (∀ name ∈ c.names o.namespaceAware, ProperName name) →
        s.Describes (c.names o.namespaceAware) (c.paths o.namespaceAware []) := by
  obtain ⟨m', htraced, hsame⟩ := run_traced h
  obtain ⟨c, hread, hadds⟩ := adds_run (o := { o with collectTrace := true }) rfl htraced
  refine ⟨⟨c, hread⟩, m'.summary, ?_, congrArg (·.root) hsame, congrArg (·.heap) hsame,
    congrArg (·.metrics) hsame, fun d hd => ?_⟩
  · unfold runVerbose
    rw [htraced]
    rfl
  · obtain rfl := Fragment.events_injective (Option.some.inj (hread.symm.trans hd))
    exact describes_summary hadds

/-- Two elements with one name at different depths. -/
theorem summary_law_of_four_elements :
    let text := "<a><b><c/></b><b/></a>"
    ∃ m, run {} text = .ok m ∧
      (∃ c : Fragment, delivered? (Markup.scan text.toList) = some c.events) ∧
      ∃ s, runVerbose {} text = .ok s ∧ s.mapping.root = m.root ∧ s.mapping.heap = m.heap ∧
        s.mapping.metrics.traceless = m.metrics.traceless ∧
        s.Describes ["a", "b", "c", "b"] [["a"], ["a", "b"], ["a", "b", "c"], ["a", "b"]] := by
  intro text
  let c : Fragment := .element "a" [] (.element "b" [] (.element "c" [] .done .done)
    (.element "b" [] .done .done)) .done
  have hread : delivered? (Markup.scan text.toList) = some c.events := by decide +kernel
  have hnames : ∀ name ∈ c.names true, ProperName name := by decide +kernel
  have hmapped : (run {} text).isOk = true := by decide +kernel
  cases h : run {} text with
  | error halt =>
    rw [h] at hmapped
    cases hmapped
  | ok m =>
    obtain ⟨htree, s, hs, hroot, hheap, hmetrics, hdescribes⟩ := summary_law h
    exact ⟨m, rfl, htree, s, hs, hroot, hheap, hmetrics, hdescribes c hread hnames⟩

example : (runVerbose {} "<a><b><c/></b><b/></a>").toOption.map (·.deepestPath) = some "a/b/c" := by
  decide +kernel

end XmlBinding.Generic
