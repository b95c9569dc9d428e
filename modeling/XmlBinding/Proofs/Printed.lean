import Mathlib.Data.String.Basic
import XmlBinding.Proofs.Arguments
import XmlBinding.Proofs.Outlines
import XmlBinding.Proofs.Preview
import XmlBinding.Proofs.Scoping
import XmlBinding.Proofs.Summary

/-!
# The printed tree

The report of a mapped document has one line for each element of the document element's tree. What
is printed of attributes and texts is a preview, so it cannot break a line, and a line begins with
the indentation and the name. The printer stops after as many levels as there are objects, and no
tree has more levels than that.
-/
namespace XmlBinding

open Generic (Fragment Outlines delivered? nameIn)

/-! ### Plain names -/

/-- A name without white space that can stand in a path. -/
structure PlainName (name : String) : Prop where
  proper : ProperName name
  notBlank : ∀ c ∈ name.toList, Text.isBlank c = false

instance (name : String) : Decidable (PlainName name) :=
  have := List.decidableBAll (fun c => Text.isBlank c = false) name.toList
  decidable_of_iff (ProperName name ∧ ∀ c ∈ name.toList, Text.isBlank c = false)
    ⟨fun h => ⟨h.1, h.2⟩, fun h => ⟨h.proper, h.notBlank⟩⟩

/-- Without what stands before its colon a name is still plain, and if nothing is left it stays as
it was. -/
theorem PlainName.elementName {name : String} (h : PlainName name) (aware : Bool) :
    PlainName (elementName (nameIn aware name) name) := by
  unfold XmlBinding.elementName
  split
  · exact h
  · next hne =>
    have hsub : ∀ c ∈ (nameIn aware name).toList, c ∈ name.toList := by
      intro c hc
      unfold nameIn at hc
      split at hc
      · cases hsplit : Document.splitName name with
        | none =>
          rw [hsplit] at hc
          exact hc
        | some parts =>
          rw [hsplit] at hc
          rw [(Document.splitName_eq_some_iff.mp hsplit).name_eq, String.toList_append]
          exact List.mem_append_right _ hc
      · exact hc
    exact ⟨⟨by simpa using hne, fun hslash => h.proper.2 (hsub _ hslash)⟩,
      fun c hc => h.notBlank c (hsub c hc)⟩

namespace Generic.Fragment

variable {aware : Bool} {around : List String}

/-- All elements and attributes have plain names. -/
def PlainNames : Fragment → Prop
  | .done => True
  | .text _ rest => rest.PlainNames
  | .element name attrs inner rest =>
    (PlainName name ∧ ∀ a ∈ attrs, PlainName a.1) ∧ inner.PlainNames ∧ rest.PlainNames

instance decidablePlainNames : (c : Fragment) → Decidable c.PlainNames
  | .done => inferInstanceAs (Decidable True)
  | .text _ rest => decidablePlainNames rest
  | .element name attrs inner rest =>
    have := decidablePlainNames inner
    have := decidablePlainNames rest
    inferInstanceAs (Decidable ((PlainName name ∧ ∀ a ∈ attrs, PlainName a.1) ∧
      inner.PlainNames ∧ rest.PlainNames))

theorem PlainNames.names {c : Fragment} (h : c.PlainNames) :
    ∀ name ∈ c.names aware, PlainName name := by
  induction c with
  | done => exact List.forall_mem_nil _
  | text content rest ih => exact ih h
  | element name attrs inner rest inner_ih rest_ih =>
    obtain ⟨⟨hname, -⟩, hinner, hrest⟩ := h
    exact List.forall_mem_cons.mpr ⟨hname.elementName aware,
      List.forall_mem_append.mpr ⟨inner_ih hinner, rest_ih hrest⟩⟩

theorem PlainNames.documentElement {c : Fragment} (h : c.PlainNames) :
    c.documentElement.PlainNames := by
  induction c with
  | done => exact h
  | text content rest ih => exact ih h
  | element name attrs inner rest _ _ => exact ⟨h.1, h.2.1, trivial⟩

end Generic.Fragment

namespace Report

open Text (isBlank)

/-! ### Flat texts -/

/-- A text in which spaces are the only white space. -/
def Flat (text : String) : Prop := ∀ c ∈ text.toList, isBlank c = true → c = ' '

instance (text : String) : Decidable (Flat text) :=
  List.decidableBAll (fun c => isBlank c = true → c = ' ') text.toList

theorem Flat.append {s t : String} (hs : Flat s) (ht : Flat t) : Flat (s ++ t) := by
  unfold Flat
  rw [String.toList_append]
  exact List.forall_mem_append.mpr ⟨hs, ht⟩

theorem flat_of_notBlank {text : String} (h : ∀ c ∈ text.toList, isBlank c = false) : Flat text :=
  fun c hc hblank => by simp [h c hc] at hblank

theorem flat_indent (depth : Nat) : Flat (indent depth) := by
  intro c hc _
  unfold indent at hc
  rw [String.toList_ofList] at hc
  exact List.eq_of_mem_replicate hc

/-- Whatever a value is, it is shown without line breaks. -/
theorem flat_quoted (h : Heap) (v : Value) : Flat (quoted h v) := by
  have hquote : Flat "\"" := by decide
  exact (hquote.append (preview_law _).1.eq_space).append hquote

/-! ### Lines -/

/-- A text that can stand behind a name in its line: it is empty or keeps off by a space. -/
structure Follows (text : String) : Prop where
  flat : Flat text
  first : ∀ c ∈ text.toList.head?, c = ' '

theorem follows_empty : Follows "" := ⟨by decide, nofun⟩

theorem follows_space {text : String} (h : Flat text) : Follows (" " ++ text) := by
  have hspace : Flat " " := by decide
  refine ⟨hspace.append h, fun c hc => ?_⟩
  rw [String.toList_append] at hc
  exact (Option.some.inj hc).symm

theorem Follows.append {s t : String} (hs : Follows s) (ht : Follows t) : Follows (s ++ t) := by
  refine ⟨hs.flat.append ht.flat, fun c hc => ?_⟩
  rw [String.toList_append, List.head?_append] at hc
  rcases Option.or_eq_some_iff.mp hc with hc | ⟨-, hc⟩
  · exact hs.first c hc
  · exact ht.first c hc

theorem join_append (front back : List String) :
    String.join (front ++ back) = String.join front ++ String.join back := by
  simp only [String.join_eq, List.map_append, List.flatten_append, String.ofList_append]

theorem join_cons (first : String) (rest : List String) :
    String.join (first :: rest) = first ++ String.join rest := by
  simp only [String.join_eq, List.map_cons, List.flatten_cons, String.ofList_append,
    String.ofList_toList]

theorem follows_join {texts : List String} (h : ∀ t ∈ texts, Follows t) :
    Follows (String.join texts) := by
  induction texts with
  | nil => exact follows_empty
  | cons t rest ih =>
    obtain ⟨ht, hrest⟩ := List.forall_mem_cons.mp h
    rw [join_cons]
    exact ht.append (ih hrest)

theorem follows_properties (h : Heap) {bean : DynamicBean}
    (hkeys : ∀ property ∈ bean.properties.keys, property = "text" ∨ PlainName property) :
    Follows (properties false h bean) := by
  refine follows_join fun t ht => ?_
  obtain ⟨p, hp, rfl⟩ := List.mem_map.mp ht
  obtain ⟨hmem, hother⟩ := List.mem_filter.mp hp
  have hkey : p.1 ∈ bean.properties.keys :=
    List.mem_map_of_mem (List.mem_mergeSort.mp hmem)
  have hplain := (hkeys p.1 hkey).resolve_left (by simpa using hother)
  have hequals : Flat "=" := by decide
  have hshown := ((flat_of_notBlank hplain.notBlank).append hequals).append (flat_quoted h p.2)
  have hparts : " " ++ paint false .cyan p.1 ++ "=" ++ quoted h p.2 =
      " " ++ (p.1 ++ "=" ++ quoted h p.2) := by
    simp only [String.append_assoc]
    rfl
  rw [hparts]
  exact follows_space hshown

theorem follows_textOf (h : Heap) (bean : DynamicBean) : Follows (textOf false h bean) := by
  unfold textOf
  split
  · exact follows_space (flat_quoted h _)
  · exact follows_empty

/-- The line of the last of the elements on a path: two spaces for each of them, and its name. What
follows stands behind a space, and there is no other white space in the line. -/
structure IsLineOf (path : List String) (line : String) : Prop where
  flat : Flat line
  shape : ∃ name behind, path.getLast? = some name ∧ PlainName name ∧
    line = String.ofList (List.replicate (2 * path.length) ' ') ++ name ++ behind ∧
    ∀ c ∈ behind.toList.head?, c = ' '

theorem isLineOf_bean (h : Heap) {bean : DynamicBean} (around : List String)
    (hname : PlainName bean.typeName)
    (hkeys : ∀ property ∈ bean.properties.keys, property = "text" ∨ PlainName property) :
    IsLineOf (around ++ [bean.typeName]) (indent (around.length + 1) ++
      paint false .bold bean.typeName ++ properties false h bean ++ textOf false h bean) := by
  have hbehind := (follows_properties h hkeys).append (follows_textOf h bean)
  rw [String.append_assoc]
  refine ⟨((flat_indent _).append (flat_of_notBlank hname.notBlank)).append hbehind.flat,
    bean.typeName, _, List.getLast?_concat, hname, ?_, hbehind.first⟩
  rw [List.length_append]
  rfl

/-! ### Trees -/

/-- The lines of a child. -/
def branch (color : Bool) (h : Heap) (fuel depth : Nat) : Value → List String
  | .object id => tree color h fuel depth id
  | other => [indent depth ++ quoted h other]

theorem tree_dynamic {h : Heap} {id : ObjectId} {bean : DynamicBean}
    (hb : h.bean? id = some (.dynamic bean)) (color : Bool) (fuel depth : Nat) :
    tree color h (fuel + 1) depth id =
      (indent depth ++ paint color .bold bean.typeName ++ properties color h bean ++
        textOf color h bean) :: bean.children.flatMap (branch color h fuel (depth + 1)) := by
  unfold tree
  rw [hb]
  refine congrArg (_ :: List.flatMap · _) (funext fun child => ?_)
  cases child <;> rfl

/-- The objects of elements are printed one line each, in the order of their start tags, if there
are as many levels left as there are elements. -/
theorem forall₂_isLineOf {h : Heap} {aware : Bool} {c : Fragment} {vs : List Value} {fuel : Nat}
    (around : List String) (hplain : c.PlainNames) (hvs : Outlines h.bean? aware c vs)
    (hfuel : (c.names aware).length ≤ fuel) :
    List.Forall₂ IsLineOf (c.paths aware around)
      (vs.flatMap (branch false h fuel (around.length + 1))) := by
  induction c generalizing around vs fuel with
  | done =>
    obtain rfl : vs = [] := hvs
    exact .nil
  | text content rest ih => exact ih around hplain hvs hfuel
  | element name attrs inner rest inner_ih rest_ih =>
    obtain ⟨⟨hname, hattrs⟩, hinner, hrest⟩ := hplain
    obtain ⟨id, children, others, rfl, ⟨bean, hb, htype, hkeys, rfl⟩, hin, hout⟩ := hvs
    rw [Fragment.names, List.length_cons, List.length_append] at hfuel
    -- one level is for the element itself, and the rest is enough for those inside it
    obtain ⟨k, rfl⟩ : ∃ k, fuel = k + 1 := ⟨fuel - 1, by omega⟩
    have hassigned : ∀ property ∈ bean.properties.keys,
        property = "text" ∨ PlainName property := by
      refine fun property hproperty => (hkeys property hproperty).imp_right fun hmem => ?_
      obtain ⟨p, hp, rfl⟩ := List.mem_map.mp hmem
      obtain ⟨a, ha, rfl⟩ := List.mem_map.mp hp
      exact (hattrs a (List.mem_filter.mp ha).1).elementName aware
    have hproper : PlainName bean.typeName := htype ▸ hname.elementName aware
    have hbelow := inner_ih (around ++ [bean.typeName]) hinner hin (show _ ≤ k by omega)
    have hbehind := rest_ih around hrest hout (show _ ≤ k + 1 by omega)
    rw [Fragment.paths, ← htype, List.flatMap_cons, branch, tree_dynamic hb]
    rw [List.length_append] at hbelow
    exact .cons (isLineOf_bean h around hproper hassigned) (List.rel_append hbelow hbehind)

/-- The lines of the tree stand between the headings of the first two parts. -/
theorem exists_lines_eq (label elapsed : String) (s : Generic.Summary) :
    ∃ behind, String.join ((lines false label elapsed s).map (· ++ "\n")) =
      "\n⚙  Digesting: " ++ label ++ "\n\n━━━ Tree ━━━\n" ++
        String.join ((treeOf false s.mapping).map (· ++ "\n")) ++
        "\n━━━ Elements ━━━\n" ++ behind := by
  have htitle : String.join (["", "⚙  Digesting: " ++ label].map (· ++ "\n")) =
      "\n⚙  Digesting: " ++ label ++ "\n" := by
    have hfirst : "" ++ ("" ++ "\n") ++ "⚙  Digesting: " = "\n⚙  Digesting: " := by decide
    rw [← hfirst]
    simp only [String.append_assoc]
    rfl
  have htree : String.join ((heading false "Tree").map (· ++ "\n")) = "\n━━━ Tree ━━━\n" := by
    decide
  have helements : String.join ((heading false "Elements").map (· ++ "\n")) =
      "\n━━━ Elements ━━━\n" := by
    decide
  have hbetween : "\n" ++ "\n━━━ Tree ━━━\n" = "\n\n━━━ Tree ━━━\n" := by decide
  unfold lines
  rw [show paint false .bold (paint false .cyan ("⚙  Digesting: " ++ label)) =
    "⚙  Digesting: " ++ label from rfl]
  simp only [List.map_append, join_append]
  rw [htitle, htree, helements, ← hbetween]
  simp only [String.append_assoc]
  exact ⟨_, rfl⟩

end Report

namespace CommandLine

open Report (IsLineOf preview)

/-- The tree of a document without any element is one line that says so. -/
theorem exists_treeOf {o : Options} {text : String} {m : Generic.Mapping}
    (h : Generic.run o text = .ok m) :
    ∃ d : Fragment, delivered? (Markup.scan text.toList) = some d.events ∧
      (d.PlainNames →
        (d.elements = [] → Report.treeOf false m = ["  Empty document"]) ∧
        (d.elements ≠ [] → List.Forall₂ IsLineOf (d.documentElement.paths o.namespaceAware [])
          (Report.treeOf false m))) := by
  obtain ⟨d, hread, houtlines⟩ := Generic.outlines_run h
  refine ⟨d, hread, fun hplain => ?_⟩
  obtain ⟨hroot, hroom⟩ := houtlines fun name hname => (hplain.names name hname).proper.2
  unfold Report.treeOf
  cases hm : m.root with
  | none =>
    rw [hm] at hroot
    exact ⟨fun _ => rfl, fun hne => absurd (hroot.eq_nil_iff.mp rfl) hne⟩
  | some id =>
    rw [hm] at hroot
    refine ⟨fun hnil => absurd (hroot.eq_nil_iff.mpr hnil) (List.cons_ne_nil _ _), fun _ => ?_⟩
    have hlines := Report.forall₂_isLineOf [] hplain.documentElement hroot hroom
    rwa [Option.toList_some, List.map_singleton, List.flatMap_singleton] at hlines

theorem exists_mapping {color : Bool} {label elapsed text : String} {o : Options}
    (h : (answer color label elapsed (Generic.runVerbose o text)).code = 0) :
    ∃ m, Generic.run { o with collectTrace := true } text = .ok m ∧
      Generic.runVerbose o text = .ok m.summary := by
  unfold Generic.runVerbose at h ⊢
  cases hrun : Generic.run { o with collectTrace := true } text with
  | ok m => exact ⟨m, rfl, rfl⟩
  | error halt =>
    rw [hrun] at h
    cases halt <;> cases h

/-- **The printed tree.** If a document with plain names is mapped and reported without colours, the
part of the report between the first two headings has one line for each element of the document
element's tree, in the order of the start tags: two spaces for each element on its path, and its
name. And whatever is previewed, there are single spaces between words, at most 61 characters, and
nothing that another preview would change. -/
theorem printed_tree_law (s : Surroundings Id) (args : List String) (c : Config)
    (text label : String) (hargs : readArgs { color := s.terminal } args = .ok (.report c))
    (hcolor : c.color = false) (hinput : readDocument s c = .ok (text, label))
    (htimed : ∀ work, (s.timed work).1 = work ()) (hcode : (run s args).code = 0) :
    (∃ d : Fragment, delivered? (Markup.scan text.toList) = some d.events ∧
      (d.PlainNames → ∃ lines behind,
        (run s args).output = "\n⚙  Digesting: " ++ label ++ "\n\n━━━ Tree ━━━\n" ++
          String.join (lines.map (· ++ "\n")) ++ "\n━━━ Elements ━━━\n" ++ behind ∧
        (d.elements = [] → lines = ["  Empty document"]) ∧
        (d.elements ≠ [] → List.Forall₂ IsLineOf
          (d.documentElement.paths c.options.namespaceAware []) lines))) ∧
      ∀ text, Text.SingleSpaced (preview text).toList ∧ (preview text).length ≤ 61 ∧
        preview (preview text) = preview text := by
  refine ⟨?_, Report.preview_law⟩
  have hrun : ∃ elapsed, run s args =
      answer c.color label elapsed (Generic.runVerbose c.options text) := by
    refine ⟨(s.timed fun () => Generic.runVerbose c.options text).2, ?_⟩
    unfold run
    rw [hargs]
    change (match readDocument s c with
      | .error e => refusal e
      | .ok (text, label) => report s c text label) = _
    rw [hinput]
    exact congrArg (answer c.color label _) (htimed _)
  obtain ⟨elapsed, hrun⟩ := hrun
  rw [hrun, hcolor] at hcode ⊢
  obtain ⟨m, hmapped, hverbose⟩ := exists_mapping hcode
  obtain ⟨d, hread, hlines⟩ := exists_treeOf hmapped
  rw [hverbose]
  obtain ⟨behind, houtput⟩ := Report.exists_lines_eq label elapsed m.summary
  exact ⟨d, hread, fun hplain => ⟨_, behind, houtput, hlines hplain⟩⟩

/-- A line break in a value, one between elements and one in a text; a colour on the terminal that
is switched off. -/
theorem printed_tree_law_of_three_elements :
    let text := "<a id='1\n 2'><b/>\n<p:c xmlns:p='u' p:k='v'>hi\nyou</p:c></a>"
    let s := { everywhere text with terminal := true }
    let args := ["--no-color"]
    let d : Fragment := .element "a" [("id", "1\n 2")] (.element "b" [] .done (.text "\n"
      (.element "p:c" [("xmlns:p", "u"), ("p:k", "v")] (.text "hi\nyou" .done) .done))) .done
    readArgs { color := s.terminal } args = .ok (.report {}) ∧
      readDocument s {} = .ok (text, "<stdin>") ∧ (run s args).code = 0 ∧
      delivered? (Markup.scan text.toList) = some d.events ∧ d.PlainNames ∧
      ∃ lines behind,
        (run s args).output = "\n⚙  Digesting: " ++ "<stdin>" ++ "\n\n━━━ Tree ━━━\n" ++
          String.join (lines.map (· ++ "\n")) ++ "\n━━━ Elements ━━━\n" ++ behind ∧
        List.Forall₂ IsLineOf [["a"], ["a", "b"], ["a", "c"]] lines := by
  intro text s args d
  have hcode : (run s args).code = 0 := by decide +kernel
  have hread : delivered? (Markup.scan text.toList) = some d.events := by decide +kernel
  have hplain : d.PlainNames := by decide +kernel
  have hinput : readDocument s {} = .ok (text, "<stdin>") := by
    have hblank : Text.isAllBlank text = false := by decide +kernel
    change (if Text.isAllBlank text then Except.error UsageError.noInput
      else .ok (text, "<stdin>")) = _
    rw [hblank]
    rfl
  refine ⟨rfl, hinput, hcode, hread, hplain, ?_⟩
  obtain ⟨⟨d', hread', hprinted⟩, -⟩ := printed_tree_law s args {} text "<stdin>" rfl rfl
    hinput (fun _ => rfl) hcode
  obtain rfl := Fragment.events_injective (Option.some.inj (hread'.symm.trans hread))
  obtain ⟨lines, behind, houtput, -, hlines⟩ := hprinted hplain
  exact ⟨lines, behind, houtput, hlines (List.cons_ne_nil _ _)⟩

end CommandLine

end XmlBinding
