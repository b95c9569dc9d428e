import XmlBinding.Proofs.Reference
import XmlBinding.Proofs.Segments

/-!
# Coverage

A pattern is compared with a path by its shape and by parts of its text. For every pattern that is
compared at all, the comparison says what the reference says of segments. The path must not contain
marks itself.
-/
namespace XmlBinding.Extended

open Pattern

/-- A path without the characters that mark patterns. -/
def Unmarked (path : List Char) : Prop := ∀ c ∈ path, c ≠ '*' ∧ c ≠ '?' ∧ c ≠ '!'

instance (path : List Char) : Decidable (Unmarked path) :=
  List.decidableBAll _ path

/-! ### Characters of segments -/

theorem mem_of_mem_segments {cs s : List Char} (hs : s ∈ segments cs) {c : Char} (hc : c ∈ s) :
    c ∈ cs := by
  induction cs generalizing s with
  | nil =>
    rw [List.mem_singleton.mp hs] at hc
    cases hc
  | cons d rest ih =>
    by_cases hd : d = '/'
    · subst hd
      rw [segments_slash_cons] at hs
      rcases List.mem_cons.mp hs with rfl | hs
      · cases hc
      · exact List.mem_cons_of_mem _ (ih hs hc)
    · obtain ⟨first, others, hrest⟩ := List.exists_cons_of_ne_nil (segments_ne_nil rest)
      rw [segments_cons_of_ne hd hrest] at hs
      rw [hrest] at ih
      rcases List.mem_cons.mp hs with rfl | hs
      · rcases List.mem_cons.mp hc with rfl | hc
        · exact List.mem_cons_self
        · exact List.mem_cons_of_mem _ (ih List.mem_cons_self hc)
      · exact List.mem_cons_of_mem _ (ih (List.mem_cons_of_mem _ hs) hc)

theorem exists_segment_of_mem {cs : List Char} {c : Char} (hc : c ∈ cs) (hslash : c ≠ '/') :
    ∃ s ∈ segments cs, c ∈ s := by
  induction cs with
  | nil => cases hc
  | cons d rest ih =>
    by_cases hd : d = '/'
    · subst hd
      obtain ⟨s, hs, hmem⟩ := ih ((List.mem_cons.mp hc).resolve_left hslash)
      exact ⟨s, List.mem_cons_of_mem _ hs, hmem⟩
    · obtain ⟨first, others, hrest⟩ := List.exists_cons_of_ne_nil (segments_ne_nil rest)
      rw [segments_cons_of_ne hd hrest]
      rcases List.mem_cons.mp hc with rfl | hc
      · exact ⟨c :: first, List.mem_cons_self, List.mem_cons_self⟩
      · obtain ⟨s, hs, hmem⟩ := ih hc
        rw [hrest] at hs
        rcases List.mem_cons.mp hs with rfl | hs
        · exact ⟨d :: s, List.mem_cons_self, List.mem_cons_of_mem _ hmem⟩
        · exact ⟨s, List.mem_cons_of_mem _ hs, hmem⟩

variable {path : List Char}

theorem Unmarked.star_not_mem (h : Unmarked path) : star ∉ segments path := fun hmem =>
  (h '*' (mem_of_mem_segments hmem (List.mem_singleton.mpr rfl))).1 rfl

theorem Unmarked.question_not_mem (h : Unmarked path) : question ∉ segments path := fun hmem =>
  (h '?' (mem_of_mem_segments hmem (List.mem_singleton.mpr rfl))).2.1 rfl

/-- A text all of whose segments are segments of the path has no marks either. -/
theorem Unmarked.of_segments (h : Unmarked path) {cs : List Char}
    (hsub : ∀ s ∈ segments cs, s ∈ segments path) : Unmarked cs := by
  intro c hc
  by_cases hslash : c = '/'
  · subst hslash
    decide
  · obtain ⟨s, hs, hmem⟩ := exists_segment_of_mem hc hslash
    exact h c (mem_of_mem_segments (hsub s hs) hmem)

/-! ### Inversion of coverage -/

theorem star_ne_question : star ≠ question := by decide

/-- A pattern whose last segment is no mark is compared with the end of a path. -/
theorem coversAnywhere_ending {p s : List (List Char)} (hs : s ≠ [])
    (hchild : ∀ t, s ≠ t ++ [question]) (hthrough : ∀ t, s ≠ t ++ [star]) :
    CoversAnywhere p (star :: s) ↔ s <:+ p := by
  refine ⟨fun h => ?_, .ending hs⟩
  cases h with
  | ending _ h => exact h
  | child _ _ => exact absurd rfl (hchild _)
  | through _ _ => exact absurd rfl (hthrough _)

theorem coversAnywhere_child (h : Unmarked path) {s : List (List Char)} (hs : s ≠ []) :
    CoversAnywhere (segments path) (star :: (s ++ [question])) ↔
      s <:+ (segments path).dropLast := by
  refine ⟨fun hcovers => ?_, .child hs⟩
  generalize hkey : star :: (s ++ [question]) = key at hcovers
  cases hcovers with
  | ending _ hsuffix =>
    obtain rfl := (List.cons.inj hkey).2
    exact absurd (hsuffix.subset (List.mem_append_right _ (List.mem_singleton.mpr rfl)))
      h.question_not_mem
  | child _ hsuffix =>
    obtain rfl := (List.append_inj' (List.cons.inj hkey).2 rfl).1
    exact hsuffix
  | through _ _ =>
    have hlast := (List.append_inj' (List.cons.inj hkey).2 rfl).2
    exact absurd (List.cons.inj hlast).1.symm star_ne_question

theorem coversAnywhere_through (h : Unmarked path) {s : List (List Char)} (hs : s ≠ []) :
    CoversAnywhere (segments path) (star :: (s ++ [star])) ↔ s <:+: segments path := by
  refine ⟨fun hcovers => ?_, .through hs⟩
  generalize hkey : star :: (s ++ [star]) = key at hcovers
  cases hcovers with
  | ending _ hsuffix =>
    obtain rfl := (List.cons.inj hkey).2
    exact absurd (hsuffix.subset (List.mem_append_right _ (List.mem_singleton.mpr rfl)))
      h.star_not_mem
  | child _ _ =>
    have hlast := (List.append_inj' (List.cons.inj hkey).2 rfl).2
    exact absurd (List.cons.inj hlast).1 star_ne_question
  | through _ hinfix =>
    obtain rfl := (List.append_inj' (List.cons.inj hkey).2 rfl).1
    exact hinfix

/-! ### The forms of patterns -/

/-- A text begins with `*/` if its first segment, but not its last, is a star. -/
theorem exists_of_star_cons {cs : List Char} {s : List (List Char)} (hs : s ≠ [])
    (h : segments cs = star :: s) : ∃ rest, cs = '*' :: '/' :: rest ∧ segments rest = s := by
  obtain ⟨a, b, rfl, ha, hb⟩ := exists_slash_of_segments (List.cons_ne_nil star []) hs h
  obtain rfl : a = ['*'] := segments_injective (ha.trans (segments_of_no_slash (by decide)).symm)
  exact ⟨b, rfl, hb⟩

theorem segments_star_slash (rest : List Char) :
    segments ('*' :: '/' :: rest) = star :: segments rest :=
  segments_append_slash ['*'] rest

theorem segments_slash_mark (a : List Char) {m : Char} (hm : m ≠ '/') :
    segments (a ++ ['/', m]) = segments a ++ [[m]] := by
  have hmark : segments [m] = [[m]] := segments_of_no_slash fun h =>
    hm (List.mem_singleton.mp h).symm
  rw [segments_append_slash, hmark]

/-- A text ends in a slash and a mark if its last segment, but not its first, is the mark. -/
theorem exists_of_append_mark {cs : List Char} {m : Char} (hm : m ≠ '/') {s : List (List Char)}
    (hs : s ≠ []) (h : segments cs = s ++ [[m]]) : ∃ a, cs = a ++ ['/', m] ∧ segments a = s := by
  obtain ⟨a, b, rfl, ha, hb⟩ := exists_slash_of_segments hs (List.cons_ne_nil [m] []) h
  have hmark : segments [m] = [[m]] := segments_of_no_slash fun hmem =>
    hm (List.mem_singleton.mp hmem).symm
  obtain rfl : b = [m] := segments_injective (hb.trans hmark.symm)
  exact ⟨a, rfl, ha⟩

theorem endsInMark_iff {cs : List Char} {m : Char} (hm : m ≠ '/') :
    ['/', m].isSuffixOf cs = true ↔ ∃ s, s ≠ [] ∧ segments cs = s ++ [[m]] := by
  rw [List.isSuffixOf_iff_suffix]
  constructor
  · rintro ⟨a, rfl⟩
    exact ⟨segments a, segments_ne_nil a, segments_slash_mark a hm⟩
  · rintro ⟨s, hs, h⟩
    obtain ⟨a, rfl, -⟩ := exists_of_append_mark hm hs h
    exact ⟨a, rfl⟩

theorem afterLeadingStar?_isSome_iff {cs : List Char} :
    (afterLeadingStar? cs).isSome = true ↔ ∃ s, s ≠ [] ∧ segments cs = star :: s := by
  constructor
  · intro h
    unfold afterLeadingStar? at h
    split at h
    · next rest => exact ⟨segments rest, segments_ne_nil rest, segments_star_slash rest⟩
    · cases h
  · rintro ⟨s, hs, h⟩
    obtain ⟨rest, rfl, -⟩ := exists_of_star_cons hs h
    rfl

/-- The form of a pattern that is compared with paths one by one, given its body, which is the
pattern without `!`. -/
inductive Form : List Char → Shape → Prop
  | child (a : List Char) (universal : Bool) :
      Form ('*' :: '/' :: (a ++ ['/', '?'])) ⟨universal, true, false, true⟩
  | through (a : List Char) (universal : Bool) :
      Form ('*' :: '/' :: (a ++ ['/', '*'])) ⟨universal, true, true, false⟩
  | ending (rest : List Char) (universal : Bool) (hchild : ∀ t, segments rest ≠ t ++ [question])
      (hthrough : ∀ t, segments rest ≠ t ++ [star]) :
      Form ('*' :: '/' :: rest) ⟨universal, true, false, false⟩
  | within (a : List Char) (hleading : ∀ s, segments a ≠ star :: s) :
      Form (a ++ ['/', '*']) ⟨true, false, true, false⟩

/-- A shape is told by the first and the last segment. -/
theorem shape_of_segments {key : List Char} (leading trailing single : Bool)
    (hleading : leading = true ↔ ∃ s, s ≠ [] ∧ segments (withoutBang key) = star :: s)
    (htrailing : trailing = true ↔ ∃ s, s ≠ [] ∧ segments (withoutBang key) = s ++ [star])
    (hsingle : single = true ↔ ∃ s, s ≠ [] ∧ segments (withoutBang key) = s ++ [question]) :
    Shape.of key = ⟨key.head? == some '!', leading, trailing, single⟩ := by
  have hl : (afterLeadingStar? (withoutBang key)).isSome = leading := by
    rw [Bool.eq_iff_iff, hleading, afterLeadingStar?_isSome_iff]
  have ht : ['/', '*'].isSuffixOf (withoutBang key) = trailing := by
    rw [Bool.eq_iff_iff, htrailing, endsInMark_iff (by decide), star]
  have hq : ['/', '?'].isSuffixOf (withoutBang key) = single := by
    rw [Bool.eq_iff_iff, hsingle, endsInMark_iff (by decide), question]
  rw [Shape.of, hl, ht, hq]

/-- The last segment of a pattern is one segment. -/
theorem append_question_ne_append_star (s t : List (List Char)) :
    s ++ [question] ≠ t ++ [star] := fun h =>
  star_ne_question (List.cons.inj (List.append_inj' h rfl).2).1.symm

/-- Behind a first segment, the last one is the last of the others. -/
theorem exists_of_cons_eq_append {first last : List Char} {s t : List (List Char)} (hs : s ≠ [])
    (h : first :: s = t ++ [last]) : ∃ t', s = t' ++ [last] := by
  cases t with
  | nil => exact absurd (List.cons.inj h).2 hs
  | cons _ t => exact ⟨t, (List.cons.inj h).2⟩

/-- A pattern with a star in front has a form, unless it is made of two marks. -/
theorem Form.of_leading {key : List Char} {s : List (List Char)} (hs : s ≠ [])
    (hsegments : segments (withoutBang key) = star :: s) (hstars : s ≠ [star])
    (hquestion : s ≠ [question]) : Form (withoutBang key) (Shape.of key) := by
  obtain ⟨rest, hbody, hrest⟩ := exists_of_star_cons hs hsegments
  have hleading : true = true ↔ ∃ s, s ≠ [] ∧ segments (withoutBang key) = star :: s :=
    iff_of_true rfl ⟨s, hs, hsegments⟩
  have hlast : ∀ {last : List Char} (u : List (List Char)),
      segments (withoutBang key) = u ++ [last] → ∃ t, s = t ++ [last] := fun _ hu =>
    exists_of_cons_eq_append hs (hsegments.symm.trans hu)
  by_cases hchild : ∃ t, s = t ++ [question]
  · obtain ⟨t, rfl⟩ := hchild
    have ht : t ≠ [] := by
      rintro rfl
      exact hquestion rfl
    obtain ⟨a, rfl, -⟩ := exists_of_append_mark (by decide) ht hrest
    rw [shape_of_segments true false true hleading, hbody]
    · exact .child a _
    · refine iff_of_false nofun ?_
      rintro ⟨u, -, hu⟩
      exact append_question_ne_append_star (star :: t) u (hsegments.symm.trans hu)
    · exact iff_of_true rfl ⟨star :: t, List.cons_ne_nil _ _, hsegments⟩
  · have hnochild : ¬∃ u, u ≠ [] ∧ segments (withoutBang key) = u ++ [question] := by
      rintro ⟨u, -, hu⟩
      exact hchild (hlast u hu)
    by_cases hthrough : ∃ t, s = t ++ [star]
    · obtain ⟨t, rfl⟩ := hthrough
      have ht : t ≠ [] := by
        rintro rfl
        exact hstars rfl
      obtain ⟨a, rfl, -⟩ := exists_of_append_mark (by decide) ht hrest
      rw [shape_of_segments true true false hleading, hbody]
      · exact .through a _
      · exact iff_of_true rfl ⟨star :: t, List.cons_ne_nil _ _, hsegments⟩
      · exact iff_of_false nofun hnochild
    · rw [shape_of_segments true false false hleading, hbody]
      · exact .ending rest _ (fun t ht => hchild ⟨t, hrest ▸ ht⟩)
          (fun t ht => hthrough ⟨t, hrest ▸ ht⟩)
      · refine iff_of_false nofun ?_
        rintro ⟨u, -, hu⟩
        exact hthrough (hlast u hu)
      · exact iff_of_false nofun hnochild

/-- So has a universal one with a star at the end only. -/
theorem Form.of_trailing {key : List Char}
    (hleading : ¬∃ s, s ≠ [] ∧ segments (withoutBang key) = star :: s)
    (huniversal : (Shape.of key).universal = true)
    (htrailing : (Shape.of key).anyDescendant = true) : Form (withoutBang key) (Shape.of key) := by
  obtain ⟨t, ht, hsegments⟩ := (endsInMark_iff (by decide)).mp htrailing
  obtain ⟨a, hbody, ha⟩ := exists_of_append_mark (by decide) ht hsegments
  have hbang : (key.head? == some '!') = true := huniversal
  rw [shape_of_segments false true false (iff_of_false nofun hleading), hbang, hbody]
  · refine .within a fun s hs => hleading ?_
    rw [hsegments, ← ha, hs]
    exact ⟨s ++ [star], by simp, rfl⟩
  · exact iff_of_true rfl ⟨t, ht, hsegments⟩
  · refine iff_of_false nofun ?_
    rintro ⟨u, -, hu⟩
    exact append_question_ne_append_star u t (hu.symm.trans hsegments)

/-- Every scanned pattern has a form, unless it is made of two marks. -/
theorem Form.of_key {key : List Char} (hstars : segments (withoutBang key) ≠ [star, star])
    (hquestion : segments (withoutBang key) ≠ [star, question])
    (hscan : ((Shape.of key).anyAncestor ||
      ((Shape.of key).universal && (Shape.of key).anyDescendant)) = true) :
    Form (withoutBang key) (Shape.of key) := by
  by_cases hleading : ∃ s, s ≠ [] ∧ segments (withoutBang key) = star :: s
  · obtain ⟨s, hs, hsegments⟩ := hleading
    refine .of_leading hs hsegments ?_ ?_
    · rintro rfl
      exact hstars hsegments
    · rintro rfl
      exact hquestion hsegments
  · have hno : (Shape.of key).anyAncestor = false :=
      Bool.eq_false_iff.mpr fun h => hleading (afterLeadingStar?_isSome_iff.mp h)
    rw [hno, Bool.false_or, Bool.and_eq_true] at hscan
    exact .of_trailing hleading hscan.1 hscan.2

/-! ### Covering -/

/-- A pattern with a star in front covers out of competition what it covers in it. -/
theorem coversAlways_leading (h : Unmarked path) {s : List (List Char)} (hs : s ≠ []) :
    CoversAlways (segments path) (star :: s) ↔ CoversAnywhere (segments path) (star :: s) := by
  refine ⟨fun hcovers => ?_, .anywhere⟩
  generalize hkey : star :: s = key at hcovers
  cases hcovers with
  | all => exact absurd (List.cons.inj hkey).2 hs
  | child hne =>
    obtain ⟨x, xs, hx⟩ := List.exists_cons_of_ne_nil hne
    rw [hx] at hkey
    obtain rfl := (List.cons.inj hkey).1
    have hmem : star ∈ (segments path).dropLast := by simp [hx]
    exact absurd ((List.dropLast_subset _) hmem) h.star_not_mem
  | anywhere hcovers => exact hcovers
  | @within t ht hbegins =>
    obtain ⟨x, xs, rfl⟩ := List.exists_cons_of_ne_nil ht
    obtain rfl := (List.cons.inj hkey).1
    exact absurd (hbegins.subset List.mem_cons_self) h.star_not_mem

/-- A pattern with a star only at the end covers what begins with the part in front. -/
theorem coversAlways_within {p s : List (List Char)} (hs : s ≠ [])
    (hleading : ∀ t, s ≠ star :: t) : CoversAlways p (s ++ [star]) ↔ s <+: p := by
  refine ⟨fun hcovers => ?_, .within hs⟩
  generalize hkey : s ++ [star] = key at hcovers
  cases hcovers with
  | all => exact absurd (List.append_inj' hkey rfl).1 hs
  | child _ => exact absurd hkey.symm (append_question_ne_append_star _ s)
  | anywhere hcovers =>
    obtain ⟨x, xs, rfl⟩ := List.exists_cons_of_ne_nil hs
    cases hcovers with
    | ending _ _ => exact absurd (by rw [(List.cons.inj hkey).1]) (hleading xs)
    | child _ _ => exact absurd (by rw [(List.cons.inj hkey).1]) (hleading xs)
    | through _ _ => exact absurd (by rw [(List.cons.inj hkey).1]) (hleading xs)
  | within _ hbegins =>
    obtain rfl := (List.append_inj' hkey rfl).1
    exact hbegins

theorem stem_append (a : List Char) (m : Char) : stem (a ++ ['/', m]) = a := by
  simp [stem]

theorem between?_append (a : List Char) (m : Char) :
    between? ('*' :: '/' :: (a ++ ['/', m])) = some a := by
  simp [between?]

variable {body : List Char} {shape : Shape}

/-- **The comparison of a pattern with a path says whether the pattern covers it.** -/
theorem Form.covers?_spec (h : Unmarked path) (hform : Form body shape) :
    ∃ b, shape.covers? body path = some b ∧
      (b = true ↔ CoversAlways (segments path) (segments body)) ∧
      (shape.universal = false → (b = true ↔ CoversAnywhere (segments path) (segments body))) := by
  have hboth : ∀ {b universal : Bool} {s : List (List Char)}, s ≠ [] →
      (b = true ↔ CoversAnywhere (segments path) (star :: s)) →
      (b = true ↔ CoversAlways (segments path) (star :: s)) ∧
        (universal = false → (b = true ↔ CoversAnywhere (segments path) (star :: s))) :=
    fun hs hb => ⟨hb.trans (coversAlways_leading h hs).symm, fun _ => hb⟩
  cases hform with
  | child a universal =>
    refine ⟨_, rfl, ?_⟩
    rw [segments_star_slash, segments_slash_mark a (by decide)]
    refine hboth (by simp) (Iff.trans ?_ (coversAnywhere_child h (segments_ne_nil a)).symm)
    cases hp : parent? path with
    | none =>
      rw [dropLast_of_no_parent hp]
      exact iff_of_false nofun fun hsuffix => segments_ne_nil a (List.suffix_nil.mp hsuffix)
    | some p =>
      have hstem : stem ('*' :: '/' :: (a ++ ['/', '?'])) = '*' :: '/' :: a :=
        stem_append ('*' :: '/' :: a) '?'
      rw [← segments_of_parent? hp]
      change coversChildrenOf _ p = true ↔ _
      unfold coversChildrenOf
      rw [hstem]
      exact endsAtSegment_iff
  | through a universal =>
    refine ⟨_, congrArg (Option.map _) (between?_append a '*'), ?_⟩
    rw [segments_star_slash, segments_slash_mark a (by decide)]
    exact hboth (by simp)
      (runsThrough_iff.trans (coversAnywhere_through h (segments_ne_nil a)).symm)
  | ending rest universal hchild hthrough =>
    refine ⟨_, rfl, ?_⟩
    rw [segments_star_slash]
    exact hboth (segments_ne_nil rest) (endsAtSegment_iff.trans
      (coversAnywhere_ending (segments_ne_nil rest) hchild hthrough).symm)
  | within a hleading =>
    refine ⟨_, rfl, ?_, nofun⟩
    have hdrop : (a ++ ['/', '*']).dropLast = a ++ ['/'] := by simp
    rw [segments_slash_mark a (by decide), stem_append, hdrop, Bool.or_eq_true, beq_iff_eq,
      List.isPrefixOf_iff_prefix, slash_prefix_iff]
    refine Iff.trans ?_ (coversAlways_within (segments_ne_nil a) hleading).symm
    constructor
    · rintro (rfl | ⟨behind, -, hsegments⟩)
      · exact List.prefix_refl _
      · rw [hsegments]
        exact List.prefix_append ..
    · rintro ⟨behind, hsegments⟩
      cases behind with
      | nil => exact Or.inl (segments_injective (by rw [← hsegments, List.append_nil]))
      | cons x xs => exact Or.inr ⟨x :: xs, List.cons_ne_nil _ _, hsegments.symm⟩

/-! ### Weights -/

theorem Unmarked.filter_eq {cs : List Char} (h : Unmarked cs) :
    cs.filter (fun c => c ≠ '*' ∧ c ≠ '?') = cs := by
  refine List.filter_eq_self.mpr fun c hc => ?_
  obtain ⟨hstar, hquestion, -⟩ := h c hc
  exact decide_eq_true ⟨hstar, hquestion⟩

/-- A pattern that covers an unmarked path competes by all of its characters that are no marks. -/
theorem Form.weight_eq (h : Unmarked path) (hform : Form body shape)
    (hown : shape.universal = false)
    (hcovers : CoversAnywhere (segments path) (segments body)) :
    shape.weight body = Text.byteLength (body.filter fun c => c ≠ '*' ∧ c ≠ '?') := by
  cases hform with
  | child a universal =>
    rw [segments_star_slash, segments_slash_mark a (by decide)] at hcovers
    have hsuffix := (coversAnywhere_child h (segments_ne_nil a)).mp hcovers
    have ha : Unmarked a := h.of_segments fun s hs => List.dropLast_subset _ (hsuffix.subset hs)
    have hfilter : ('*' :: '/' :: (a ++ ['/', '?'])).filter (fun c => c ≠ '*' ∧ c ≠ '?') =
        '/' :: (a ++ ['/']) := by
      simpa using ha.filter_eq
    rw [hfilter, Shape.weight]
    simp only [Text.byteLength_cons, Text.byteLength_append]
    change 1 + (1 + (_ + (1 + (1 + 0)))) - 1 - 1 = 1 + (_ + (1 + 0))
    omega
  | through a universal =>
    rw [segments_star_slash, segments_slash_mark a (by decide)] at hcovers
    have hinfix := (coversAnywhere_through h (segments_ne_nil a)).mp hcovers
    have ha : Unmarked a := h.of_segments fun s hs => hinfix.subset hs
    have hfilter : ('*' :: '/' :: (a ++ ['/', '*'])).filter (fun c => c ≠ '*' ∧ c ≠ '?') =
        '/' :: (a ++ ['/']) := by
      simpa using ha.filter_eq
    rw [hfilter, Shape.weight]
    simp only [Text.byteLength_cons, Text.byteLength_append]
    change 1 + (1 + (_ + (1 + (1 + 0)))) - 1 - 1 = 1 + (_ + (1 + 0))
    omega
  | ending rest universal hchild hthrough =>
    rw [segments_star_slash] at hcovers
    have hsuffix := (coversAnywhere_ending (segments_ne_nil rest) hchild hthrough).mp hcovers
    have hrest : Unmarked rest := h.of_segments fun s hs => hsuffix.subset hs
    have hfilter : ('*' :: '/' :: rest).filter (fun c => c ≠ '*' ∧ c ≠ '?') = '/' :: rest := by
      simpa using hrest.filter_eq
    rw [hfilter, Shape.weight]
    simp only [Text.byteLength_cons]
    change 1 + (1 + _) - 1 - 0 = 1 + _
    omega
  | within a hleading => cases hown

theorem Form.weight_pos (hform : Form body shape) : 0 < shape.weight body := by
  cases hform with
  | child a universal =>
    rw [Shape.weight, Text.byteLength_cons, Text.byteLength_cons, Text.byteLength_append]
    change 0 < 1 + (1 + (_ + (1 + (1 + 0)))) - 1 - 1
    omega
  | through a universal =>
    rw [Shape.weight, Text.byteLength_cons, Text.byteLength_cons, Text.byteLength_append]
    change 0 < 1 + (1 + (_ + (1 + (1 + 0)))) - 1 - 1
    omega
  | ending rest universal hchild hthrough =>
    rw [Shape.weight, Text.byteLength_cons, Text.byteLength_cons]
    change 0 < 1 + (1 + _) - 1 - 0
    omega
  | within a hleading =>
    rw [Shape.weight, Text.byteLength_append]
    change 0 < _ + (1 + (1 + 0)) - 0 - 1
    omega

end XmlBinding.Extended
