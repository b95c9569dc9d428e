import XmlBinding.Proofs.Matching

/-!
# What `!` does to a pattern

A pattern that is found for a path when nothing else is registered is, with `!` in front, taken for
that path whatever else is registered. That is so of every pattern in which some segment is a mark.
A pattern without marks is accepted with `!` in front as well, but no lookup and no scan asks for
it: the path it names never gets its rules. Paths may contain any characters here.
-/
namespace XmlBinding.Extended

open Pattern

variable {ρ : Type}

/-- Some segment of a pattern is a mark. -/
def Marked (key : List Char) : Prop := star ∈ segments key ∨ question ∈ segments key

instance (key : List Char) : Decidable (Marked key) := inferInstanceAs (Decidable (_ ∨ _))

theorem mark_mem_segments (a : List Char) {m : Char} (hm : m ≠ '/') :
    [m] ∈ segments (a ++ ['/', m]) := by
  rw [segments_slash_mark a hm]
  exact List.mem_append_right _ (List.mem_singleton.mpr rfl)

/-- The pattern whose two stars share their slash, with which no path can be compared. -/
def twoStars : List Char := ['*', '/', '*']

/-- No pattern consists of two stars, with or without `!`. -/
def NoTwoStars (es : List (Entry ρ)) : Prop :=
  ∀ e ∈ es, e.pattern.toList ≠ twoStars ∧ e.pattern.toList ≠ '!' :: twoStars

instance (es : List (Entry ρ)) : Decidable (NoTwoStars es) := List.decidableBAll _ es

theorem NoTwoStars.withoutBang_ne {es : List (Entry ρ)} (h : NoTwoStars es) {e : Entry ρ}
    (he : e ∈ es) : withoutBang e.pattern.toList ≠ twoStars := by
  obtain ⟨hplain, hbang⟩ := h e he
  generalize e.pattern.toList = key at hplain hbang
  intro heq
  unfold withoutBang at heq
  split at heq
  · exact hbang (congrArg ('!' :: ·) heq)
  · exact hplain heq

variable {path key : List Char}

/-! ### Shapes -/

theorem anyAncestor_iff (hkey : key.head? ≠ some '!') :
    (Shape.of key).anyAncestor = true ↔ ∃ rest, key = '*' :: '/' :: rest := by
  change (afterLeadingStar? (withoutBang key)).isSome = true ↔ _
  rw [withoutBang_of_ne hkey, afterLeadingStar?_isSome_iff]
  constructor
  · rintro ⟨s, hs, hsegments⟩
    obtain ⟨rest, hrest, -⟩ := exists_of_star_cons hs hsegments
    exact ⟨rest, hrest⟩
  · rintro ⟨rest, rfl⟩
    exact ⟨segments rest, segments_ne_nil rest, segments_star_slash rest⟩

/-- `!` in front changes nothing else in the shape. -/
theorem shape_bang (hkey : key.head? ≠ some '!') :
    Shape.of ('!' :: key) = { Shape.of key with universal := true } := by
  unfold Shape.of
  rw [withoutBang_of_ne hkey]
  rfl

theorem marked_of_shape (h : (Shape.of ('!' :: key)).anyAncestor = true ∨
    (Shape.of ('!' :: key)).anyDescendant = true) : Marked key := by
  rcases h with hleading | htrailing
  · obtain ⟨s, -, hs⟩ := afterLeadingStar?_isSome_iff.mp hleading
    change segments key = _ at hs
    exact Or.inl (hs ▸ List.mem_cons_self)
  · obtain ⟨a, ha⟩ := endsIn_iff.mp htrailing
    change key = _ at ha
    exact Or.inl (ha ▸ mark_mem_segments a (by decide))

/-- A mark behind the first segment is the last one. -/
theorem exists_append_of_firstFault? {ss : List (List Char)} (h : firstFault? false ss = none)
    {m : List Char} (hm : m = star ∨ m = question) (hmem : m ∈ ss) : ∃ s, ss = s ++ [m] := by
  induction ss with
  | nil => cases hmem
  | cons s rest ih =>
    unfold firstFault? at h
    cases hfault : markFault? false rest.isEmpty s with
    | some fault => simp [hfault] at h
    | none =>
      simp only [hfault] at h
      rcases List.mem_cons.mp hmem with rfl | hmem
      · cases rest with
        | nil => exact ⟨[], rfl⟩
        | cons _ _ => rcases hm with rfl | rfl <;> cases hfault
      · obtain ⟨s', rfl⟩ := ih h hmem
        exact ⟨s :: s', rfl⟩

/-- What is left of a check that went well. -/
theorem firstFault?_of_checked (h : checkExtended key = .ok ()) :
    withoutBang key = ['*'] ∨ firstFault? true (segments (withoutBang key)) = none := by
  by_cases hall : withoutBang key = ['*']
  · exact Or.inl hall
  · right
    unfold checkExtended at h
    simp only [bind, Except.bind, pure, Except.pure, throw, throwThe, MonadExceptOf.throw] at h
    rw [if_pos hall] at h
    cases hfault : firstFault? true (segments (withoutBang key)) with
    | none => rfl
    | some fault =>
      rw [hfault] at h
      repeat' split at h
      all_goals contradiction

/-- A checked pattern with a mark is the lone star or has a shape by which it is searched. -/
theorem shape_of_marked (hkey : key.head? ≠ some '!') (hcheck : checkExtended key = .ok ())
    (h : Marked key) : key = ['*'] ∨ (Shape.of key).oneChild = true ∨
      (Shape.of key).anyDescendant = true ∨ (Shape.of key).anyAncestor = true := by
  rw [oneChild_iff, anyDescendant_iff, anyAncestor_iff hkey]
  rcases firstFault?_of_checked hcheck with hall | hfault
  · exact Or.inl ((withoutBang_of_ne hkey).symm.trans hall)
  rw [withoutBang_of_ne hkey] at hfault
  obtain ⟨first, rest, hsegments⟩ := List.exists_cons_of_ne_nil (segments_ne_nil key)
  have hbehind : firstFault? false rest = none ∧ first ≠ question := by
    rw [hsegments] at hfault
    unfold firstFault? at hfault
    cases hmark : markFault? true rest.isEmpty first with
    | some fault => simp [hmark] at hfault
    | none =>
      simp only [hmark] at hfault
      refine ⟨hfault, ?_⟩
      rintro rfl
      simp [markFault?, question] at hmark
  have hlast : ∀ {m : Char}, m ≠ '/' → [m] = star ∨ [m] = question → [m] ∈ rest →
      ∃ a, key = a ++ ['/', m] := by
    intro m hm hmark hmem
    obtain ⟨s, rfl⟩ := exists_append_of_firstFault? hbehind.1 hmark hmem
    obtain ⟨a, ha, -⟩ := exists_of_append_mark hm (List.cons_ne_nil first s) hsegments
    exact ⟨a, ha⟩
  rcases h with h | h <;> rw [hsegments] at h <;> rcases List.mem_cons.mp h with rfl | hmem
  · by_cases hnil : rest = []
    · subst hnil
      exact Or.inl (segments_injective hsegments)
    · obtain ⟨rest, hrest, -⟩ := exists_of_star_cons hnil hsegments
      exact Or.inr (Or.inr (Or.inr ⟨rest, hrest⟩))
  · exact Or.inr (Or.inr (Or.inl (hlast (by decide) (Or.inl rfl) hmem)))
  · exact absurd rfl hbehind.2
  · exact Or.inr (Or.inl (hlast (by decide) (Or.inr rfl) hmem))

/-- Behind a star in front and another one at the end there is a part to compare. -/
theorem exists_between {a rest : List Char} (hleading : key = '*' :: '/' :: rest)
    (htrailing : key = a ++ ['/', '*']) (hne : key ≠ twoStars) :
    ∃ inner, key = '*' :: '/' :: (inner ++ ['/', '*']) := by
  subst hleading
  match a with
  | [] => simp at htrailing
  | [c] =>
    simp only [List.cons_append, List.nil_append, List.cons.injEq, true_and] at htrailing
    exact absurd (by rw [htrailing.2]; rfl) hne
  | c :: d :: inner =>
    simp only [List.cons_append, List.cons.injEq] at htrailing
    exact ⟨inner, by rw [htrailing.2.2]⟩

/-- Every pattern but the two stars can be compared with a path. -/
theorem exists_covers? (hne : withoutBang key ≠ twoStars) (path : List Char) :
    ∃ b, (Shape.of key).covers? (withoutBang key) path = some b := by
  unfold Shape.covers?
  split
  · exact ⟨_, rfl⟩
  · split
    · next hboth =>
      obtain ⟨hleading, htrailing⟩ := (Bool.and_eq_true _ _).mp hboth
      obtain ⟨s, hs, hsegments⟩ := afterLeadingStar?_isSome_iff.mp hleading
      obtain ⟨rest, hrest, -⟩ := exists_of_star_cons hs hsegments
      obtain ⟨a, ha⟩ := endsIn_iff.mp htrailing
      obtain ⟨inner, hinner⟩ := exists_between hrest ha hne
      rw [hinner, between?_append]
      exact ⟨_, rfl⟩
    · split <;> exact ⟨_, rfl⟩

/-- A pattern for all descendants covers what begins with it up to the slash. -/
theorem covers?_of_beginning (hkey : key.head? ≠ some '!')
    (htrailing : (Shape.of key).anyDescendant = true) (hne : key ≠ twoStars)
    (hpre : key.dropLast <+: path) : (Shape.of key).covers? key path = some true := by
  obtain ⟨a, ha⟩ := anyDescendant_iff.mp htrailing
  have hchild : (Shape.of key).oneChild = false := by
    rw [Bool.eq_false_iff]
    intro hchild
    obtain ⟨b, hb⟩ := oneChild_iff.mp hchild
    have hlast := congrArg List.getLast? (ha.symm.trans hb)
    simp at hlast
  unfold Shape.covers?
  rw [hchild, if_neg nofun, htrailing, Bool.and_true]
  cases hleading : (Shape.of key).anyAncestor with
  | false =>
    rw [if_neg nofun, if_neg nofun, List.isPrefixOf_iff_prefix.mpr hpre, Bool.or_true]
  | true =>
    obtain ⟨rest, hrest⟩ := (anyAncestor_iff hkey).mp hleading
    obtain ⟨inner, rfl⟩ := exists_between hrest ha hne
    rw [if_pos rfl, between?_append, Option.map_some, Option.some.injEq, runsThrough_iff]
    have hfront : ('*' :: '/' :: (inner ++ ['/', '*'])).dropLast =
        '*' :: '/' :: (inner ++ ['/']) :=
      dropLast_slash_mark ('*' :: '/' :: inner) '*'
    rw [hfront] at hpre
    obtain ⟨behind, rfl⟩ := hpre
    refine ⟨[star], segments behind, ?_⟩
    have hsplit : '*' :: '/' :: (inner ++ ['/']) ++ behind =
        '*' :: '/' :: (inner ++ '/' :: behind) := by simp
    rw [hsplit, segments_star_slash, segments_append_slash]
    rfl

/-! ### Found alone, taken among others -/

/-- How a pattern without `!` is found for a path when nothing else is registered. -/
inductive Found (path key : List Char) : Prop
  | exact (h : key = path)
  | children {parent : List Char} (hparent : parent? path = some parent)
      (h : key = parent ++ ['/', '?'])
  | descendants (htrailing : (Shape.of key).anyDescendant = true) (h : key.dropLast <+: path)
  | scanned (hleading : (Shape.of key).anyAncestor = true)
      (h : (Shape.of key).covers? key path = some true)
  | all (h : key = ['*'])

/-- How a pattern is found behind `!`. -/
inductive FoundAlways (path key : List Char) : Prop
  | all (h : key = ['*'])
  | children {parent : List Char} (hparent : parent? path = some parent)
      (h : key = parent ++ ['/', '?'])
  | scanned (hmark : (Shape.of key).anyAncestor = true ∨ (Shape.of key).anyDescendant = true)
      (h : (Shape.of key).covers? key path = some true)

/-- **A marked pattern that is found alone is found behind `!`.** -/
theorem Found.always (hkey : key.head? ≠ some '!') (hcheck : checkExtended key = .ok ())
    (hmarked : Marked key) (hne : key ≠ twoStars) (h : Found path key) : FoundAlways path key := by
  cases h with
  | exact h =>
    subst h
    have hself : (Shape.of key).anyDescendant = true → FoundAlways key key := fun htrailing =>
      .scanned (Or.inr htrailing)
        (covers?_of_beginning hkey htrailing hne (List.dropLast_prefix key))
    rcases shape_of_marked hkey hcheck hmarked with hall | hchild | htrailing | hleading
    · exact .all hall
    · obtain ⟨a, rfl⟩ := oneChild_iff.mp hchild
      exact .children (parent?_append_slash a (by decide)) rfl
    · exact hself htrailing
    · by_cases htrailing : (Shape.of key).anyDescendant = true
      · exact hself htrailing
      by_cases hchild : (Shape.of key).oneChild = true
      · obtain ⟨a, rfl⟩ := oneChild_iff.mp hchild
        exact .children (parent?_append_slash a (by decide)) rfl
      refine .scanned (Or.inl hleading) ?_
      rw [Bool.not_eq_true] at htrailing hchild
      obtain ⟨rest, rfl⟩ := (anyAncestor_iff hkey).mp hleading
      simp only [Shape.covers?, hchild, hleading, htrailing, Bool.and_false, if_true]
      rw [if_neg nofun, if_neg nofun, Option.some.injEq, endsAtSegment_iff, segments_star_slash]
      exact List.suffix_cons _ _
  | children hparent h => exact .children hparent h
  | descendants htrailing h =>
    exact .scanned (Or.inr htrailing) (covers?_of_beginning hkey htrailing hne h)
  | scanned hleading h => exact .scanned (Or.inl hleading) h
  | all h => exact .all h

/-- What a scan leaves: the scanned rows that cover the path. -/
def Leaves (t : Table ρ) (path : List Char) (scanned : List (Row ρ)) : Prop :=
  ∀ row, row ∈ scanned ↔ row ∈ t.rows ∧ isScanned row = true ∧
    row.shape.covers? (withoutBang row.key) path = some true

section Table

variable {t : Table ρ} (ht : t.Registered checkExtended)
include ht

/-- Without the two stars the scan leaves exactly the rows that cover the path. -/
theorem covering?_leaves (hfree : NoTwoStars t.entries) (path : List Char) :
    ∃ scanned, covering? path t.rows = some scanned ∧ Leaves t path scanned := by
  refine ⟨_, covering?_eq (fun row => (row.shape.covers? (withoutBang row.key) path).getD false)
    ?_, fun row => ?_⟩
  · intro row hrow _
    obtain ⟨e, he⟩ := ht.exists_mem_row hrow
    obtain ⟨hmem, hkey⟩ := (ht.mem_row hrow).mp he
    obtain ⟨b, hb⟩ := exists_covers? (hkey ▸ hfree.withoutBang_ne hmem) path
    rw [ht.shape_eq row hrow, hb]
    rfl
  · rw [List.mem_filter, Bool.and_eq_true]
    refine and_congr_right fun _ => and_congr_right fun _ => ?_
    cases row.shape.covers? (withoutBang row.key) path <;> simp

omit ht in
theorem mem_of_foldl_heavier {rows : List (Row ρ)} {best : Option (Row ρ)} {row : Row ρ}
    (h : rows.foldl heavier best = some row) : best = some row ∨ row ∈ rows := by
  induction rows generalizing best with
  | nil => exact Or.inl h
  | cons first rest ih =>
    rcases ih h with hbest | hmem
    · unfold heavier at hbest
      split at hbest <;> split at hbest
      · exact Or.inr (Option.some.inj hbest ▸ List.mem_cons_self)
      · cases hbest
      · exact Or.inr (Option.some.inj hbest ▸ List.mem_cons_self)
      · exact Or.inl hbest
    · exact Or.inr (List.mem_cons_of_mem _ hmem)

omit ht in
theorem mem_of_longest? {test : Row ρ → Bool} {row : Row ρ} (h : t.longest? test = some row) :
    row ∈ t.rows ∧ test row = true := by
  have hstep : ∀ b row : Row ρ, Table.longer (some b) row =
      if Text.byteLength b.key < Text.byteLength row.key then some row else some b :=
    fun _ _ => rfl
  rcases foldl_firstBest (t.rows.filter test) hstep fun _ _ => rfl with
    ⟨-, hnone⟩ | ⟨best, hsome, hbest⟩
  · exact absurd (hnone.symm.trans h) nofun
  · obtain rfl : best = row := Option.some.inj (hsome.symm.trans h)
    exact List.mem_filter.mp hbest.mem

/-- What settles the competition is found alone: the path itself, the children of its parent, or
what is below an ancestor. -/
theorem found_of_mem_settled? {found : List (Entry ρ)} (hfound : settled? t path = some found)
    {e : Entry ρ} (he : e ∈ found) : e ∈ t.entries ∧ Found path e.pattern.toList := by
  unfold settled? at hfound
  split at hfound
  · next hexact =>
    rw [← Option.some.inj hfound] at he
    obtain ⟨hmem, hkey⟩ := (ht.mem_lookup? hexact).mp he
    exact ⟨hmem, .exact hkey⟩
  split at hfound
  · cases hfound
  next parent hparent =>
  split at hfound
  · next hchild =>
    rw [← Option.some.inj hfound] at he
    obtain ⟨hmem, hkey⟩ := (ht.mem_lookup? hchild).mp he
    exact ⟨hmem, .children hparent hkey⟩
  · obtain ⟨row, hrow, rfl⟩ := Option.map_eq_some_iff.mp hfound
    obtain ⟨hrow, hleads⟩ := mem_of_longest? hrow
    obtain ⟨hmem, hkey⟩ := (ht.mem_row hrow).mp he
    unfold leadsThrough at hleads
    rw [Bool.and_eq_true, List.isPrefixOf_iff_prefix, ht.shape_eq row hrow, ← hkey] at hleads
    exact ⟨hmem, .descendants hleads.1 hleads.2⟩

/-- What wins among others is found alone. -/
theorem found_of_mem_winning {scanned : List (Row ρ)} (hscanned : Leaves t path scanned)
    {e : Entry ρ} (he : e ∈ winning t path scanned) :
    e ∈ t.entries ∧ Found path e.pattern.toList := by
  unfold winning at he
  split at he
  · next found hfound => exact found_of_mem_settled? ht hfound he
  split at he
  · next row hheavy =>
    obtain ⟨hscan, hown⟩ :=
      List.mem_filter.mp ((mem_of_foldl_heavier hheavy).resolve_left nofun)
    rw [Bool.not_eq_true'] at hown
    obtain ⟨hrow, hisScanned, hcovers⟩ := (hscanned row).mp hscan
    obtain ⟨hmem, hkey⟩ := (ht.mem_row hrow).mp he
    have hhead : row.key.head? ≠ some '!' := fun h => by
      rw [(universal_iff ht hrow).mpr h] at hown
      cases hown
    unfold isScanned at hisScanned
    rw [hown, Bool.false_and, Bool.or_false, ht.shape_eq row hrow] at hisScanned
    rw [ht.shape_eq row hrow, withoutBang_of_ne hhead] at hcovers
    rw [hkey]
    exact ⟨hmem, .scanned hisScanned hcovers⟩
  · obtain ⟨hmem, hkey⟩ := ht.mem_lookup?_getD.mp he
    exact ⟨hmem, .all hkey⟩

/-- What is taken out of competition has a mark behind its `!`. -/
theorem marked_of_mem_universal {scanned : List (Row ρ)} (hscanned : Leaves t path scanned)
    {e : Entry ρ} (he : e ∈ universal t path scanned) :
    e ∈ t.entries ∧ ∃ key, e.pattern.toList = '!' :: key ∧ Marked key := by
  unfold universal at he
  rw [List.mem_append, List.mem_append, ht.mem_lookup?_getD, ht.mem_lookup?_getD,
    List.mem_flatMap] at he
  rcases he with (⟨hmem, hkey⟩ | ⟨hmem, hkey⟩) | ⟨row, hrow, he⟩
  · exact ⟨hmem, _, hkey, Or.inl (by decide)⟩
  · exact ⟨hmem, _, hkey, Or.inr (mark_mem_segments _ (by decide))⟩
  · obtain ⟨hrow, huniversal⟩ := List.mem_filter.mp hrow
    obtain ⟨hrow, hisScanned, -⟩ := (hscanned row).mp hrow
    obtain ⟨hmem, hkey⟩ := (ht.mem_row hrow).mp he
    obtain ⟨body, hbody⟩ := List.head?_eq_some_iff.mp ((universal_iff ht hrow).mp huniversal)
    refine ⟨hmem, body, hkey.trans hbody, marked_of_shape ?_⟩
    unfold isScanned at hisScanned
    rw [ht.shape_eq row hrow, hbody, Bool.or_eq_true, Bool.and_eq_true] at hisScanned
    exact hisScanned.imp_right And.right

/-- What is found behind `!` is taken out of competition. -/
theorem mem_universal_of_found {scanned : List (Row ρ)} (hscanned : Leaves t path scanned)
    {e : Entry ρ} (he : e ∈ t.entries) (hbang : e.pattern.toList = '!' :: key)
    (hkey : key.head? ≠ some '!') (h : FoundAlways path key) : e ∈ universal t path scanned := by
  unfold universal
  rw [List.mem_append, List.mem_append, ht.mem_lookup?_getD, ht.mem_lookup?_getD,
    List.mem_flatMap]
  cases h with
  | all h => exact Or.inl (Or.inl ⟨he, h ▸ hbang⟩)
  | children hparent h =>
    rw [hparent]
    subst h
    exact Or.inl (Or.inr ⟨he, hbang⟩)
  | scanned hmark h =>
    obtain ⟨row, hrow, hrowkey⟩ := List.mem_map.mp ((ht.mem_keys _).mpr ⟨e, he, hbang⟩)
    have hshape : row.shape = { Shape.of key with universal := true } := by
      rw [ht.shape_eq row hrow, hrowkey, shape_bang hkey]
    refine Or.inr ⟨row, List.mem_filter.mpr ⟨(hscanned row).mpr ⟨hrow, ?_, ?_⟩, ?_⟩, ?_⟩
    · unfold isScanned
      rw [hshape]
      simpa using hmark
    · rw [hshape, hrowkey]
      exact h
    · rw [hshape]
    · exact (ht.mem_row hrow).mpr ⟨he, hbang.trans hrowkey.symm⟩

/-- The answer holds the accepting entries that win or are taken out of competition. -/
theorem mem_entriesFor? (hfree : NoTwoStars t.entries) (uri : String) (path : List Char) :
    ∃ found scanned, entriesFor? t uri path = some found ∧ Leaves t path scanned ∧
      ∀ e, e ∈ found ↔
        (e ∈ winning t path scanned ∨ e ∈ universal t path scanned) ∧ e.accepts uri = true := by
  obtain ⟨scanned, hcovering, hscanned⟩ := covering?_leaves ht hfree path
  unfold entriesFor?
  rw [hcovering]
  refine ⟨_, scanned, rfl, hscanned, fun e => ?_⟩
  rw [mem_dropRepeated ht, List.mem_mergeSort, List.mem_filter, List.mem_append]
  intro f hf
  rw [List.mem_mergeSort, List.mem_filter, List.mem_append] at hf
  rcases hf.1 with hwins | huniversal
  · exact (found_of_mem_winning ht hscanned hwins).1
  · exact (marked_of_mem_universal ht hscanned huniversal).1

/-- A universal pattern without marks is found for no path but one that begins with `!` itself. -/
theorem path_eq_of_bare (hfree : NoTwoStars t.entries) {uri : String} {found : List (Entry ρ)}
    (hfound : entriesFor? t uri path = some found) {e : Entry ρ} (he : e ∈ found)
    (hbang : e.pattern.toList = '!' :: key) (hbare : ¬Marked key) : path = '!' :: key := by
  obtain ⟨_, scanned, hsome, hscanned, hmem⟩ := mem_entriesFor? ht hfree uri path
  obtain rfl := Option.some.inj (hfound.symm.trans hsome)
  rcases ((hmem e).mp he).1 with hwins | huniversal
  · obtain ⟨-, hfound⟩ := found_of_mem_winning ht hscanned hwins
    rw [hbang] at hfound
    cases hfound with
    | exact h => exact h.symm
    | @children parent _ h =>
      refine absurd (Or.inr ?_) hbare
      cases parent with
      | nil => cases h
      | cons c parent =>
        rw [(List.cons.inj h).2]
        exact mark_mem_segments parent (by decide)
    | descendants htrailing _ => exact absurd (marked_of_shape (Or.inr htrailing)) hbare
    | scanned hleading _ => exact absurd (marked_of_shape (Or.inl hleading)) hbare
    | all h => cases h
  · obtain ⟨-, body, hbody, hmarked⟩ := marked_of_mem_universal ht hscanned huniversal
    obtain rfl := (List.cons.inj (hbang.symm.trans hbody)).2
    exact absurd hmarked hbare

end Table

/-! ### One pattern with and without `!` -/

/-- A history leaves a table, and the table is what answers. -/
theorem exists_table (history : List (Registration ρ)) :
    ∃ t : Table ρ, t.entries = registrations history ∧ t.Registered checkExtended ∧
      ∀ uri path name attrs, (Matcher.replay (.extended {}) history).rulesFor? uri path name attrs =
        (entriesFor? t uri path).map fun found => found.map (·.rule) := by
  obtain ⟨t, hreplay, hrecord, ht⟩ :=
    replay_extended (Table.registered_empty (ρ := ρ) none) history
  refine ⟨t, (congrArg Prod.snd hrecord).symm, ht, fun uri path name attrs => ?_⟩
  rw [hreplay]
  rfl

theorem dropFinalSlash_head? {cs : List Char} (h : cs.head? ≠ some '!') :
    (dropFinalSlash cs).head? ≠ some '!' := by
  unfold dropFinalSlash
  split
  · match cs with
    | [] => exact nofun
    | [c] => exact nofun
    | c :: d :: rest => exact h
  · exact h

/-- A rule that a matcher finds under its only pattern has a pattern by which it is found. -/
theorem found_of_alone {pattern : String} {rule : ρ} {uri name : String} {attrs : Attributes}
    {alone : List ρ} (hpattern : pattern.toList.head? ≠ some '!')
    (hne : dropFinalSlash pattern.toList ≠ twoStars)
    (hanswer : (Matcher.replay (.extended {}) [.add pattern rule]).rulesFor? uri path name attrs =
      some alone) (hrule : rule ∈ alone) :
    checkExtended (dropFinalSlash pattern.toList) = .ok () ∧
      Found path (dropFinalSlash pattern.toList) := by
  set key := dropFinalSlash pattern.toList with hkeydef
  have hkey : key.head? ≠ some '!' := dropFinalSlash_head? hpattern
  obtain ⟨t, hentries, ht, hrules⟩ := exists_table [.add pattern rule]
  have honly : ∀ e ∈ t.entries, e.pattern.toList = key := by
    intro e he
    rw [hentries] at he
    change e ∈ (record (none, []) (.add pattern rule)).2 at he
    unfold record at he
    dsimp only at he
    split at he
    · rw [List.nil_append, List.mem_singleton] at he
      rw [he, String.toList_ofList]
    · cases he
  have hfree : NoTwoStars t.entries := fun e he => by
    rw [honly e he]
    exact ⟨hne, fun heq => hkey (heq ▸ rfl)⟩
  obtain ⟨found, scanned, hfound, hscanned, hmem⟩ := mem_entriesFor? ht hfree uri path
  rw [hrules, hfound] at hanswer
  rw [← Option.some.inj hanswer] at hrule
  obtain ⟨e, he, -⟩ := List.mem_map.mp hrule
  rcases ((hmem e).mp he).1 with hwins | huniversal
  · obtain ⟨hentry, hway⟩ := found_of_mem_winning ht hscanned hwins
    rw [honly e hentry] at hway
    exact ⟨honly e hentry ▸ ht.checked e hentry, hway⟩
  · obtain ⟨hentry, body, hbody, -⟩ := marked_of_mem_universal ht hscanned huniversal
    rw [honly e hentry] at hbody
    exact absurd (hbody ▸ rfl) hkey

/-- **`!` makes a marked pattern universal.** A rule that its pattern alone finds for a path is,
under the pattern with `!`, found for that path whatever else is registered. -/
theorem universal_law {pattern : String} {rule : ρ} {path : List Char} {uri name : String}
    {attrs : Attributes} {alone : List ρ} (hpattern : pattern.toList.head? ≠ some '!')
    (hne : dropFinalSlash pattern.toList ≠ twoStars)
    (hmarked : Marked (dropFinalSlash pattern.toList))
    (halone : (Matcher.replay (.extended {}) [.add pattern rule]).rulesFor? uri path name attrs =
      some alone) (hrule : rule ∈ alone) {history : List (Registration ρ)}
    (hfree : NoTwoStars (registrations history)) {e : Entry ρ}
    (he : e ∈ registrations history)
    (hbang : e.pattern.toList = '!' :: dropFinalSlash pattern.toList) (hscope : e.scope = none)
    (hsame : e.rule = rule) (uri' name' : String) (attrs' : Attributes) :
    ∃ found, (Matcher.replay (.extended {}) history).rulesFor? uri' path name' attrs' =
      some found ∧ rule ∈ found := by
  obtain ⟨hcheck, hway⟩ := found_of_alone hpattern hne halone hrule
  have hkey := dropFinalSlash_head? hpattern
  obtain ⟨t, hentries, ht, hrules⟩ := exists_table history
  rw [← hentries] at hfree he
  obtain ⟨found, scanned, hfound, hscanned, hmem⟩ := mem_entriesFor? ht hfree uri' path
  refine ⟨_, by rw [hrules, hfound]; rfl, List.mem_map.mpr ⟨e, (hmem e).mpr ⟨Or.inr ?_, ?_⟩, hsame⟩⟩
  · exact mem_universal_of_found ht hscanned he hbang hkey (hway.always hkey hcheck hmarked hne)
  · rw [Entry.accepts, hscope]

/-- A rule for the children of one element, beside a rule for the exact path that wins there. -/
theorem universal_law_of_a_child :
    let history : List (Registration Nat) := [.add "a/b" 1, .add "!a/?/" 0, .setScope (some "u"),
      .add "*" 2]
    ∃ found, (Matcher.replay (.extended {}) history).rulesFor? "v" "a/b".toList "b" [] =
      some found ∧ 0 ∈ found := by
  have halone : (Matcher.replay (.extended {}) [.add "a/?/" 0]).rulesFor? "" "a/b".toList "b" [] =
      some [0] := by decide +kernel
  have hregistered : (⟨"!a/?", none, 0, 1⟩ : Entry Nat) ∈ registrations [.add "a/b" 1,
      .add "!a/?/" 0, .setScope (some "u"), .add "*" 2] := List.mem_of_getElem? (i := 1) rfl
  exact universal_law (by decide) (by decide) (by decide) halone (by decide) (by decide)
    hregistered rfl rfl rfl "v" "b" []

/-- **`!` silences a pattern without marks.** A rule under it is found for no path, unless the path
begins with `!` itself. -/
theorem bare_silent {history : List (Registration ρ)} (hfree : NoTwoStars (registrations history))
    {pattern : List Char} (hbare : ¬Marked pattern) {path : List Char}
    (hpath : path ≠ '!' :: pattern) (uri name : String) (attrs : Attributes) :
    ∃ found : List (Entry ρ),
      (Matcher.replay (.extended {}) history).rulesFor? uri path name attrs =
        some (found.map (·.rule)) ∧ ∀ e ∈ found, e.pattern.toList ≠ '!' :: pattern := by
  obtain ⟨t, hentries, ht, hrules⟩ := exists_table history
  rw [← hentries] at hfree
  obtain ⟨found, -, hfound, -, -⟩ := mem_entriesFor? ht hfree uri path
  refine ⟨found, by rw [hrules, hfound]; rfl, fun e he hbang => ?_⟩
  exact hpath (path_eq_of_bare ht hfree hfound he hbang hbare)

/-- The name of an element finds its rule, and the same name behind `!` finds nothing. -/
theorem bang_loses_a_rule :
    (Matcher.replay (.extended {}) [.add "a" 0]).rulesFor? "" "a".toList "a" [] = some [0] ∧
      (Matcher.replay (.extended {}) [.add "!a" 0]).rulesFor? "" "a".toList "a" [] = some [] := by
  decide +kernel

end XmlBinding.Extended
