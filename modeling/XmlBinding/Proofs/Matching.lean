import XmlBinding.Proofs.Competition

/-!
# What an extended matcher answers

The rows with a leading star are scanned one by one. The heaviest of them wins if nothing else does,
and the universal ones among them are taken besides. Whatever was done to the matcher before, its
answer is the entries that the reference takes, each once, in the order of registration.
-/
namespace XmlBinding.Extended

open Pattern

variable {ρ : Type}

section Order

variable {t : Table ρ} {path : List Char} (ht : t.Registered checkExtended)
include ht

/-! ### The scanned rows -/

omit ht in
theorem covering?_eq {rows : List (Row ρ)} (covered : Row ρ → Bool)
    (h : ∀ row ∈ rows, isScanned row = true →
      row.shape.covers? (withoutBang row.key) path = some (covered row)) :
    covering? path rows = some (rows.filter fun row => isScanned row && covered row) := by
  induction rows with
  | nil => rfl
  | cons row rest ih =>
    have hrest := ih fun other hother => h other (List.mem_cons_of_mem _ hother)
    unfold covering?
    cases hscan : isScanned row with
    | false => rw [if_neg nofun, hrest, List.filter_cons_of_neg (by simp [hscan])]
    | true =>
      rw [if_pos rfl, h row List.mem_cons_self hscan, hrest]
      cases hcovered : covered row with
      | false => rw [List.filter_cons_of_neg (by simp [hcovered])]
      | true => rw [List.filter_cons_of_pos (by simp [hscan, hcovered])]

theorem form_of_row (hmarks : NoBareMarks t.entries) {row : Row ρ} (hrow : row ∈ t.rows)
    (hscan : isScanned row = true) : Form (withoutBang row.key) row.shape := by
  obtain ⟨e, he⟩ := ht.exists_mem_row hrow
  obtain ⟨hmem, hkey⟩ := (ht.mem_row hrow).mp he
  have hpattern := hmarks e hmem
  unfold Entry.segments at hpattern
  rw [hkey] at hpattern
  unfold isScanned at hscan
  rw [ht.shape_eq row hrow] at hscan ⊢
  exact .of_key hpattern.1 hpattern.2 hscan

/-- What is known of the rows that the scan leaves. -/
structure Scanned (t : Table ρ) (path : List Char) (scanned : List (Row ρ)) : Prop where
  eq : covering? path t.rows = some scanned
  sublist : scanned.Sublist t.rows
  competing : ∀ row ∈ t.rows, row.shape.universal = false →
    (row ∈ scanned ↔ CoversAnywhere (segments path) (segments (withoutBang row.key)))
  universal : ∀ row ∈ t.rows, row.shape.universal = true →
    (row ∈ scanned ↔
      isScanned row = true ∧ CoversAlways (segments path) (segments (withoutBang row.key)))

omit ht in
/-- A pattern that covers a path at any depth has a star in front. -/
theorem CoversAnywhere.leading {p : List (List Char)} {key : List Char}
    (h : CoversAnywhere p (segments key)) : (afterLeadingStar? key).isSome = true := by
  rw [afterLeadingStar?_isSome_iff]
  generalize hkey : segments key = own at h
  cases h with
  | ending hs _ => exact ⟨_, hs, rfl⟩
  | child _ _ => exact ⟨_, by simp, rfl⟩
  | through _ _ => exact ⟨_, by simp, rfl⟩

theorem isScanned_of_coversAnywhere {row : Row ρ} (hrow : row ∈ t.rows) {p : List (List Char)}
    (h : CoversAnywhere p (segments (withoutBang row.key))) : isScanned row = true := by
  unfold isScanned
  rw [ht.shape_eq row hrow, Bool.or_eq_true]
  exact Or.inl h.leading

/-- **The scan leaves the rows that cover the path.** -/
theorem exists_scanned (hpath : Unmarked path) (hmarks : NoBareMarks t.entries) :
    ∃ scanned, Scanned t path scanned := by
  have hspec : ∀ row ∈ t.rows, isScanned row = true → ∃ b,
      row.shape.covers? (withoutBang row.key) path = some b ∧
      (b = true ↔ CoversAlways (segments path) (segments (withoutBang row.key))) ∧
      (row.shape.universal = false →
        (b = true ↔ CoversAnywhere (segments path) (segments (withoutBang row.key)))) :=
    fun row hrow hscan => (form_of_row ht hmarks hrow hscan).covers?_spec hpath
  have heq := covering?_eq (fun row => (row.shape.covers? (withoutBang row.key) path).getD false)
    fun row hrow hscan => by
      obtain ⟨b, hb, -⟩ := hspec row hrow hscan
      rw [hb]
      rfl
  refine ⟨_, heq, List.filter_sublist, fun row hrow hown => ?_, fun row hrow _ => ?_⟩
  · rw [List.mem_filter, Bool.and_eq_true]
    constructor
    · rintro ⟨-, hscan, hcovered⟩
      obtain ⟨b, hb, -, hiff⟩ := hspec row hrow hscan
      rw [hb] at hcovered
      exact (hiff hown).mp hcovered
    · intro hcovers
      have hscan := isScanned_of_coversAnywhere ht hrow hcovers
      obtain ⟨b, hb, -, hiff⟩ := hspec row hrow hscan
      rw [hb]
      exact ⟨hrow, hscan, (hiff hown).mpr hcovers⟩
  · rw [List.mem_filter, Bool.and_eq_true]
    constructor
    · rintro ⟨-, hscan, hcovered⟩
      obtain ⟨b, hb, hiff, -⟩ := hspec row hrow hscan
      rw [hb] at hcovered
      exact ⟨hscan, hiff.mp hcovered⟩
    · rintro ⟨hscan, hcovers⟩
      obtain ⟨b, hb, hiff, -⟩ := hspec row hrow hscan
      rw [hb]
      exact ⟨hrow, hscan, hiff.mpr hcovers⟩

/-! ### The heaviest -/

theorem universal_iff {row : Row ρ} (hrow : row ∈ t.rows) :
    row.shape.universal = true ↔ row.key.head? = some '!' := by
  rw [ht.shape_eq row hrow]
  exact beq_iff_eq

section Scan

variable {scanned : List (Row ρ)} (hscanned : Scanned t path scanned)
include hscanned

/-- The rows that compete at any depth are those of the entries that do. -/
theorem mem_competing {row : Row ρ} :
    row ∈ scanned.filter (!·.shape.universal) ↔
      row ∈ t.rows ∧ row.key.head? ≠ some '!' ∧
        CoversAnywhere (segments path) (segments row.key) := by
  rw [List.mem_filter, Bool.not_eq_true']
  constructor
  · rintro ⟨hmem, hown⟩
    have hrow := hscanned.sublist.subset hmem
    have hhead : row.key.head? ≠ some '!' := fun h => by
      rw [(universal_iff ht hrow).mpr h] at hown
      cases hown
    have hcovers := (hscanned.competing row hrow hown).mp hmem
    rw [withoutBang_of_ne hhead] at hcovers
    exact ⟨hrow, hhead, hcovers⟩
  · rintro ⟨hrow, hhead, hcovers⟩
    have hown : row.shape.universal = false := by
      rw [Bool.eq_false_iff]
      exact fun h => hhead ((universal_iff ht hrow).mp h)
    refine ⟨(hscanned.competing row hrow hown).mpr ?_, hown⟩
    rwa [withoutBang_of_ne hhead]

theorem exists_competing {e : Entry ρ} (he : e ∈ t.entries) (hown : e.universal = false)
    (h : CoversAnywhere (segments path) e.segments) :
    ∃ row ∈ scanned.filter (!·.shape.universal), e ∈ row.entries := by
  rw [Entry.segments_of_competing hown] at h
  obtain ⟨row, hrow, hkey⟩ := List.mem_map.mp ((ht.mem_keys _).mpr ⟨e, he, rfl⟩)
  have hhead : row.key.head? ≠ some '!' := by
    rw [hkey]
    simpa [Entry.universal] using hown
  refine ⟨row, (mem_competing ht hscanned).mpr ⟨hrow, hhead, hkey ▸ h⟩, ?_⟩
  exact (ht.mem_row hrow).mpr ⟨he, hkey.symm⟩

theorem weight_of_competing (hpath : Unmarked path) (hmarks : NoBareMarks t.entries)
    {row : Row ρ} (hrow : row ∈ scanned.filter (!·.shape.universal)) {e : Entry ρ}
    (he : e ∈ row.entries) : e.weight = row.shape.weight row.key := by
  have hown : row.shape.universal = false := by simpa using (List.mem_filter.mp hrow).2
  obtain ⟨hmem, hhead, hcovers⟩ := (mem_competing ht hscanned).mp hrow
  have hbody := withoutBang_of_ne hhead
  have hform := form_of_row ht hmarks hmem
    (isScanned_of_coversAnywhere ht hmem (hbody.symm ▸ hcovers))
  rw [hbody] at hform
  rw [hform.weight_eq hpath hown hcovers, Entry.weight, ((ht.mem_row hmem).mp he).2]

/-- **The running maximum finds the winner at any depth, if the competition is not settled.** -/
theorem heaviest_spec (hpath : Unmarked path) (hmarks : NoBareMarks t.entries)
    (hfree : ¬Settled t.entries (segments path)) :
    ((scanned.filter (!·.shape.universal)).foldl heavier none = none ∧
        ∀ e ∈ t.entries, e.universal = false → ¬CoversAnywhere (segments path) e.segments) ∨
      ∃ row key, (scanned.filter (!·.shape.universal)).foldl heavier none = some row ∧
        Wins t.entries (segments path) key ∧ Under t key row.entries := by
  have hstep : ∀ b row : Row ρ, heavier (some b) row =
      if b.shape.weight b.key < row.shape.weight row.key then some row else some b :=
    fun _ _ => rfl
  have hfirst : ∀ row ∈ scanned.filter (!·.shape.universal), heavier none row = some row := by
    intro row hrow
    obtain ⟨hmem, hhead, hcovers⟩ := (mem_competing ht hscanned).mp hrow
    have hbody := withoutBang_of_ne hhead
    have hform := form_of_row ht hmarks hmem
      (isScanned_of_coversAnywhere ht hmem (hbody.symm ▸ hcovers))
    rw [hbody] at hform
    exact if_pos hform.weight_pos
  rcases foldl_firstBest _ hstep hfirst with ⟨hnil, hnone⟩ | ⟨row, hsome, hbest⟩
  · refine Or.inl ⟨hnone, fun e he hown hcovers => ?_⟩
    obtain ⟨row, hrow, -⟩ := exists_competing ht hscanned he hown hcovers
    rw [hnil] at hrow
    cases hrow
  · obtain ⟨hmem, hhead, hcovers⟩ := (mem_competing ht hscanned).mp hbest.mem
    have hunder := under_row ht hmem hhead
    obtain ⟨e, he, holdest⟩ := ht.exists_oldest hmem
    obtain ⟨hentry, hown, hsegments⟩ := (hunder e).mp he
    rw [← hsegments] at hunder hcovers
    have hweight := weight_of_competing ht hscanned hpath hmarks hbest.mem he
    refine Or.inr ⟨row, _, hsome, .anywhere hfree hentry hown hcovers ?_, hunder⟩
    intro f hf hfown hfcovers
    obtain ⟨other, hother, hfmem⟩ := exists_competing ht hscanned hf hfown hfcovers
    have hfweight := weight_of_competing ht hscanned hpath hmarks hother hfmem
    have hle := hbest.le hother
    rw [← hweight, ← hfweight] at hle
    rcases Nat.lt_or_eq_of_le hle with hlt | heq
    · exact Or.inl hlt
    · refine Or.inr ⟨heq, ?_⟩
      have hsub : (scanned.filter (!·.shape.universal)).Sublist t.rows :=
        List.filter_sublist.trans hscanned.sublist
      have hsorted := ht.byAge.sublist hsub
      rcases hbest.rel_of_eq hsorted hother (hfweight.symm.trans (heq.trans hweight)) with
        rfl | ⟨first, hfirstmem, hlt⟩
      · exact holdest f hfmem
      · exact Nat.le_of_lt (Nat.lt_of_le_of_lt (holdest first hfirstmem) (hlt f hfmem))

/-! ### The winner -/

omit hscanned in
theorem Under.wins {key : List (List Char)} {found : List (Entry ρ)} (hunder : Under t key found)
    (h : Wins t.entries (segments path) key) (e : Entry ρ) :
    e ∈ found ↔ e ∈ t.entries ∧ e.universal = false ∧
      Wins t.entries (segments path) e.segments := by
  rw [hunder e]
  refine and_congr_right fun _ => and_congr_right fun _ => ?_
  constructor
  · rintro rfl
    exact h
  · exact fun h' => h'.unique (fun _ he _ hf => ht.eq_of_order he hf) h

/-- **The registrations of the winner.** -/
theorem mem_winning (hpath : Unmarked path) (hmarks : NoBareMarks t.entries) (e : Entry ρ) :
    e ∈ winning t path scanned ↔ e ∈ t.entries ∧ e.universal = false ∧
      Wins t.entries (segments path) e.segments := by
  unfold winning
  rcases settled?_spec ht hpath with ⟨hnone, hfree⟩ | ⟨found, key, hsome, hwins, hunder⟩
  · rw [hnone]
    dsimp only
    rcases heaviest_spec ht hscanned hpath hmarks hfree with
      ⟨hlight, hnobody⟩ | ⟨row, key, hheavy, hwins, hunder⟩
    · rw [hlight]
      dsimp only
      have hunder : Under t [star] ((t.lookup? ['*']).getD []) :=
        under_lookup?_getD ht (by decide)
      rw [hunder e]
      refine and_congr_right fun he => and_congr_right fun hown => ?_
      constructor
      · intro h
        rw [h]
        exact .all hfree hnobody ⟨e, he, hown, h⟩
      · intro h
        generalize hkey : e.segments = own at h
        cases h with
        | exact h => exact absurd (Or.inl h) hfree
        | child _ h => exact absurd (Or.inr (Or.inl h)) hfree
        | within _ _ hs hbegins h _ => exact absurd (.of_within hs hbegins h) hfree
        | anywhere _ hf hfown h _ => exact absurd h (hnobody _ hf hfown)
        | all _ _ _ => rfl
    · rw [hheavy]
      exact hunder.wins ht hwins e
  · rw [hsome]
    exact hunder.wins ht hwins e

/-! ### The universal patterns -/

omit hscanned in
theorem mem_lookup?_bang {key : List Char} {e : Entry ρ} :
    e ∈ (t.lookup? ('!' :: key)).getD [] ↔
      e ∈ t.entries ∧ e.universal = true ∧ e.segments = segments key := by
  rw [ht.mem_lookup?_getD, Entry.pattern_eq_bang_iff]

omit hscanned in
/-- The universal pattern for the children of the enclosing element; a path of one segment has
none. -/
theorem mem_lookup?_parent {e : Entry ρ} :
    e ∈ (t.lookup? ('!' :: ((parent? path).getD [] ++ ['/', '?']))).getD [] ↔
      e ∈ t.entries ∧ e.universal = true ∧ (segments path).dropLast ≠ [] ∧
        e.segments = (segments path).dropLast ++ [question] := by
  rw [mem_lookup?_bang ht]
  refine and_congr_right fun he => and_congr_right fun _ => ?_
  cases hparent : parent? path with
  | none =>
    refine iff_of_false (fun hsegments => ?_) fun h => h.1 (dropLast_of_no_parent hparent)
    have hnonempty := segments_of_checked (ht.checked e he)
    change [] ∉ e.segments at hnonempty
    rw [hsegments] at hnonempty
    exact hnonempty List.mem_cons_self
  | some parent =>
    have hdrop := segments_of_parent? hparent
    rw [← hdrop, and_iff_right (segments_ne_nil parent)]
    change e.segments = segments (parent ++ ['/', '?']) ↔ _
    rw [segments_slash_mark parent (by decide)]
    rfl

theorem mem_scanned_universal {e : Entry ρ} :
    e ∈ (scanned.filter (·.shape.universal)).flatMap (·.entries) ↔
      e ∈ t.entries ∧ e.universal = true ∧
        (∃ row ∈ t.rows, row.key = e.pattern.toList ∧ isScanned row = true) ∧
        CoversAlways (segments path) e.segments := by
  rw [List.mem_flatMap]
  constructor
  · rintro ⟨row, hmem, he⟩
    obtain ⟨hmem, huniversal⟩ := List.mem_filter.mp hmem
    have hrow := hscanned.sublist.subset hmem
    obtain ⟨hentry, hkey⟩ := (ht.mem_row hrow).mp he
    obtain ⟨hscan, hcovers⟩ := (hscanned.universal row hrow huniversal).mp hmem
    have hhead := (universal_iff ht hrow).mp huniversal
    rw [← hkey] at hhead hcovers
    exact ⟨hentry, beq_iff_eq.mpr hhead, ⟨row, hrow, hkey.symm, hscan⟩, hcovers⟩
  · rintro ⟨hentry, huniversal, ⟨row, hrow, hkey, hscan⟩, hcovers⟩
    have hshape : row.shape.universal = true := by
      rw [universal_iff ht hrow, hkey]
      exact beq_iff_eq.mp huniversal
    have hmem : row ∈ scanned := by
      rw [hscanned.universal row hrow hshape, hkey]
      exact ⟨hscan, hcovers⟩
    exact ⟨row, List.mem_filter.mpr ⟨hmem, hshape⟩, (ht.mem_row hrow).mpr ⟨hentry, hkey.symm⟩⟩

/-- **The registrations under universal patterns that cover the path.** -/
theorem mem_universal (e : Entry ρ) :
    e ∈ universal t path scanned ↔
      e ∈ t.entries ∧ e.universal = true ∧ CoversAlways (segments path) e.segments := by
  unfold universal
  rw [List.mem_append, List.mem_append, mem_lookup?_bang ht, List.cons_append,
    mem_lookup?_parent ht, mem_scanned_universal ht hscanned, segments_of_no_slash (by decide)]
  constructor
  · rintro ((⟨he, hown, h⟩ | ⟨he, hown, hne, h⟩) | ⟨he, hown, -, h⟩)
    · exact ⟨he, hown, h ▸ .all⟩
    · exact ⟨he, hown, h ▸ .child hne⟩
    · exact ⟨he, hown, h⟩
  · rintro ⟨he, hown, h⟩
    obtain ⟨row, hrow, hkey⟩ := List.mem_map.mp ((ht.mem_keys _).mpr ⟨e, he, rfl⟩)
    have hcovers := h
    generalize hsegments : e.segments = own at h
    cases h with
    | all => exact Or.inl (Or.inl ⟨he, hown, rfl⟩)
    | child hne => exact Or.inl (Or.inr ⟨he, hown, hne, rfl⟩)
    | anywhere hanywhere =>
      refine Or.inr ⟨he, hown, ⟨row, hrow, hkey, ?_⟩, hsegments ▸ hcovers⟩
      refine isScanned_of_coversAnywhere (p := segments path) ht hrow ?_
      rw [hkey]
      change CoversAnywhere _ e.segments
      rw [hsegments]
      exact hanywhere
    | within hs hbegins =>
      refine Or.inr ⟨he, hown, ⟨row, hrow, hkey, ?_⟩, hsegments ▸ hcovers⟩
      have huniversal : row.shape.universal = true := by
        rw [universal_iff ht hrow, hkey]
        exact beq_iff_eq.mp hown
      have htrailing : row.shape.anyDescendant = true := by
        rw [ht.shape_eq row hrow, hkey]
        exact (endsInMark_iff (by decide)).mpr ⟨_, hs, hsegments⟩
      unfold isScanned
      rw [huniversal, htrailing, Bool.and_self, Bool.or_true]

end Scan

/-! ### In order, without repetitions -/

omit ht in
theorem dropRepeated_subset {es : List (Entry ρ)} {e : Entry ρ} (he : e ∈ dropRepeated es) :
    e ∈ es := by
  fun_induction dropRepeated es with
  | case1 => exact he
  | case2 => exact he
  | case3 first second rest _ ih =>
    rcases List.mem_cons.mp (ih he) with rfl | hrest
    · exact List.mem_cons_self
    · exact List.mem_cons_of_mem _ (List.mem_cons_of_mem _ hrest)
  | case4 first second rest _ ih =>
    rcases List.mem_cons.mp he with rfl | hrest
    · exact List.mem_cons_self
    · exact List.mem_cons_of_mem _ (ih hrest)

omit ht in
/-- Of a list in order what is left is strictly in order. -/
theorem pairwise_dropRepeated {es : List (Entry ρ)} (h : es.Pairwise (·.order ≤ ·.order)) :
    (dropRepeated es).Pairwise (·.order < ·.order) := by
  fun_induction dropRepeated es with
  | case1 => exact .nil
  | case2 e => exact List.pairwise_singleton _ e
  | case3 first second rest _ ih =>
    obtain ⟨hfirst, hsecond⟩ := List.pairwise_cons.mp h
    refine ih (List.pairwise_cons.mpr ⟨fun e he => ?_, (List.pairwise_cons.mp hsecond).2⟩)
    exact hfirst e (List.mem_cons_of_mem _ he)
  | case4 first second rest hne ih =>
    obtain ⟨hfirst, hsecond⟩ := List.pairwise_cons.mp h
    refine List.pairwise_cons.mpr ⟨fun e he => ?_, ih hsecond⟩
    have hle := hfirst second List.mem_cons_self
    have hlater : second.order ≤ e.order := by
      rcases List.mem_cons.mp (dropRepeated_subset he) with rfl | hrest
      · exact Nat.le_refl _
      · exact (List.pairwise_cons.mp hsecond).1 e hrest
    omega

/-- Nothing is lost, since two entries in the same place are the same. -/
theorem mem_dropRepeated {es : List (Entry ρ)} (hsub : ∀ e ∈ es, e ∈ t.entries) (e : Entry ρ) :
    e ∈ dropRepeated es ↔ e ∈ es := by
  refine ⟨dropRepeated_subset, fun he => ?_⟩
  fun_induction dropRepeated es with
  | case1 => exact he
  | case2 => exact he
  | case3 first second rest horder ih =>
    have heq : first = second := ht.eq_of_order (hsub first List.mem_cons_self)
      (hsub second (List.mem_cons_of_mem _ List.mem_cons_self)) horder
    subst heq
    refine ih (fun f hf => hsub f (List.mem_cons_of_mem _ hf)) ?_
    rcases List.mem_cons.mp he with rfl | hrest
    · exact List.mem_cons_self
    · exact hrest
  | case4 first second rest _ ih =>
    rcases List.mem_cons.mp he with rfl | hrest
    · exact List.mem_cons_self
    · exact List.mem_cons_of_mem _ (ih (fun f hf => hsub f (List.mem_cons_of_mem _ hf)) hrest)

/-- The answer of a table of checked registrations. -/
theorem entriesFor?_spec (hpath : Unmarked path) (hmarks : NoBareMarks t.entries) (uri : String) :
    ∃ found, entriesFor? t uri path = some found ∧ found.Pairwise (·.order < ·.order) ∧
      ∀ e, e ∈ found ↔
        e ∈ t.entries ∧ e.accepts uri = true ∧ Taken t.entries (segments path) e := by
  obtain ⟨scanned, hscanned⟩ := exists_scanned ht hpath hmarks
  unfold entriesFor?
  rw [hscanned.eq, Option.map_some]
  set found := (winning t path scanned ++ universal t path scanned).filter (·.accepts uri)
    with hfound
  have hmem : ∀ e, e ∈ found ↔
      e ∈ t.entries ∧ e.accepts uri = true ∧ Taken t.entries (segments path) e := by
    intro e
    rw [hfound, List.mem_filter, List.mem_append, mem_winning ht hscanned hpath hmarks,
      mem_universal ht hscanned]
    unfold Taken
    tauto
  have hsorted : (found.mergeSort fun a b => a.order ≤ b.order).Pairwise (·.order ≤ ·.order) := by
    have h : (found.mergeSort fun a b => a.order ≤ b.order).Pairwise
        fun a b => decide (a.order ≤ b.order) = true := by
      refine List.pairwise_mergeSort (fun a b c hab hbc => ?_) (fun a b => ?_) found
      · exact decide_eq_true (Nat.le_trans (of_decide_eq_true hab) (of_decide_eq_true hbc))
      · simpa using Nat.le_total a.order b.order
    exact h.imp fun hab => of_decide_eq_true hab
  refine ⟨_, rfl, pairwise_dropRepeated hsorted, fun e => ?_⟩
  rw [mem_dropRepeated ht, List.mem_mergeSort, hmem]
  intro f hf
  exact ((hmem f).mp (List.mem_mergeSort.mp hf)).1

end Order

theorem holds_extended : Table.Holds (ρ := ρ) checkExtended .extended :=
  ⟨fun _ _ _ => rfl, fun _ _ => rfl, fun _ => rfl⟩

theorem record_eq_record : record (ρ := ρ) = Table.record checkExtended := by
  funext ⟨scope, es⟩ done
  cases done <;> rfl

/-- Whatever is done to an extended matcher, its table lists the registrations that are left. -/
theorem replay_extended {t : Table ρ} (ht : t.Registered checkExtended)
    (history : List (Registration ρ)) :
    ∃ t' : Table ρ, Matcher.replay (.extended t) history = .extended t' ∧
      history.foldl record (t.scope, t.entries) = (t'.scope, t'.entries) ∧
      t'.Registered checkExtended := by
  rw [record_eq_record]
  exact holds_extended.replay ht history

/-- **An extended matcher answers with the entries that the reference takes.** -/
theorem matching_law (history : List (Registration ρ)) (uri : String) {path : List Char}
    (name : String) (attrs : Attributes) (hpath : Unmarked path)
    (hmarks : NoBareMarks (registrations history)) :
    ∃ found : List (Entry ρ),
      (Matcher.replay (.extended {}) history).rulesFor? uri path name attrs =
          some (found.map (·.rule)) ∧
        found.Pairwise (·.order < ·.order) ∧
        ∀ e, e ∈ found ↔ e ∈ registrations history ∧ e.accepts uri = true ∧
          Taken (registrations history) (segments path) e := by
  obtain ⟨t, hreplay, hrecord, ht⟩ :=
    replay_extended (Table.registered_empty (ρ := ρ) none) history
  have hentries : registrations history = t.entries := congrArg Prod.snd hrecord
  rw [hentries] at hmarks ⊢
  obtain ⟨found, hfound, hsorted, hmem⟩ := entriesFor?_spec ht hpath hmarks uri
  refine ⟨found, ?_, hsorted, hmem⟩
  rw [hreplay]
  change rulesFor? t uri path = _
  rw [rulesFor?, hfound]
  rfl

/-- A refused pattern, a namespace, a heaviest pattern and a universal one. -/
theorem matching_law_of_six_registrations :
    let history : List (Registration Nat) :=
      [.add "*" 0, .add "*/c" 1, .setScope (some "u"), .add "*/b/?" 2, .add "a//b" 3,
        .add "!a/*" 4]
    Unmarked "a/b/c".toList ∧ NoBareMarks (registrations history) ∧
      ∃ found : List (Entry Nat),
        (Matcher.replay (.extended {}) history).rulesFor? "u" "a/b/c".toList "c" [] =
            some (found.map (·.rule)) ∧
          found.Pairwise (·.order < ·.order) ∧
          ∀ e, e ∈ found ↔ e ∈ registrations history ∧ e.accepts "u" = true ∧
            Taken (registrations history) (segments "a/b/c".toList) e :=
  ⟨by decide, by decide, matching_law _ "u" "c" [] (by decide) (by decide)⟩

end XmlBinding.Extended
