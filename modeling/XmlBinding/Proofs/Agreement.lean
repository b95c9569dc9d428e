import XmlBinding.Proofs.LongestSuffix
import XmlBinding.Proofs.Universality

/-!
# Where the two matchers agree

The larger grammar contains the smaller one. Given patterns of the smaller grammar without `!` and
without a `?` segment, both matchers keep the same table, and what one finds by a lookup and the
longest `*/suffix`, the other finds by four lookups, a search for the nearest ancestor, a running
maximum of weights and a sort. The weights leave out the star that every scanned pattern has here,
so that the heaviest pattern is the longest. Paths may contain any characters.
-/
namespace XmlBinding

open Pattern

variable {ρ : Type}

/-- Register rules one after the other, up to the first pattern that is refused. -/
def Matcher.registerAll (m : Matcher ρ) (regs : List (String × ρ)) :
    Except PatternError (Matcher ρ) :=
  regs.foldlM (fun m r => m.add r.1 r.2) m

/-- The better of two rows is one of them. -/
theorem Table.longer_eq_some {best : Option (Row ρ)} {row b : Row ρ}
    (h : Table.longer best row = some b) : best = some b ∨ row = b := by
  unfold Table.longer at h
  split at h
  · exact Or.inr (Option.some.inj h)
  · split at h
    · exact Or.inr (Option.some.inj h)
    · exact Or.inl h

namespace Extended

/-- A pattern that has at most a leading `*/` as a mark. -/
structure Simple (key : List Char) : Prop where
  noBang : '!' ∉ key
  noQuestion : question ∉ segments key
  noStar : star ∉ (segments key).tail
  notAll : key ≠ ['*']

variable {key path : List Char}

/-! ### The grammars -/

/-- Dropping a slash at the end takes away an empty segment, and nothing else. -/
theorem dropFinalSlash_cases (cs : List Char) :
    dropFinalSlash cs = cs ∨ cs = dropFinalSlash cs ++ '/' :: [] := by
  unfold dropFinalSlash
  split
  · next h =>
    right
    obtain ⟨front, hfront⟩ := List.getLast?_eq_some_iff.mp h.2
    rw [hfront, List.dropLast_concat]
  · exact Or.inl rfl

theorem not_mem_dropFinalSlash {cs : List Char} {c : Char} (h : c ∉ cs) :
    c ∉ dropFinalSlash cs := by
  intro hmem
  apply h
  rcases dropFinalSlash_cases cs with heq | heq
  · rw [← heq]
    exact hmem
  · rw [heq]
    exact List.mem_append_left _ hmem

theorem not_mem_segments_dropFinalSlash {cs s : List Char} (h : s ∉ segments cs) :
    s ∉ segments (dropFinalSlash cs) := by
  intro hmem
  apply h
  rcases dropFinalSlash_cases cs with heq | heq
  · rw [← heq]
    exact hmem
  · rw [heq, segments_append_slash]
    exact List.mem_append_left _ hmem

/-- What the smaller grammar asks for: something between all slashes, and a star only in front. -/
theorem checkPlain_eq_ok (h : checkPlain key = .ok ()) :
    checkSegments key = .ok () ∧ star ∉ (segments key).tail ∧ key ≠ ['*'] := by
  unfold checkPlain at h
  cases hsegments : checkSegments key with
  | error cause => simp [hsegments, bind, Except.bind] at h
  | ok u =>
    have hstars : star ∉ segments ((afterLeadingStar? key).getD key) := by
      intro hmem
      have hany : (segments ((afterLeadingStar? key).getD key)).any (· == ['*']) = true :=
        List.any_eq_true.mpr ⟨star, hmem, by decide⟩
      simp [hsegments, hany, bind, Except.bind, throw, throwThe, MonadExceptOf.throw] at h
    refine ⟨rfl, ?_, ?_⟩
    · cases hleading : afterLeadingStar? key with
      | none =>
        rw [hleading] at hstars
        exact fun hmem => hstars (List.mem_of_mem_tail hmem)
      | some rest =>
        rw [hleading] at hstars
        rw [Plain.afterLeadingStar?_eq_some hleading, segments_star_slash]
        exact hstars
    · rintro rfl
      exact hstars (by decide)

/-- Without `?` and with stars only in front no mark is out of place. -/
theorem firstFault?_eq_none {ss : List (List Char)} {isFirst : Bool} (hquestion : question ∉ ss)
    (hstar : star ∉ if isFirst then ss.tail else ss) : firstFault? isFirst ss = none := by
  induction ss generalizing isFirst with
  | nil => rfl
  | cons s rest ih =>
    rw [List.mem_cons, not_or] at hquestion
    have hne : s ≠ ['?'] := Ne.symm hquestion.1
    have hrest : firstFault? false rest = none := by
      apply ih hquestion.2
      cases isFirst with
      | true => simpa using hstar
      | false =>
        rw [if_neg nofun, List.mem_cons, not_or] at hstar
        rw [if_neg nofun]
        exact hstar.2
    have hmark : markFault? isFirst rest.isEmpty s = none := by
      unfold markFault?
      rw [if_neg fun h => hne h.1]
      apply if_neg
      rintro ⟨rfl, hfirst, -⟩
      cases isFirst with
      | true => cases hfirst
      | false =>
        rw [if_neg nofun] at hstar
        exact hstar List.mem_cons_self
    rw [firstFault?, hmark]
    exact hrest

/-- **The larger grammar accepts a simple pattern that the smaller one accepts.** -/
theorem Simple.checkExtended_eq_ok (h : Simple key) (hsegments : checkSegments key = .ok ()) :
    checkExtended key = .ok () := by
  have hhead : key.head? ≠ some '!' := fun hbang => h.noBang (List.mem_of_head? hbang)
  have hne : key.isEmpty = false := by
    cases key with
    | nil => cases hsegments
    | cons _ _ => rfl
  have hbang : key.contains '!' = false := by simpa using h.noBang
  have hfault : firstFault? true (segments key) = none :=
    firstFault?_eq_none h.noQuestion (by simpa using h.noStar)
  unfold checkExtended
  simp only [withoutBang_of_ne hhead, hne, hbang, hsegments, hfault, ne_eq, h.notAll,
    not_false_eq_true, bind, Except.bind, if_true]
  rfl

/-! ### The shape of a simple pattern -/

theorem Simple.last_ne (h : Simple key) {m : Char} (hm : [m] = star ∨ [m] = question)
    (a : List Char) : key ≠ a ++ ['/', m] := by
  rintro rfl
  have hslash : m ≠ '/' := by
    rintro rfl
    rcases hm with hm | hm <;> exact absurd hm (by decide)
  have hsegments : segments (a ++ ['/', m]) = segments a ++ [[m]] := segments_slash_mark a hslash
  rcases hm with hm | hm
  · apply h.noStar
    rw [hsegments, List.tail_append_of_ne_nil (segments_ne_nil a), hm]
    exact List.mem_append_right _ (List.mem_singleton.mpr rfl)
  · apply h.noQuestion
    rw [hsegments, hm]
    exact List.mem_append_right _ (List.mem_singleton.mpr rfl)

theorem Simple.shape_eq (h : Simple key) :
    Shape.of key = ⟨false, (afterLeadingStar? key).isSome, false, false⟩ := by
  have hhead : key.head? ≠ some '!' := fun hbang => h.noBang (List.mem_of_head? hbang)
  have hdescendant : (Shape.of key).anyDescendant = false := by
    rw [Bool.eq_false_iff, ne_eq, anyDescendant_iff]
    rintro ⟨a, ha⟩
    exact h.last_ne (Or.inl rfl) a ha
  have hchild : (Shape.of key).oneChild = false := by
    rw [Bool.eq_false_iff, ne_eq, oneChild_iff]
    rintro ⟨a, ha⟩
    exact h.last_ne (Or.inr rfl) a ha
  have hbang : (Shape.of key).universal = false := by
    change (key.head? == some '!') = false
    simpa using hhead
  have hleading : (Shape.of key).anyAncestor = (afterLeadingStar? key).isSome := by
    change (afterLeadingStar? (withoutBang key)).isSome = _
    rw [withoutBang_of_ne hhead]
  calc Shape.of key
      = ⟨(Shape.of key).universal, (Shape.of key).anyAncestor, (Shape.of key).anyDescendant,
          (Shape.of key).oneChild⟩ := rfl
    _ = ⟨false, (afterLeadingStar? key).isSome, false, false⟩ := by
        rw [hbang, hleading, hdescendant, hchild]

/-! ### One table for both -/

/-- A table of simple patterns without namespaces. -/
structure Shared (t : Table ρ) : Prop where
  registered : t.Registered checkPlain
  unscoped : t.scope = none
  everywhere : ∀ e ∈ t.entries, e.scope = none
  simple : ∀ e ∈ t.entries, Simple e.pattern.toList

theorem shared_empty : Shared ({} : Table ρ) where
  registered := Table.registered_empty none
  unscoped := rfl
  everywhere := nofun
  simple := nofun

/-- A pattern without `!` and without a `?` segment, as it is written in a registration. -/
def Common (pattern : String) : Prop :=
  '!' ∉ pattern.toList ∧ question ∉ segments pattern.toList

instance (pattern : String) : Decidable (Common pattern) := inferInstanceAs (Decidable (_ ∧ _))

/-- **What a plain matcher registers, the other one registers in the same table.** -/
theorem Shared.add {t t' : Table ρ} (h : Shared t) {pattern : String} {rule : ρ}
    (hpattern : Common pattern) (hadd : Plain.add t pattern rule = .ok t') :
    Extended.add t pattern rule = .ok t' ∧ Shared t' := by
  set own := dropFinalSlash pattern.toList with hown
  cases hcheck : checkPlain own with
  | error cause => simp [Plain.add, Table.add, ← hown, hcheck, bind, Except.bind] at hadd
  | ok u =>
    obtain ⟨hsegments, hstar, hall⟩ := checkPlain_eq_ok hcheck
    have hsimple : Simple own :=
      ⟨not_mem_dropFinalSlash hpattern.1, not_mem_segments_dropFinalSlash hpattern.2, hstar, hall⟩
    have ht' : t.register own rule = t' := by
      simpa [Plain.add, Table.add, ← hown, hcheck, bind, Except.bind, pure, Except.pure] using hadd
    have hextended : Extended.add t pattern rule = .ok (t.register own rule) := by
      simp [Extended.add, Table.add, ← hown, hsimple.checkExtended_eq_ok hsegments, bind,
        Except.bind, pure, Except.pure]
    have hentries : (t.register own rule).entries =
        t.entries ++ [⟨String.ofList own, t.scope, rule, t.entries.length⟩] := rfl
    rw [← ht']
    refine ⟨hextended, h.registered.register hcheck rule, h.unscoped, ?_, ?_⟩
    · rw [hentries, List.forall_mem_append, List.forall_mem_singleton]
      exact ⟨h.everywhere, h.unscoped⟩
    · rw [hentries, List.forall_mem_append, List.forall_mem_singleton]
      refine ⟨h.simple, ?_⟩
      change Simple (String.ofList own).toList
      rw [String.toList_ofList]
      exact hsimple

/-- A whole sequence of registrations. -/
theorem Shared.registerAll {t : Table ρ} (h : Shared t) {regs : List (String × ρ)}
    {m : Matcher ρ} (hregs : ∀ r ∈ regs, Common r.1)
    (hall : Matcher.registerAll (.plain t) regs = .ok m) :
    ∃ t', m = .plain t' ∧ Matcher.registerAll (.extended t) regs = .ok (.extended t') ∧
      Shared t' := by
  induction regs generalizing t with
  | nil =>
    obtain rfl := Except.ok.inj hall
    exact ⟨t, rfl, rfl, h⟩
  | cons r rest ih =>
    change ((Plain.add t r.1 r.2).map Matcher.plain >>= fun m =>
      Matcher.registerAll m rest) = _ at hall
    cases hadd : Plain.add t r.1 r.2 with
    | error cause =>
      rw [hadd] at hall
      cases hall
    | ok t₁ =>
      obtain ⟨hextended, h₁⟩ := h.add (hregs r List.mem_cons_self) hadd
      rw [hadd] at hall
      obtain ⟨t', hm, hrest, h'⟩ :=
        ih h₁ (fun other hother => hregs other (List.mem_cons_of_mem _ hother)) hall
      refine ⟨t', hm, ?_, h'⟩
      change ((Extended.add t r.1 r.2).map Matcher.extended >>= fun m =>
        Matcher.registerAll m rest) = _
      rw [hextended]
      exact hrest

/-! ### One answer of both -/

/-- The entries of the exact path, or else those of the longest `*/suffix` that covers it. -/
def chosen (t : Table ρ) (path : List Char) : List (Entry ρ) :=
  match t.lookup? path with
  | some found => found
  | none => ((t.longest? (Plain.covers path)).map (·.entries)).getD []

section Answer

variable {t : Table ρ} (h : Shared t)
include h

theorem simple_row {row : Row ρ} (hrow : row ∈ t.rows) : Simple row.key := by
  obtain ⟨e, he⟩ := h.registered.exists_mem_row hrow
  obtain ⟨hmem, hkey⟩ := (h.registered.mem_row hrow).mp he
  rw [← hkey]
  exact h.simple e hmem

theorem shape_row {row : Row ρ} (hrow : row ∈ t.rows) :
    row.shape = ⟨false, (afterLeadingStar? row.key).isSome, false, false⟩ := by
  rw [h.registered.shape_eq row hrow]
  exact (simple_row h hrow).shape_eq

/-- No pattern that is not simple has registrations. -/
theorem lookup?_of_not_simple (hkey : ¬Simple key) : t.lookup? key = none := by
  rw [h.registered.lookup?_eq_none]
  rintro ⟨e, he, rfl⟩
  exact hkey (h.simple e he)

/-- The scan leaves the rows that a plain matcher compares. -/
theorem covering?_eq_covers :
    covering? path t.rows = some (t.rows.filter (Plain.covers path)) := by
  rw [covering?_eq (Plain.covers path)]
  · congr 1
    refine List.filter_congr fun row hrow => ?_
    unfold isScanned Plain.covers
    rw [shape_row h hrow]
    cases afterLeadingStar? row.key <;> simp
  · intro row hrow hscan
    have hhead : row.key.head? ≠ some '!' := fun hbang =>
      (simple_row h hrow).noBang (List.mem_of_head? hbang)
    unfold isScanned at hscan
    rw [shape_row h hrow] at hscan ⊢
    cases hleading : afterLeadingStar? row.key with
    | none => simp [hleading] at hscan
    | some suffix =>
      have hkey := Plain.afterLeadingStar?_eq_some hleading
      unfold Shape.covers? Plain.covers
      rw [withoutBang_of_ne hhead, hleading, hkey]
      simp

/-- Only the exact path settles the competition: there are no other marks. -/
theorem settled?_eq_lookup? : settled? t path = t.lookup? path := by
  unfold settled?
  cases t.lookup? path with
  | some found => rfl
  | none =>
    cases parent? path with
    | none => rfl
    | some parent =>
      have hchild : t.lookup? (parent ++ ['/', '?']) = none :=
        lookup?_of_not_simple h fun hs => hs.last_ne (Or.inr rfl) parent rfl
      have hnearest : t.longest? (leadsThrough path) = none := by
        have hnone : t.rows.filter (leadsThrough path) = [] := by
          rw [List.filter_eq_nil_iff]
          intro row hrow
          unfold leadsThrough
          rw [shape_row h hrow]
          simp
        unfold Table.longest?
        rw [hnone]
        rfl
      simp only [hchild, hnearest, Option.map_none]

/-- A pattern with a leading star weighs one byte less than it is long. -/
theorem weight_of_covers {row : Row ρ} (hrow : row ∈ t.rows.filter (Plain.covers path)) :
    row.shape.weight row.key + 1 = Text.byteLength row.key ∧ 0 < row.shape.weight row.key := by
  obtain ⟨hrow, hcovers⟩ := List.mem_filter.mp hrow
  unfold Plain.covers at hcovers
  cases hleading : afterLeadingStar? row.key with
  | none => simp [hleading] at hcovers
  | some suffix =>
    have hlength : Text.byteLength row.key = 1 + (1 + Text.byteLength suffix) := by
      rw [Plain.afterLeadingStar?_eq_some hleading]
      rfl
    rw [shape_row h hrow, hleading]
    simp only [Shape.weight, Option.isSome_some, if_true, Bool.or_self]
    rw [if_neg Bool.false_ne_true]
    omega

/-- Of two covering patterns the heavier one is the longer one. -/
theorem heavier_eq_longer {best : Option (Row ρ)} {row : Row ρ}
    (hbest : ∀ b, best = some b → b ∈ t.rows.filter (Plain.covers path))
    (hrow : row ∈ t.rows.filter (Plain.covers path)) :
    heavier best row = Table.longer best row := by
  have hweight := weight_of_covers h hrow
  cases best with
  | none => exact if_pos hweight.2
  | some b =>
    have hown := weight_of_covers h (hbest b rfl)
    change (if b.shape.weight b.key < row.shape.weight row.key then some row else some b) =
      if Text.byteLength b.key < Text.byteLength row.key then some row else some b
    by_cases hlt : Text.byteLength b.key < Text.byteLength row.key
    · rw [if_pos hlt, if_pos (by omega)]
    · rw [if_neg hlt, if_neg (by omega)]

/-- The running maximum of weights is the running maximum of lengths. -/
theorem foldl_heavier {rows : List (Row ρ)} {best : Option (Row ρ)}
    (hrows : ∀ row ∈ rows, row ∈ t.rows.filter (Plain.covers path))
    (hbest : ∀ b, best = some b → b ∈ t.rows.filter (Plain.covers path)) :
    rows.foldl heavier best = rows.foldl Table.longer best := by
  induction rows generalizing best with
  | nil => rfl
  | cons row rest ih =>
    have hrow := hrows row List.mem_cons_self
    rw [List.foldl_cons, List.foldl_cons, heavier_eq_longer h hbest hrow]
    apply ih fun other hother => hrows other (List.mem_cons_of_mem _ hother)
    intro b hb
    rcases Table.longer_eq_some hb with hold | rfl
    · exact hbest b hold
    · exact hrow

theorem winning_eq_chosen :
    winning t path (t.rows.filter (Plain.covers path)) = chosen t path := by
  have hcompeting : (t.rows.filter (Plain.covers path)).filter (!·.shape.universal) =
      t.rows.filter (Plain.covers path) := by
    rw [List.filter_eq_self]
    intro row hrow
    rw [shape_row h (List.mem_of_mem_filter hrow)]
    rfl
  have hfold : (t.rows.filter (Plain.covers path)).foldl heavier none =
      t.longest? (Plain.covers path) :=
    foldl_heavier h (fun _ hrow => hrow) nofun
  unfold winning chosen
  rw [settled?_eq_lookup? h, hcompeting, hfold, lookup?_of_not_simple h fun hs => hs.notAll rfl]
  cases t.lookup? path with
  | some found => rfl
  | none => cases t.longest? (Plain.covers path) <;> rfl

theorem universal_eq_nil : universal t path (t.rows.filter (Plain.covers path)) = [] := by
  have hbang : ∀ key : List Char, t.lookup? ('!' :: key) = none := fun key =>
    lookup?_of_not_simple h fun hs => hs.noBang List.mem_cons_self
  have hscanned : (t.rows.filter (Plain.covers path)).filter (·.shape.universal) = [] := by
    rw [List.filter_eq_nil_iff]
    intro row hrow
    rw [shape_row h (List.mem_of_mem_filter hrow)]
    exact nofun
  unfold universal
  rw [hbang, List.cons_append, hbang, hscanned]
  rfl

omit h in
theorem chosen_cases (t : Table ρ) (path : List Char) :
    chosen t path = [] ∨ ∃ row ∈ t.rows, chosen t path = row.entries := by
  unfold chosen
  cases hlookup : t.lookup? path with
  | some found =>
    obtain ⟨row, hrow, -, hentries⟩ := Table.mem_find? hlookup
    exact Or.inr ⟨row, hrow, hentries.symm⟩
  | none =>
    cases hlongest : t.longest? (Plain.covers path) with
    | none => exact Or.inl rfl
    | some row => exact Or.inr ⟨row, (mem_of_longest? hlongest).1, rfl⟩

/-- Every entry of a row applies in every namespace. -/
theorem filter_accepts_row (uri : String) {row : Row ρ} (hrow : row ∈ t.rows) :
    row.entries.filter (·.accepts uri) = row.entries := by
  rw [List.filter_eq_self]
  intro e he
  have hmem := ((h.registered.mem_row hrow).mp he).1
  exact Entry.accepts_iff.mpr (Or.inl (h.everywhere e hmem))

/-- What is chosen stands in the order of registration and applies in every namespace. -/
theorem chosen_in_order (path : List Char) (uri : String) :
    (chosen t path).Pairwise (·.order < ·.order) ∧ (chosen t path).filter (·.accepts uri) =
      chosen t path := by
  rcases chosen_cases t path with hnil | ⟨row, hrow, hentries⟩
  · rw [hnil]
    exact ⟨.nil, rfl⟩
  · rw [hentries]
    refine ⟨?_, filter_accepts_row h uri hrow⟩
    rw [h.registered.entries_eq row hrow]
    exact h.registered.pairwise_order.filter _

omit h in
theorem dropRepeated_eq_self {es : List (Entry ρ)} (hes : es.Pairwise (·.order < ·.order)) :
    dropRepeated es = es := by
  fun_induction dropRepeated es with
  | case1 => rfl
  | case2 => rfl
  | case3 first second rest heq _ =>
    have hlt := (List.pairwise_cons.mp hes).1 second List.mem_cons_self
    omega
  | case4 first second rest _ ih => rw [ih (List.pairwise_cons.mp hes).2]

/-- The sort and the search for repetitions leave what is chosen as it is. -/
theorem extended_rulesFor?_eq (uri : String) (path : List Char) :
    Extended.rulesFor? t uri path = some ((chosen t path).map (·.rule)) := by
  obtain ⟨hordered, haccepted⟩ := chosen_in_order h path uri
  have hsorted : ((chosen t path).mergeSort fun a b => a.order ≤ b.order) = chosen t path := by
    apply List.mergeSort_of_pairwise
    exact hordered.imp fun hab => decide_eq_true (Nat.le_of_lt hab)
  unfold Extended.rulesFor? entriesFor?
  rw [covering?_eq_covers h]
  simp only [Option.map_some]
  rw [winning_eq_chosen h, universal_eq_nil h, List.append_nil, haccepted, hsorted,
    dropRepeated_eq_self hordered]

/-- Where every entry applies, a plain matcher goes behind the exact path only if it is not
registered. -/
theorem plain_rulesFor_eq (uri : String) (path : List Char) :
    Plain.rulesFor t uri path = (chosen t path).map (·.rule) := by
  have haccepted : ∀ row ∈ t.rows, Plain.accepted uri row.entries = row.entries.map (·.rule) := by
    intro row hrow
    unfold Plain.accepted
    rw [filter_accepts_row h uri hrow]
  unfold Plain.rulesFor chosen
  cases hlookup : t.lookup? path with
  | some found =>
    obtain ⟨row, hrow, -, rfl⟩ := Table.mem_find? hlookup
    obtain ⟨e, he⟩ := h.registered.exists_mem_row hrow
    obtain ⟨first, rest, hcons⟩ := List.exists_cons_of_ne_nil (List.ne_nil_of_mem he)
    rw [Option.getD_some, haccepted row hrow, hcons]
    rfl
  | none =>
    cases hlongest : t.longest? (Plain.covers path) with
    | none => rfl
    | some row => exact haccepted row (mem_of_longest? hlongest).1

end Answer

/-- **On patterns of the smaller grammar without `!` and `?` both matchers are the same.** -/
theorem agreement_law {regs : List (String × ρ)} {m : Matcher ρ}
    (hplain : Matcher.registerAll (.plain {}) regs = .ok m) (hregs : ∀ r ∈ regs, Common r.1) :
    ∃ m', Matcher.registerAll (.extended {}) regs = .ok m' ∧ m'.rules = m.rules ∧
      ∀ (uri : String) (path : List Char) (name : String) (attrs : Attributes),
        m'.rulesFor? uri path name attrs = m.rulesFor? uri path name attrs := by
  obtain ⟨t, rfl, hextended, ht⟩ := shared_empty.registerAll hregs hplain
  refine ⟨.extended t, hextended, rfl, fun uri path name attrs => ?_⟩
  change Extended.rulesFor? t uri path = some (Plain.rulesFor t uri path)
  rw [extended_rulesFor?_eq ht, plain_rulesFor_eq ht]

/-- An exact path with two rules and two suffixes, one of them with a slash at the end. -/
def fourRules : List (String × Nat) := [("a/b", 0), ("*/b", 1), ("*/a/b/", 2), ("a/b", 3)]

theorem agreement_law_of_four_rules :
    ∃ m m' : Matcher Nat, Matcher.registerAll (.plain {}) fourRules = .ok m ∧
      (∀ r ∈ fourRules, Common r.1) ∧
      Matcher.registerAll (.extended {}) fourRules = .ok m' ∧ m'.rules = m.rules ∧
      ∀ (uri : String) (path : List Char) (name : String) (attrs : Attributes),
        m'.rulesFor? uri path name attrs = m.rulesFor? uri path name attrs := by
  obtain ⟨m, hm⟩ : ∃ m, Matcher.registerAll (.plain {}) fourRules = .ok m := ⟨_, rfl⟩
  have hcommon : ∀ r ∈ fourRules, Common r.1 := by decide
  obtain ⟨m', hm', hrules, hanswers⟩ := agreement_law hm hcommon
  exact ⟨m, m', hm, hcommon, hm', hrules, hanswers⟩

end Extended

end XmlBinding
