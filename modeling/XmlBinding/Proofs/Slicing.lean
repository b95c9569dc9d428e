import XmlBinding.Proofs.Slices
import XmlBinding.Proofs.Universality

/-!
# Matching by slices

An extended matcher compares patterns with paths by slices of their texts at byte places, which it
finds by subtracting lengths. Such a slice can fail: behind the end of a text, inside a character,
or where it ends in front of its beginning. Below, matching is written once more with slices that
are checked and with a count of the steps up the path. One pattern alone makes a slice fail, the two
stars that share their slash; without it no slice fails for any path, and the steps up the path come
to an end.
-/
namespace XmlBinding.Sliced

open Pattern Extended Text

variable {ρ : Type}

/-- Why matching stops without an answer. -/
inductive Stop
  /-- A slice or a length that is not there. -/
  | slice
  /-- The steps are used up. -/
  | steps
  deriving DecidableEq

/-- A slice that has to be there. -/
def cut {α : Type} : Option α → Except Stop α
  | some a => .ok a
  | none => .error .slice

/-- A length that is not negative. -/
def less (a b : Nat) : Except Stop Nat := if b ≤ a then .ok (a - b) else .error .slice

/-- A text without its last `n` bytes. -/
def withoutEnd (cs : List Char) (n : Nat) : Except Stop (List Char) := do
  cut (upTo? cs (← less (byteLength cs) n))

/-! ### Matching with checked slices -/

/-- All of a path before its last slash. -/
def parent (path : List Char) : Except Stop (Option (List Char)) :=
  match lastSlash? path with
  | none => return none
  | some place => return some (← cut (upTo? path place))

/-- Whether a path is the suffix or ends in it behind a slash. -/
def endsAtSegment (suffix path : List Char) : Except Stop Bool := do
  if path == suffix then return true
  if byteLength suffix < byteLength path && suffix.isSuffixOf path then
    return (← withoutEnd path (byteLength suffix)).getLast? == some '/'
  return false

/-- Whether a key that ends in `/?` covers the children of a parent. -/
def coversChildrenOf (key parent : List Char) : Except Stop Bool := do
  let inner ← withoutEnd key 2
  match afterLeadingStar? inner with
  | some suffix => endsAtSegment suffix parent
  | none => return inner == parent

/-- Whether what stands between two stars is somewhere in a path. -/
def runsThrough (key path : List Char) : Except Stop Bool := do
  let inner ← cut (slice? key 2 (← less (byteLength key) 2))
  if path == inner then return true
  if ← endsAtSegment inner path then return true
  return (inner ++ ['/']).isPrefixOf path || occursIn ('/' :: inner ++ ['/']) path

/-- Whether a key without `!` covers a path. -/
def covers (shape : Shape) (key path : List Char) (parent : Option (List Char)) :
    Except Stop Bool := do
  if shape.oneChild then
    match parent with
    | some p => coversChildrenOf key p
    | none => return false
  else if shape.anyAncestor && shape.anyDescendant then runsThrough key path
  else if shape.anyAncestor then endsAtSegment (← cut (from? key 2)) path
  else
    if path == (← withoutEnd key 2) then return true
    return (← withoutEnd key 1).isPrefixOf path

/-- The length by which a covering key competes. -/
def weight (shape : Shape) (key : List Char) : Except Stop Nat := do
  let n ← if shape.anyAncestor then less (byteLength key) 1 else pure (byteLength key)
  if shape.anyDescendant || shape.oneChild then less n 1 else pure n

/-- Go up the path from a place on until something is registered for the descendants there. -/
def nearest (t : Table ρ) (path : List Char) : Nat → Nat → Except Stop (Option (List (Entry ρ)))
  | 0, _ => .error .steps
  | steps + 1, place => do
    match lastSlash? (← cut (upTo? path place)) with
    | none => return none
    | some 0 => return none
    | some next =>
      match t.lookup? ((← cut (upTo? path next)) ++ ['/', '*']) with
      | some found => return some found
      | none => nearest t path steps next

/-- What is found while the rows are compared with the path one by one. -/
structure Gathered (ρ : Type) where
  basic : Option (List (Entry ρ))
  longest : Nat
  universal : List (Entry ρ)

/-- Compare one row with the path. -/
def visit (t : Table ρ) (path : List Char) (parent : Option (List Char)) (settled : Bool)
    (found : Gathered ρ) (row : Row ρ) : Except Stop (Gathered ρ) := do
  if !isScanned row then return found
  let key := withoutBang row.key
  if !(← covers row.shape key path parent) then return found
  if row.shape.universal then
    return { found with universal := found.universal ++ (t.lookup? row.key).getD [] }
  if settled then return found
  let n ← weight row.shape key
  if found.longest < n then return { found with basic := t.lookup? key, longest := n }
  return found

/-- The registrations of the path, of the children of its parent, or of what is below the nearest
ancestor. -/
def settled (t : Table ρ) (steps : Nat) (path : List Char) (parent : Option (List Char)) :
    Except Stop (Option (List (Entry ρ))) :=
  match t.lookup? path with
  | some found => return some found
  | none => match parent with
    | none => return none
    | some p => match t.lookup? (p ++ ['/', '?']) with
      | some found => return some found
      | none => nearest t path steps (byteLength path)

/-- The rules for an element. -/
def rulesFor (t : Table ρ) (steps : Nat) (uri : String) (path : List Char) :
    Except Stop (List ρ) := do
  let parent ← parent path
  let universal := (t.lookup? ['!', '*']).getD [] ++
    (t.lookup? ('!' :: parent.getD [] ++ ['/', '?'])).getD []
  let basic ← settled t steps path parent
  let found ← t.rows.foldlM (visit t path parent basic.isSome) ⟨basic, 0, universal⟩
  let basic := match found.basic with
    | some entries => entries
    | none => (t.lookup? ['*']).getD []
  let accepted := (basic ++ found.universal).filter (·.accepts uri)
  return (dropRepeated (accepted.mergeSort fun a b => a.order ≤ b.order)).map (·.rule)

/-! ### The slices of one comparison -/

theorem parent_eq (path : List Char) : parent path = .ok (parent? path) := by
  rcases no_slash_or_last path with h | ⟨front, last, rfl, h⟩
  · rw [parent, lastSlash?_of_no_slash h, parent?_of_no_slash h]
    rfl
  · rw [parent, lastSlash?_append_slash front h, parent?_append_slash front h]
    dsimp only
    rw [upTo?_append]
    rfl

theorem less_of_le {a b : Nat} (h : b ≤ a) : less a b = .ok (a - b) := if_pos h

theorem less_append (front behind : List Char) :
    less (byteLength (front ++ behind)) (byteLength behind) = .ok (byteLength front) := by
  rw [byteLength_append, less_of_le (Nat.le_add_left _ _), Nat.add_sub_cancel]

theorem withoutEnd_append (front behind : List Char) :
    withoutEnd (front ++ behind) (byteLength behind) = .ok front := by
  rw [withoutEnd, less_append]
  change cut (upTo? _ _) = _
  rw [upTo?_append]
  rfl

theorem slash_suffix_iff {front suffix : List Char} :
    '/' :: suffix <:+ front ++ suffix ↔ front.getLast? = some '/' := by
  rw [List.getLast?_eq_some_iff]
  constructor
  · rintro ⟨before, h⟩
    rw [List.append_cons] at h
    exact ⟨before, (List.append_cancel_right h).symm⟩
  · rintro ⟨before, rfl⟩
    exact ⟨before, List.append_cons before '/' suffix⟩

/-- What is in front of a suffix is a slice, and a slash at its end is the one before the suffix. -/
theorem endsAtSegment_eq (suffix path : List Char) :
    endsAtSegment suffix path = .ok (Pattern.endsAtSegment suffix path) := by
  unfold endsAtSegment Pattern.endsAtSegment
  by_cases heq : path = suffix
  · subst heq
    simp [pure, Except.pure]
  have hne : (path == suffix) = false := beq_eq_false_iff_ne.mpr heq
  by_cases hsuffix : suffix <:+ path
  · obtain ⟨front, rfl⟩ := hsuffix
    have hlt : byteLength suffix < byteLength (front ++ suffix) := by
      have hpos : 0 < byteLength front := byteLength_pos fun h => heq (by rw [h]; rfl)
      rw [byteLength_append]
      omega
    have hlast : (front.getLast? == some '/') = ('/' :: suffix).isSuffixOf (front ++ suffix) := by
      rw [Bool.eq_iff_iff, beq_iff_eq, List.isSuffixOf_iff_suffix, slash_suffix_iff]
    simp [hne, hlt, withoutEnd_append, hlast, bind, Except.bind, pure, Except.pure]
  · have hno : suffix.isSuffixOf path = false :=
      Bool.eq_false_iff.mpr fun h => hsuffix (List.isSuffixOf_iff_suffix.mp h)
    have hslash : ('/' :: suffix).isSuffixOf path = false := Bool.eq_false_iff.mpr fun h =>
      hsuffix ((List.suffix_cons '/' suffix).trans (List.isSuffixOf_iff_suffix.mp h))
    simp [hne, hno, hslash, pure, Except.pure]

theorem withoutEnd_question (a : List Char) : withoutEnd (a ++ ['/', '?']) 2 = .ok a :=
  withoutEnd_append a ['/', '?']

theorem withoutEnd_star (a : List Char) : withoutEnd (a ++ ['/', '*']) 2 = .ok a :=
  withoutEnd_append a ['/', '*']

theorem coversChildrenOf_eq (a parent : List Char) :
    coversChildrenOf (a ++ ['/', '?']) parent =
      .ok (Pattern.coversChildrenOf (a ++ ['/', '?']) parent) := by
  unfold coversChildrenOf Pattern.coversChildrenOf
  rw [withoutEnd_question, stem_append]
  change (match afterLeadingStar? a with
    | some suffix => endsAtSegment suffix parent
    | none => .ok (a == parent)) = _
  cases afterLeadingStar? a with
  | some suffix => exact endsAtSegment_eq suffix parent
  | none => rfl

/-- Between two stars with a slash each there is a slice. -/
theorem runsThrough_eq (a path : List Char) :
    runsThrough ('*' :: '/' :: (a ++ ['/', '*'])) path = .ok (Pattern.runsThrough a path) := by
  have hless : less (byteLength ('*' :: '/' :: (a ++ ['/', '*']))) 2 =
      .ok (byteLength ('*' :: '/' :: a)) := less_append ('*' :: '/' :: a) ['/', '*']
  have hslice : slice? ('*' :: '/' :: (a ++ ['/', '*'])) 2 (byteLength ('*' :: '/' :: a)) =
      some a := slice?_append ['*', '/'] a ['/', '*']
  unfold runsThrough Pattern.runsThrough
  simp only [hless, bind, Except.bind, hslice, cut, endsAtSegment_eq]
  by_cases heq : path = a
  · subst heq
    simp [Pattern.endsAtSegment, pure, Except.pure]
  · cases hends : Pattern.endsAtSegment a path <;> simp [heq, pure, Except.pure]

/-- Two stars that share their slash leave a slice that ends before it begins. -/
theorem runsThrough_twoStars (path : List Char) : runsThrough twoStars path = .error .slice := rfl

/-- Every slice of a comparison is there, but the one between two stars that share their slash. -/
theorem covers_eq {key : List Char} (path : List Char)
    (hscan : ((Shape.of key).anyAncestor ||
      ((Shape.of key).universal && (Shape.of key).anyDescendant)) = true) :
    covers (Shape.of key) (withoutBang key) path (parent? path) =
      cut ((Shape.of key).covers? (withoutBang key) path) := by
  cases hchild : (Shape.of key).oneChild with
  | true =>
    obtain ⟨a, ha⟩ := endsIn_iff.mp hchild
    simp only [covers, Shape.covers?, hchild, if_true, ha]
    cases parent? path with
    | none => rfl
    | some p => exact coversChildrenOf_eq a p
  | false =>
    cases hleading : (Shape.of key).anyAncestor with
    | true =>
      obtain ⟨s, hs, hsegments⟩ := afterLeadingStar?_isSome_iff.mp hleading
      obtain ⟨rest, hrest, -⟩ := exists_of_star_cons hs hsegments
      cases htrailing : (Shape.of key).anyDescendant with
      | true =>
        obtain ⟨a, ha⟩ := endsIn_iff.mp htrailing
        simp only [covers, Shape.covers?, hchild, hleading, htrailing, Bool.false_eq_true, if_false,
          Bool.and_self, if_true]
        by_cases hstars : withoutBang key = twoStars
        · rw [hstars]
          exact runsThrough_twoStars path
        · obtain ⟨inner, hinner⟩ := exists_between hrest ha hstars
          rw [hinner, between?_append]
          exact runsThrough_eq inner path
      | false =>
        have hfrom : from? ('*' :: '/' :: rest) 2 = some rest := from?_append ['*', '/'] rest
        simp only [covers, Shape.covers?, hchild, hleading, htrailing, Bool.false_eq_true, if_false,
          Bool.and_false, if_true, hrest, hfrom]
        exact endsAtSegment_eq rest path
    | false =>
      rw [hleading, Bool.false_or, Bool.and_eq_true] at hscan
      obtain ⟨a, ha⟩ := endsIn_iff.mp hscan.2
      have hslash : withoutEnd (a ++ ['/', '*']) 1 = .ok (a ++ ['/']) := by
        rw [List.append_cons]
        exact withoutEnd_append (a ++ ['/']) ['*']
      simp only [covers, Shape.covers?, hchild, hleading, Bool.false_eq_true, if_false,
        Bool.false_and, ha, withoutEnd_star, hslash, stem_append, dropLast_slash_mark, bind,
        Except.bind]
      cases path == a <;> rfl

/-- From a key with a star in front the weight can be subtracted. -/
theorem weight_eq {key : List Char} (hleading : (Shape.of key).anyAncestor = true) :
    weight (Shape.of key) (withoutBang key) =
      .ok ((Shape.of key).weight (withoutBang key)) := by
  obtain ⟨s, hs, hsegments⟩ := afterLeadingStar?_isSome_iff.mp hleading
  obtain ⟨rest, hrest, -⟩ := exists_of_star_cons hs hsegments
  have hlong : byteLength ('*' :: '/' :: rest) = 2 + byteLength rest :=
    byteLength_append ['*', '/'] rest
  rw [hrest, weight, Shape.weight, hleading, if_pos rfl, if_pos rfl, hlong, less_of_le (by omega)]
  change (if _ then less (2 + byteLength rest - 1) 1 else .ok (2 + byteLength rest - 1)) = _
  split
  · rw [less_of_le (by omega)]
  · rfl

/-! ### The way up the path -/

/-- Of two beginnings of a text, one with a slash behind it is in the other if it is shorter. -/
theorem slash_prefix_of_lt {a front behind : List Char} (ha : a ++ ['/'] <+: front ++ behind)
    (hlt : byteLength a < byteLength front) : a ++ ['/'] <+: front := by
  rcases List.prefix_or_prefix_of_prefix ha (List.prefix_append front behind) with h | h
  · exact h
  · rcases List.prefix_concat_iff.mp h with rfl | ⟨rest, rfl⟩
    · exact List.prefix_rfl
    · rw [byteLength_append] at hlt
      omega

/-- No slash is behind the last one. -/
theorem slash_prefix_of_last {a front last : List Char} (hlast : '/' ∉ last)
    (ha : a ++ ['/'] <+: front ++ '/' :: last) : a = front ∨ byteLength a < byteLength front := by
  have hslash : byteLength ['/'] = 1 := rfl
  have hfront : front ++ ['/'] <+: front ++ '/' :: last :=
    ⟨last, (List.append_cons front '/' last).symm⟩
  rcases List.prefix_or_prefix_of_prefix ha hfront with h | h <;>
    rcases List.prefix_concat_iff.mp h with heq | ⟨rest, hrest⟩
  · exact Or.inl (List.append_cancel_right heq)
  · rw [← hrest, byteLength_append, byteLength_append, hslash]
    exact Or.inr (by omega)
  · exact Or.inl (List.append_cancel_right heq).symm
  · rw [← hrest, List.append_assoc, List.append_assoc, List.prefix_append_right_inj,
      List.singleton_append, List.cons_prefix_cons] at ha
    exact absurd (ha.2.subset (List.mem_append_right _ List.mem_cons_self)) hlast

variable {t : Table ρ}

theorem longest?_eq_none {test : Row ρ → Bool} (h : ∀ row ∈ t.rows, test row ≠ true) :
    t.longest? test = none := by
  rw [Table.longest?, List.filter_eq_nil_iff.mpr h]
  rfl

/-- A row is the longest if every other one that is at least as long fails the test. -/
theorem longest?_eq_some {test : Row ρ → Bool} {row : Row ρ} (hrow : row ∈ t.rows)
    (htest : test row = true) (h : ∀ other ∈ t.rows, test other = true →
      byteLength row.key ≤ byteLength other.key → other = row) :
    t.longest? test = some row := by
  have hstep : ∀ b row : Row ρ, Table.longer (some b) row =
      if byteLength b.key < byteLength row.key then some row else some b := fun _ _ => rfl
  have hmem : row ∈ t.rows.filter test := List.mem_filter.mpr ⟨hrow, htest⟩
  rcases foldl_firstBest (t.rows.filter test) hstep fun _ _ => rfl with
    ⟨hnil, -⟩ | ⟨best, hsome, hbest⟩
  · rw [hnil] at hmem
    cases hmem
  · obtain ⟨hbestrow, hbesttest⟩ := List.mem_filter.mp hbest.mem
    rw [Table.longest?, hsome, h best hbestrow hbesttest (hbest.le hmem)]

/-- Without a slash in front there is no way up. -/
theorem nearest_of_no_slash {front : List Char} (h : '/' ∉ front) (behind : List Char)
    (steps : Nat) : nearest t (front ++ behind) (steps + 1) (byteLength front) = .ok none := by
  rw [nearest, upTo?_append]
  simp only [cut, bind, Except.bind, lastSlash?_of_no_slash h]
  rfl

/-- Nor is there one above a slash that comes first. -/
theorem nearest_of_first {last : List Char} (h : '/' ∉ last) (behind : List Char) (steps : Nat) :
    nearest t ('/' :: last ++ behind) (steps + 1) (byteLength ('/' :: last)) = .ok none := by
  have hplace : lastSlash? ('/' :: last) = some 0 := lastSlash?_append_slash [] h
  rw [nearest, upTo?_append]
  simp only [cut, bind, Except.bind, hplace]
  rfl

/-- One step up, to the ancestor in front of the last slash. -/
theorem nearest_step {ancestor last : List Char} (hne : ancestor ≠ []) (h : '/' ∉ last)
    (behind : List Char) (steps : Nat) :
    nearest t (ancestor ++ '/' :: last ++ behind) (steps + 1)
        (byteLength (ancestor ++ '/' :: last)) =
      match t.lookup? (ancestor ++ ['/', '*']) with
      | some found => .ok (some found)
      | none => nearest t (ancestor ++ '/' :: last ++ behind) steps (byteLength ancestor) := by
  have hcut : upTo? (ancestor ++ '/' :: last ++ behind) (byteLength ancestor) = some ancestor := by
    rw [List.append_assoc]
    exact upTo?_append ancestor _
  rw [nearest, upTo?_append]
  simp only [cut, bind, Except.bind, lastSlash?_append_slash ancestor h]
  have hpos := byteLength_pos hne
  split
  · next hnone => cases hnone
  · next hzero => exact absurd (Option.some.inj hzero) (Nat.ne_of_gt hpos)
  · next next hnext =>
    obtain rfl := Option.some.inj hnext
    rw [hcut]
    rfl

/-! ### The scan -/

/-- What a row that covers the path adds to what is found. -/
def add (settled : Bool) (found : Gathered ρ) (row : Row ρ) : Gathered ρ :=
  if row.shape.universal then { found with universal := found.universal ++ row.entries }
  else if settled then found
  else if found.longest < row.shape.weight row.key then
    { found with basic := some row.entries, longest := row.shape.weight row.key }
  else found

theorem visit_of_not_scanned {row : Row ρ} (h : isScanned row = false) (path : List Char)
    (parent : Option (List Char)) (settled : Bool) (found : Gathered ρ) :
    visit t path parent settled found row = .ok found := by
  unfold visit
  rw [h]
  rfl

/-- What the scan finds beside the competition. -/
theorem universal_foldl_add (settled : Bool) (scanned : List (Row ρ)) (found : Gathered ρ) :
    (scanned.foldl (add settled) found).universal = found.universal ++
      (scanned.filter (·.shape.universal)).flatMap (·.entries) := by
  induction scanned generalizing found with
  | nil => exact (List.append_nil _).symm
  | cons row rest ih =>
    rw [List.foldl_cons, ih, add]
    cases huniversal : row.shape.universal with
    | true => simp [huniversal]
    | false =>
      rw [List.filter_cons_of_neg (by simp [huniversal]), if_neg nofun]
      cases settled with
      | true => rfl
      | false => by_cases hlt : found.longest < row.shape.weight row.key <;> simp [hlt]

/-- A settled competition stays settled. -/
theorem basic_foldl_add_settled (scanned : List (Row ρ)) (found : Gathered ρ) :
    (scanned.foldl (add true) found).basic = found.basic := by
  induction scanned generalizing found with
  | nil => rfl
  | cons row rest ih =>
    rw [List.foldl_cons, ih, add]
    cases row.shape.universal <;> rfl

/-- What the scan knows of the heaviest row so far. -/
structure Gathered.Keeps (found : Gathered ρ) (best : Option (Row ρ)) : Prop where
  basic : found.basic = best.map (·.entries)
  longest : found.longest = (best.map fun row => row.shape.weight row.key).getD 0

theorem Gathered.Keeps.add {found : Gathered ρ} {best : Option (Row ρ)} (h : found.Keeps best)
    {row : Row ρ} (hown : row.shape.universal = false) :
    (add false found row).Keeps (heavier best row) := by
  unfold Sliced.add
  rw [hown, if_neg nofun, if_neg nofun, h.longest]
  cases best with
  | none =>
    change (if 0 < row.shape.weight row.key then _ else found).Keeps
      (if 0 < row.shape.weight row.key then some row else none)
    split
    · exact ⟨rfl, rfl⟩
    · exact h
  | some b =>
    change (if b.shape.weight b.key < row.shape.weight row.key then _ else found).Keeps
      (if b.shape.weight b.key < row.shape.weight row.key then some row else some b)
    split
    · exact ⟨rfl, rfl⟩
    · exact h

/-- In an open competition the scan finds the heaviest row. -/
theorem keeps_foldl_add (scanned : List (Row ρ)) {found : Gathered ρ} {best : Option (Row ρ)}
    (h : found.Keeps best) : (scanned.foldl (add false) found).Keeps
      ((scanned.filter (!·.shape.universal)).foldl heavier best) := by
  induction scanned generalizing found best with
  | nil => exact h
  | cons row rest ih =>
    cases huniversal : row.shape.universal with
    | true =>
      rw [List.filter_cons_of_neg (by simp [huniversal])]
      refine ih ⟨?_, ?_⟩ <;> rw [Sliced.add, huniversal]
      · exact h.basic
      · exact h.longest
    | false =>
      rw [List.filter_cons_of_pos (by simp [huniversal])]
      exact ih (h.add huniversal)

/-- The scan ends with what wins. -/
theorem basic_foldl_add (path : List Char) (scanned : List (Row ρ)) (always : List (Entry ρ)) :
    (match (scanned.foldl (add (settled? t path).isSome) ⟨settled? t path, 0, always⟩).basic with
      | some entries => entries
      | none => (t.lookup? ['*']).getD []) = winning t path scanned := by
  unfold winning
  cases settled? t path with
  | some found => rw [Option.isSome_some, basic_foldl_add_settled]
  | none =>
    have hkeeps : (Gathered.mk none 0 always).Keeps none := ⟨rfl, rfl⟩
    rw [Option.isSome_none, (keeps_foldl_add scanned hkeeps).basic]
    cases (scanned.filter (!·.shape.universal)).foldl heavier none <;> rfl

theorem covering?_eq_none {path : List Char} {rows : List (Row ρ)} {row : Row ρ}
    (hrow : row ∈ rows) (hscan : isScanned row = true)
    (h : row.shape.covers? (withoutBang row.key) path = none) : covering? path rows = none := by
  induction rows with
  | nil => cases hrow
  | cons first rest ih =>
    unfold covering?
    rcases List.mem_cons.mp hrow with rfl | hrow
    · rw [if_pos hscan, h]
    · rw [ih hrow]
      cases isScanned first with
      | false => rfl
      | true => rcases first.shape.covers? (withoutBang first.key) path with _ | _ | _ <;> rfl

/-! ### A table of registrations -/

section Registered

variable (ht : t.Registered checkExtended)
include ht

/-- No pattern begins with a slash. -/
theorem key_ne_slash_star {row : Row ρ} (hrow : row ∈ t.rows) : row.key ≠ ['/', '*'] := by
  intro hkey
  obtain ⟨e, he⟩ := ht.exists_mem_row hrow
  obtain ⟨hmem, hpattern⟩ := (ht.mem_row hrow).mp he
  have hchecked := segments_of_checked (ht.checked e hmem)
  rw [hpattern, hkey] at hchecked
  exact hchecked (by decide)

/-- **The way up the path ends, and it ends at the nearest ancestor.** -/
theorem nearest_eq {front behind : List Char} {steps : Nat} (hsteps : byteLength front < steps)
    (hfar : ∀ row ∈ t.rows, ∀ a, row.key = a ++ ['/', '*'] → a ++ ['/'] <+: front ++ behind →
      byteLength a < byteLength front) :
    nearest t (front ++ behind) steps (byteLength front) =
      .ok ((t.longest? (leadsThrough (front ++ behind))).map (·.entries)) := by
  induction steps generalizing front behind with
  | zero => exact absurd hsteps (Nat.not_lt_zero _)
  | succ steps ih =>
    have hleads : ∀ row ∈ t.rows, leadsThrough (front ++ behind) row = true →
        ∃ a, row.key = a ++ ['/', '*'] ∧ a ++ ['/'] <+: front := by
      intro row hrow hlead
      obtain ⟨a, hkey, ha⟩ := (leadsThrough_iff_begins ht hrow).mp hlead
      exact ⟨a, hkey, slash_prefix_of_lt ha (hfar row hrow a hkey ha)⟩
    rcases no_slash_or_last front with hno | ⟨ancestor, last, rfl, hlast⟩
    · rw [nearest_of_no_slash hno, longest?_eq_none]
      · rfl
      · intro row hrow hlead
        obtain ⟨a, -, ha⟩ := hleads row hrow hlead
        exact hno (ha.subset (List.mem_append_right _ List.mem_cons_self))
    by_cases hnil : ancestor = []
    · subst hnil
      rw [List.nil_append, nearest_of_first hlast, longest?_eq_none]
      · rfl
      · intro row hrow hlead
        obtain ⟨a, hkey, ha⟩ := hleads row hrow hlead
        rcases slash_prefix_of_last hlast ha with rfl | hlt
        · exact key_ne_slash_star ht hrow hkey
        · exact Nat.not_lt_zero _ hlt
    · rw [nearest_step hnil hlast]
      cases hlookup : t.lookup? (ancestor ++ ['/', '*']) with
      | some found =>
        obtain ⟨row, hrow, hkey, rfl⟩ := Table.mem_find? hlookup
        rw [longest?_eq_some hrow]
        · rfl
        · refine (leadsThrough_iff_begins ht hrow).mpr ⟨ancestor, hkey, last ++ behind, ?_⟩
          simp
        · intro other hother hlead hle
          obtain ⟨a, hother_key, ha⟩ := hleads other hother hlead
          rcases slash_prefix_of_last hlast ha with rfl | hlt
          · exact List.inj_on_of_nodup_map ht.nodup_keys hother hrow (hother_key.trans hkey.symm)
          · rw [hkey, hother_key, byteLength_append, byteLength_append] at hle
            omega
      | none =>
        have hslash : byteLength (ancestor ++ '/' :: last) =
            byteLength ancestor + (1 + byteLength last) := byteLength_append ancestor ('/' :: last)
        dsimp only
        rw [List.append_assoc]
        refine ih (by omega) fun row hrow a hkey ha => ?_
        rw [← List.append_assoc] at ha
        have hlead := (leadsThrough_iff_begins ht hrow).mpr ⟨a, hkey, ha⟩
        obtain ⟨b, hb, hpre⟩ := hleads row hrow hlead
        obtain rfl : a = b := List.append_cancel_right (hkey.symm.trans hb)
        refine (slash_prefix_of_last hlast hpre).resolve_left fun heq => ?_
        subst heq
        exact Table.find?_eq_none.mp hlookup (hkey ▸ List.mem_map_of_mem hrow)

/-- From the path itself the way up leads to the nearest ancestor. -/
theorem nearest_path_eq (path : List Char) {steps : Nat} (hsteps : byteLength path < steps) :
    nearest t path steps (byteLength path) =
      .ok ((t.longest? (leadsThrough path)).map (·.entries)) := by
  have hfar : ∀ row ∈ t.rows, ∀ a, row.key = a ++ ['/', '*'] → a ++ ['/'] <+: path ++ [] →
      byteLength a < byteLength path := by
    intro row _ a _ ha
    rw [List.append_nil] at ha
    have hle := byteLength_le_of_prefix ha
    have hslash : byteLength ['/'] = 1 := rfl
    rw [byteLength_append, hslash] at hle
    omega
  have h := nearest_eq ht hsteps hfar
  rwa [List.append_nil] at h

/-- What settles the competition is found by slices. -/
theorem settled_eq (path : List Char) {steps : Nat} (hsteps : byteLength path < steps) :
    settled t steps path (parent? path) = .ok (settled? t path) := by
  have hnearest := nearest_path_eq ht path hsteps
  unfold settled settled?
  cases t.lookup? path with
  | some found => rfl
  | none => cases parent? path with
    | none => rfl
    | some p => cases hchild : t.lookup? (p ++ ['/', '?']) with
      | some found =>
        simp only [hchild]
        rfl
      | none =>
        simp only [hchild]
        exact hnearest

/-- A row is compared by slices, and counted if it covers the path. -/
theorem visit_of_scanned {row : Row ρ} (hrow : row ∈ t.rows) (h : isScanned row = true)
    (path : List Char) (settled : Bool) (found : Gathered ρ) :
    visit t path (parent? path) settled found row =
      cut ((row.shape.covers? (withoutBang row.key) path).map fun covered =>
        if covered then add settled found row else found) := by
  have hscan : (row.shape.anyAncestor || (row.shape.universal && row.shape.anyDescendant)) =
      true := h
  have hcovers : covers row.shape (withoutBang row.key) path (parent? path) =
      cut (row.shape.covers? (withoutBang row.key) path) := by
    rw [ht.shape_eq row hrow] at hscan ⊢
    exact covers_eq path hscan
  unfold visit
  dsimp only
  rw [h, hcovers]
  cases row.shape.covers? (withoutBang row.key) path with
  | none => rfl
  | some covered =>
    cases covered with
    | false => rfl
    | true =>
      cases huniversal : row.shape.universal with
      | true =>
        simp only [cut, bind, Except.bind, add, huniversal, ht.lookup?_key hrow]
        rfl
      | false =>
        rw [huniversal, Bool.false_and, Bool.or_false] at hscan
        have hhead : row.key.head? ≠ some '!' := fun hbang => by
          rw [(universal_iff ht hrow).mpr hbang] at huniversal
          cases huniversal
        have hweight : weight row.shape (withoutBang row.key) =
            .ok (row.shape.weight row.key) := by
          rw [ht.shape_eq row hrow] at hscan ⊢
          rw [weight_eq hscan, withoutBang_of_ne hhead]
        cases settled with
        | true =>
          simp only [cut, bind, Except.bind, add, huniversal]
          rfl
        | false =>
          simp only [cut, bind, Except.bind, add, huniversal, hweight]
          rw [withoutBang_of_ne hhead, ht.lookup?_key hrow]
          by_cases hlt : found.longest < row.shape.weight row.key <;> simp [hlt, pure, Except.pure]

/-- **The scan by slices is the scan.** -/
theorem foldlM_visit (path : List Char) (settled : Bool) (rows : List (Row ρ))
    (hrows : ∀ row ∈ rows, row ∈ t.rows) (found : Gathered ρ) :
    rows.foldlM (visit t path (parent? path) settled) found =
      cut ((covering? path rows).map (·.foldl (add settled) found)) := by
  induction rows generalizing found with
  | nil => rfl
  | cons row rest ih =>
    have hrest := ih fun other hother => hrows other (List.mem_cons_of_mem _ hother)
    rw [List.foldlM_cons, covering?]
    cases hscan : isScanned row with
    | false =>
      rw [visit_of_not_scanned hscan, if_neg nofun]
      exact hrest found
    | true =>
      rw [visit_of_scanned ht (hrows row List.mem_cons_self) hscan, if_pos rfl]
      cases row.shape.covers? (withoutBang row.key) path with
      | none => rfl
      | some covered =>
        change rest.foldlM _ _ = _
        rw [hrest]
        cases covering? path rest <;> cases covered <;> rfl

/-- **Matching by slices answers as matching does, and where that has no answer a slice fails.** -/
theorem rulesFor_eq (uri : String) (path : List Char) {steps : Nat}
    (hsteps : byteLength path < steps) :
    rulesFor t steps uri path = cut (rulesFor? t uri path) := by
  unfold rulesFor rulesFor? entriesFor?
  simp only [parent_eq, settled_eq ht path hsteps, bind, Except.bind,
    foldlM_visit ht path _ t.rows fun _ hrow => hrow]
  cases covering? path t.rows with
  | none => rfl
  | some scanned =>
    simp only [Option.map_some, cut, universal_foldl_add]
    rw [basic_foldl_add]
    rfl

/-- There is no answer exactly while the two stars that share their slash are registered. -/
theorem rulesFor?_eq_none_iff (uri : String) (path : List Char) :
    rulesFor? t uri path = none ↔
      ∃ e ∈ t.entries, e.pattern.toList = twoStars ∨ e.pattern.toList = '!' :: twoStars := by
  unfold rulesFor? entriesFor?
  rw [Option.map_eq_none_iff, Option.map_eq_none_iff]
  constructor
  · intro hnone
    by_contra hfree
    push Not at hfree
    obtain ⟨scanned, hsome, -⟩ := covering?_leaves ht hfree path
    rw [hnone] at hsome
    cases hsome
  · rintro ⟨e, he, hpattern⟩
    obtain ⟨row, hrow, hkey⟩ := List.mem_map.mp ((ht.mem_keys _).mpr ⟨e, he, rfl⟩)
    refine covering?_eq_none hrow ?_ ?_
    · unfold isScanned
      rw [ht.shape_eq row hrow, hkey]
      rcases hpattern with h | h <;> rw [h] <;> rfl
    · rw [ht.shape_eq row hrow, hkey]
      rcases hpattern with h | h <;> rw [h] <;> rfl

end Registered

/-- **Only two stars that share their slash can make matching fail.** Whatever was done to an
extended matcher, it has no answer for a path exactly while such a pattern is registered, and then a
slice fails. In every other state all slices are there, for any path, and the way up the path ends:
there is an answer within one step for every byte and one more. -/
theorem slicing_law (history : List (Registration ρ)) (uri : String) (path : List Char)
    (name : String) (attrs : Attributes) :
    ((Matcher.replay (.extended {}) history).rulesFor? uri path name attrs = none ↔
        ∃ e ∈ registrations history, e.pattern = "*/*" ∨ e.pattern = "!*/*") ∧
      ∃ t : Table ρ, Matcher.replay (.extended {}) history = .extended t ∧
        ∀ more, rulesFor t (byteLength path + 1 + more) uri path =
          cut ((Matcher.replay (.extended {}) history).rulesFor? uri path name attrs) := by
  obtain ⟨t, hreplay, hrecord, ht⟩ :=
    replay_extended (Table.registered_empty (ρ := ρ) none) history
  have hentries : registrations history = t.entries := congrArg Prod.snd hrecord
  have hanswer : (Matcher.replay (.extended {}) history).rulesFor? uri path name attrs =
      rulesFor? t uri path := by
    rw [hreplay]
    rfl
  rw [hanswer]
  refine ⟨?_, t, hreplay, fun more => rulesFor_eq ht uri path (by omega)⟩
  rw [rulesFor?_eq_none_iff ht, hentries]
  refine exists_congr fun e => and_congr_right fun _ => ?_
  change e.pattern.toList = "*/*".toList ∨ e.pattern.toList = "!*/*".toList ↔ _
  rw [String.toList_inj, String.toList_inj]

/-- Names of two bytes, and two steps up the path. -/
example : (match Matcher.replay (.extended {}) [.add "*/ö" 0, .add "ä/*" 1, .add "*/é/?" 2] with
    | .extended t => rulesFor t 9 "" "ä/é/ö".toList
    | _ => .error .steps) = .ok [1] := by decide +kernel

end XmlBinding.Sliced
