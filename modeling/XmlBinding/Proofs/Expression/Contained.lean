import XmlBinding.Pattern.Regex.Reader

/-!
# Reading in front of the end of a group

An expression is anchored by putting it into a group with the ends of the text around it. Its parts
are read without regard to what stands behind them: what a reader takes of a text in front of the
end of the group it takes of the text alone, unless it reads on into that end. Whoever reads into it
uses up the parenthesis that was to close the group.
-/
namespace XmlBinding.Regex

/-- The end of the group that an anchored expression stands in, and the end of the text. -/
def ending : List Char := [')', '$']

/-- Only a closing parenthesis can come first because of the ending. -/
theorem head?_append_ending {d : Char} (hd : d ≠ ')') {cs : List Char} (h : cs.head? ≠ some d) :
    (cs ++ ending).head? ≠ some d := by
  cases cs with
  | nil => simpa [ending] using Ne.symm hd
  | cons c rest => simpa using h

/-- A reader takes a front of its text, and in front of the ending it takes what it takes of the
text alone, or the parenthesis too. -/
structure Contained {α : Type} (f : List Char → Option (α × List Char)) : Prop where
  shrinks : ∀ {cs a rest}, f cs = some (a, rest) → rest <:+ cs
  stays : ∀ {cs a rest}, f (cs ++ ending) = some (a, rest) →
    (∃ back, rest = back ++ ending ∧ f cs = some (a, back)) ∨ rest <:+ ['$']

namespace Contained

variable {α β : Type} {f g : List Char → Option (α × List Char)}

theorem congr (hg : Contained g) (h : ∀ cs, f cs = g cs) : Contained f := by
  obtain rfl : f = g := funext h
  exact hg

theorem answer (a : α) : Contained fun cs => some (a, cs) := by
  constructor
  · rintro cs _ _ ⟨⟩
    exact List.suffix_rfl
  · rintro cs _ _ ⟨⟩
    exact .inl ⟨cs, rfl, rfl⟩

theorem nothing : Contained fun _ => (none : Option (α × List Char)) := ⟨nofun, nofun⟩

/-- One reader behind the other. -/
theorem bind {g : α × List Char → Option (β × List Char)} (hf : Contained f)
    (hg : ∀ a, Contained fun rest => g (a, rest)) : Contained fun cs => f cs >>= g := by
  constructor
  · intro cs b rest h
    obtain ⟨⟨a, mid⟩, hfirst, hsecond⟩ := Option.bind_eq_some_iff.mp h
    exact ((hg a).shrinks hsecond).trans (hf.shrinks hfirst)
  · intro cs b rest h
    obtain ⟨⟨a, mid⟩, hfirst, hsecond⟩ := Option.bind_eq_some_iff.mp h
    rcases hf.stays hfirst with ⟨back, rfl, halone⟩ | hover
    · refine ((hg a).stays hsecond).imp_left fun ⟨back', hrest, hback⟩ => ⟨back', hrest, ?_⟩
      exact Option.bind_eq_some_iff.mpr ⟨(a, back), halone, hback⟩
    · exact .inr (((hg a).shrinks hsecond).trans hover)

/-- What is read may be turned into something else. -/
theorem map {g : α × List Char → β × List Char} (hf : Contained f)
    (hg : ∀ a, Contained fun rest => some (g (a, rest))) : Contained fun cs => (f cs).map g :=
  (hf.bind hg).congr fun cs => by cases f cs <;> rfl

/-- What does not depend on the text may fail. -/
theorem option {g : β → List Char → Option (α × List Char)} (o : Option β)
    (hg : ∀ b, Contained (g b)) : Contained (fun cs => do
      let b ← o
      g b cs) := by
  cases o with
  | none => exact nothing
  | some b => exact hg b

theorem ite {c : Prop} {_ : Decidable c} (hf : Contained f) (hg : Contained g) :
    Contained fun cs => if c then f cs else g cs := by
  by_cases hc : c
  · exact hf.congr fun cs => if_pos hc
  · exact hg.congr fun cs => if_neg hc

theorem filter (hf : Contained f) (p : α → Bool) :
    Contained fun cs => (f cs).filter fun x => p x.1 := by
  have hkept : ∀ a, Contained fun rest => if p a = true then some (a, rest) else none := fun a =>
    .ite (.answer a) .nothing
  refine (hf.bind (g := fun x => if p x.1 = true then some x else none) hkept).congr fun cs => ?_
  cases f cs <;> rfl

/-- The first character decides. -/
theorem cons {g : Char → List Char → Option (α × List Char)} (hg : ∀ c, Contained (g c))
    (hnil : f [] = none) (hcons : ∀ c rest, f (c :: rest) = g c rest) : Contained f := by
  constructor
  · intro cs a rest h
    cases cs with
    | nil =>
      rw [hnil] at h
      cases h
    | cons c cs =>
      rw [hcons] at h
      exact ((hg c).shrinks h).trans (List.suffix_cons c cs)
  · intro cs a rest h
    cases cs with
    | nil =>
      rw [List.nil_append, ending, hcons] at h
      exact .inr ((hg ')').shrinks h)
    | cons c cs =>
      rw [List.cons_append, hcons] at h
      rw [hcons]
      exact (hg c).stays h

/-- A character that is no closing parenthesis may come first, and decides. -/
theorem deciding (d : Char) (hd : d ≠ ')') (hg : Contained g)
    (hother : ∀ cs, cs.head? ≠ some d → f cs = g cs)
    (hshrinks : ∀ {cs a rest}, f (d :: cs) = some (a, rest) → rest <:+ d :: cs)
    (hstays : ∀ {cs a rest}, f (d :: (cs ++ ending)) = some (a, rest) →
      (∃ back, rest = back ++ ending ∧ f (d :: cs) = some (a, back)) ∨ rest <:+ ['$']) :
    Contained f := by
  constructor
  · intro cs a rest h
    by_cases hcs : cs.head? = some d
    · obtain ⟨cs, rfl⟩ := List.head?_eq_some_iff.mp hcs
      exact hshrinks h
    · rw [hother cs hcs] at h
      exact hg.shrinks h
  · intro cs a rest h
    by_cases hcs : cs.head? = some d
    · obtain ⟨cs, rfl⟩ := List.head?_eq_some_iff.mp hcs
      exact hstays h
    · rw [hother _ (head?_append_ending hd hcs)] at h
      rw [hother cs hcs]
      exact hg.stays h

/-- A character that is used up, if it comes first. -/
theorem lookingFor {g k : List Char → Option (α × List Char)} (d : Char) (hd : d ≠ ')')
    (hg : Contained g) (hk : Contained k) (hother : ∀ cs, cs.head? ≠ some d → f cs = g cs)
    (hthis : ∀ cs, f (d :: cs) = k cs) : Contained f := by
  refine .deciding d hd hg hother (fun h => ?_) fun h => ?_
  · rw [hthis] at h
    exact (hk.shrinks h).trans (List.suffix_cons d _)
  · rw [hthis] at h ⊢
    exact hk.stays h

/-- A character that is only looked at. -/
theorem seeing (d : Char) (hd : d ≠ ')') (a : α) (hg : Contained g)
    (hother : ∀ cs, cs.head? ≠ some d → f cs = g cs)
    (hthis : ∀ cs, f (d :: cs) = some (a, d :: cs)) : Contained f := by
  refine .deciding d hd hg hother (fun h => ?_) fun h => ?_
  · rw [hthis] at h
    cases h
    exact List.suffix_rfl
  · rw [hthis] at h
    cases h
    exact .inl ⟨_, rfl, hthis _⟩

/-- A reader behind a character that it uses up. -/
theorem behind (hf : Contained f)
    (hstrict : ∀ {cs a rest}, f cs = some (a, rest) → rest <:+ cs.tail) (c : Char) :
    Contained fun cs => f (c :: cs) :=
  ⟨fun h => hstrict h, fun h => by
    rw [← List.cons_append] at h
    rcases hf.stays h with ⟨back, hrest, halone⟩ | hover
    · exact .inl ⟨back, hrest, halone⟩
    · exact .inr hover⟩

/-- Something that is found out without looking at the text. -/
theorem result (o : Option α) : Contained fun cs => o.map (·, cs) := by
  cases o with
  | none => exact nothing
  | some a => exact answer a

end Contained

/-! ### What has no meaning in verbose mode -/

theorem skipVerbose_suffix (inComment : Bool) (cs : List Char) :
    skipVerbose inComment cs <:+ cs := by
  induction cs generalizing inComment with
  | nil => exact List.suffix_rfl
  | cons c rest ih =>
    have hrest : ∀ flag, skipVerbose flag rest <:+ c :: rest := fun flag =>
      (ih flag).trans (List.suffix_cons c rest)
    unfold skipVerbose
    split
    · exact hrest _
    split
    · exact hrest _
    split
    · exact hrest _
    · exact List.suffix_rfl

/-- A comment goes on to the end of its line, so it may take in the ending. -/
theorem skipVerbose_ending (inComment : Bool) (cs : List Char) :
    skipVerbose inComment (cs ++ ending) = skipVerbose inComment cs ++ ending ∨
      skipVerbose inComment cs = [] ∧ skipVerbose inComment (cs ++ ending) = [] := by
  induction cs generalizing inComment with
  | nil =>
    cases inComment with
    | false => exact .inl (by decide)
    | true => exact .inr (by decide)
  | cons c rest ih =>
    rw [List.cons_append]
    unfold skipVerbose
    split
    · exact ih _
    split
    · exact ih _
    split
    · exact ih _
    · exact .inl rfl

variable (fl : Flags)

theorem Flags.skip_suffix (cs : List Char) : fl.skip cs <:+ cs := by
  unfold Flags.skip
  split
  · exact skipVerbose_suffix _ cs
  · exact List.suffix_rfl

/-- Who uses up the first character that has a meaning leaves a shorter text. -/
theorem Flags.length_lt_of_skip {cs rest : List Char} (hcs : fl.skip cs ≠ [])
    (h : rest <:+ (fl.skip cs).tail) : rest.length < cs.length := by
  have hskip := (fl.skip_suffix cs).length_le
  have hrest := h.length_le
  have hpos := List.length_pos_iff.mpr hcs
  rw [List.length_tail] at hrest
  omega

theorem Flags.skip_ending (cs : List Char) :
    fl.skip (cs ++ ending) = fl.skip cs ++ ending ∨
      fl.skip cs = [] ∧ fl.skip (cs ++ ending) = [] := by
  unfold Flags.skip
  split
  · exact skipVerbose_ending _ cs
  · exact .inl rfl

variable {fl} {α : Type}

theorem Contained.skip {f : List Char → Option (α × List Char)} (hf : Contained f) :
    Contained fun cs => f (fl.skip cs) := by
  constructor
  · intro cs a rest h
    exact (hf.shrinks h).trans (fl.skip_suffix cs)
  · intro cs a rest h
    rcases fl.skip_ending cs with hskip | ⟨-, hskip⟩
    · rw [hskip] at h
      exact hf.stays h
    · rw [hskip] at h
      exact .inr ((hf.shrinks h).trans List.nil_suffix)

/-! ### Escapes -/

/-- The first character of a text in braces is used up. -/
theorem braced?_suffix_tail {inComment : Bool} {cs text rest : List Char}
    (h : fl.braced? inComment cs = some (text, rest)) : rest <:+ cs.tail := by
  induction cs generalizing inComment text with
  | nil => cases h
  | cons c cs ih =>
    rw [List.tail_cons]
    unfold Flags.braced? at h
    split at h
    · exact (ih h).trans (List.tail_suffix cs)
    split at h
    · cases h
      exact List.suffix_rfl
    split at h
    · exact (ih h).trans (List.tail_suffix cs)
    split at h
    · exact (ih h).trans (List.tail_suffix cs)
    · obtain ⟨p, htext, hrest⟩ := Option.map_eq_some_iff.mp h
      cases hrest
      exact (ih htext).trans (List.tail_suffix cs)

theorem contained_braced? (inComment : Bool) : Contained (fl.braced? inComment) := by
  refine ⟨fun h => (braced?_suffix_tail h).trans (List.tail_suffix _), fun {cs} => ?_⟩
  induction cs generalizing inComment with
  | nil => exact fun h => .inr (braced?_suffix_tail h)
  | cons c cs ih =>
    intro a rest h
    rw [List.cons_append] at h
    unfold Flags.braced? at h ⊢
    by_cases hcomment : inComment = true
    · rw [if_pos hcomment] at h ⊢
      exact ih _ h
    rw [if_neg hcomment] at h ⊢
    by_cases hbrace : c = '\x7d'
    · rw [if_pos hbrace] at h ⊢
      cases h
      exact .inl ⟨cs, rfl, rfl⟩
    rw [if_neg hbrace] at h ⊢
    by_cases hblank : (fl.verbose && Text.isBlank c) = true
    · rw [if_pos hblank] at h ⊢
      exact ih _ h
    rw [if_neg hblank] at h ⊢
    by_cases hmark : (fl.verbose && c == '#') = true
    · rw [if_pos hmark] at h ⊢
      exact ih _ h
    rw [if_neg hmark] at h ⊢
    obtain ⟨⟨text, after⟩, htext, hrest⟩ := Option.map_eq_some_iff.mp h
    cases hrest
    refine (ih _ htext).imp_left fun ⟨back, hback, halone⟩ => ⟨back, hback, ?_⟩
    rw [halone]
    rfl

theorem contained_fixedHex? (acc width : Nat) : Contained (fl.fixedHex? acc width) := by
  induction width generalizing acc with
  | zero => exact (Contained.answer acc).congr fun cs => by rw [Flags.fixedHex?]
  | succ width ih =>
    refine .cons (g := fun c rest => (hexDigit? c).bind fun d =>
      fl.fixedHex? (16 * acc + d) width (fl.skip rest)) (fun c => ?_) rfl fun c rest => ?_
    · exact .option (hexDigit? c) fun d => (ih _).skip
    · rw [Flags.fixedHex?]
      cases hexDigit? c <;> rfl

theorem contained_bracedHex? : Contained fl.bracedHex? := by
  refine (contained_braced? false).bind fun digits => ?_
  by_cases hempty : digits.isEmpty = true
  · exact Contained.nothing.congr fun rest => if_pos hempty
  · refine Contained.congr ?_ fun rest => if_neg hempty
    exact .option _ fun n => .option _ fun c => (Contained.answer _).skip

theorem contained_plainHex? (width : Nat) : Contained (fl.plainHex? width) := by
  refine (contained_fixedHex? 0 width).bind fun n => .option _ fun c => ?_
  exact .ite .nothing (.answer _)

theorem contained_hex? (width : Nat) : Contained (fl.hex? width) := by
  refine .lookingFor (g := fl.plainHex? width) '\x7b' (by decide) (contained_plainHex? width)
    contained_bracedHex? (fun cs hcs => ?_) fun _ => rfl
  unfold Flags.hex?
  split
  · simp at hcs
  · rfl

theorem contained_setName? : Contained fl.setName? := by
  refine .cons (g := fun c rest => if c = '\x7b' then fl.braced? false rest else some ([c], rest))
    (fun c => .ite (contained_braced? false) (.answer [c])) rfl fun c rest => ?_
  unfold Flags.setName?
  split
  · next heq => cases heq
  · next heq =>
    cases heq
    rfl
  · next hc heq =>
    cases heq
    exact (if_neg hc).symm

theorem contained_property? (negated : Bool) : Contained (fl.property? negated) := by
  refine contained_setName?.skip.bind fun name => ?_
  refine .ite .nothing (.option _ fun named => ?_)
  exact .option _ fun s => .answer _

theorem contained_namedEdge? : Contained fl.namedEdge? := by
  refine (contained_braced? false).bind fun name => ?_
  exact .option _ fun e => .answer _

/-- The parenthesis at the end begins no name. -/
theorem namesEdge_ending (cs : List Char) : fl.namesEdge (cs ++ ending) = fl.namesEdge cs := by
  unfold Flags.namesEdge
  rcases fl.skip_ending cs with hskip | ⟨hcs, hskip⟩
  · rw [hskip]
    cases fl.skip cs with
    | nil => decide
    | cons c rest => rfl
  · rw [hskip, hcs]

theorem boundary?_of_ne {cs : List Char} (h : cs.head? ≠ some '\x7b') :
    fl.boundary? cs = some (fl.edge .boundary, cs) := by
  unfold Flags.boundary?
  split
  · simp at h
  · rfl

theorem contained_boundary? : Contained fl.boundary? := by
  have hbrace : ∀ inner, fl.boundary? ('\x7b' :: inner) = if fl.namesEdge inner = true
      then fl.namedEdge? (fl.skip inner) else some (fl.edge .boundary, '\x7b' :: inner) :=
    fun _ => rfl
  refine .deciding (g := fun cs => some (fl.edge .boundary, cs)) '\x7b' (by decide) (.answer _)
    (fun cs => boundary?_of_ne) (fun {inner _ _} h => ?_) fun {inner _ _} h => ?_
  · rw [hbrace] at h
    split at h
    · exact (contained_namedEdge?.skip.shrinks h).trans (List.suffix_cons _ _)
    · cases h
      exact List.suffix_rfl
  · rw [hbrace, namesEdge_ending] at h
    rw [hbrace]
    by_cases hnames : fl.namesEdge inner = true
    · rw [if_pos hnames] at h ⊢
      exact contained_namedEdge?.skip.stays h
    · rw [if_neg hnames] at h ⊢
      cases h
      exact .inl ⟨_, rfl, rfl⟩

theorem contained_escape? : Contained fl.escape? := by
  refine .cons (g := fun c rest => fl.escape? (c :: rest)) (fun c => ?_) rfl fun _ _ => rfl
  unfold Flags.escape?
  refine .ite (contained_hex? 2).skip ?_
  refine .ite (contained_hex? 4).skip ?_
  refine .ite (contained_hex? 8).skip ?_
  refine .ite (contained_property? false) ?_
  refine .ite (contained_property? true) ?_
  refine .ite (.answer _) ?_
  refine .ite ?_ ?_
  · cases fl.negated? true (fl.shorthand c.toLower) with
    | none => exact .nothing
    | some s => exact .answer _
  iterate 8 refine .ite (.answer _) ?_
  refine .ite contained_boundary? ?_
  iterate 3 refine .ite (.answer _) ?_
  exact .ite .nothing (.answer _)

end XmlBinding.Regex
