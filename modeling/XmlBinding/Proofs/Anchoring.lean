import XmlBinding.Matcher.Textual
import XmlBinding.Proofs.Expression.Groups
import XmlBinding.Proofs.Expression.Places
import XmlBinding.Proofs.Expression.Steps

/-!
# Expressions between the ends of the text

A pattern is anchored by putting it into a group and asking for both ends of the path around it, and
only the whole is read. What is read is the group around the pattern as long as the pattern closes
no group that it does not open. A pattern that does is no expression by itself, but the whole may be
one: then the ends bind only the parts next to them.
-/
namespace XmlBinding.Regex

variable {st st' : ReadState} {cs rest : List Char} {fuel : Nat} {p : Piece}

/-- A text closes a group that it does not open. -/
inductive ClosesOutside : ReadState → List Char → Prop
  | here {st : ReadState} {cs : List Char} (hopen : st.open_ = [])
      (hclose : (st.flags.skip cs).head? = some ')') : ClosesOutside st cs
  | later {st st' : ReadState} {cs rest : List Char}
      (hstep : st.step? (st.flags.skip cs) = some (st', rest)) (hrest : ClosesOutside st' rest) :
      ClosesOutside st cs

/-- A text is by itself an expression. Whether that takes too much room is another matter. -/
def IsExpression (cs : List Char) (r : Regex) : Prop :=
  ∃ p, readAll? (cs.length + 1) {} cs = some p ∧ p.depth ≤ depthLimit ∧ p.expr = r

/-! ### Reading on -/

theorem readAll?_of_end (hskip : st.flags.skip cs = []) (hopen : st.open_ = []) :
    readAll? (fuel + 1) st cs = some st.level.value := by
  unfold readAll?
  split
  · rw [hopen]
    rfl
  · next hne => exact absurd hskip hne

theorem readAll?_of_step (hstep : st.step? (st.flags.skip cs) = some (st', rest)) :
    readAll? (fuel + 1) st cs = readAll? fuel st' rest := by
  conv => lhs; unfold readAll?
  split
  · next hskip =>
    rw [hskip] at hstep
    cases hstep
  · rw [hstep]

theorem readAll?_eq_some (h : readAll? (fuel + 1) st cs = some p) :
    (st.flags.skip cs = [] ∧ st.open_ = [] ∧ p = st.level.value) ∨
      ∃ st' rest, st.step? (st.flags.skip cs) = some (st', rest) ∧
        readAll? fuel st' rest = some p := by
  unfold readAll? at h
  split at h
  · next hskip =>
    split at h
    · next hopen =>
      cases h
      exact .inl ⟨hskip, List.isEmpty_iff.mp hopen, rfl⟩
    · cases h
  · split at h
    · next hstep => exact .inr ⟨_, _, hstep, h⟩
    · cases h

/-- Every step uses up a character. -/
theorem length_of_step? (h : st.step? (st.flags.skip cs) = some (st', rest)) :
    rest.length < cs.length := by
  refine st.flags.length_lt_of_skip (fun hnil => ?_) (step?_suffix h)
  rw [hnil] at h
  cases h

/-- A text that closes a group that it does not open is not read. -/
theorem ClosesOutside.readAll?_ne_some (h : ClosesOutside st cs) :
    readAll? fuel st cs ≠ some p := by
  intro hp
  induction h generalizing fuel with
  | @here st cs hopen hclose =>
    obtain ⟨more, hmore⟩ := List.head?_eq_some_iff.mp hclose
    cases fuel with
    | zero => cases hp
    | succ fuel =>
      rcases readAll?_eq_some hp with ⟨hskip, -⟩ | ⟨st', rest, hstep, -⟩
      · rw [hskip] at hmore
        cases hmore
      · rw [hmore] at hstep
        obtain ⟨_, hleave, -⟩ := Option.map_eq_some_iff.mp hstep
        obtain ⟨l, _, hne, -⟩ := ReadState.leave?_eq_some hleave
        rw [hopen] at hne
        cases hne
  | later hstep hrest ih =>
    cases fuel with
    | zero => cases hp
    | succ fuel =>
      rw [readAll?_of_step hstep] at hp
      exact ih hp

/-! ### In front of the ending -/

theorem skip_nil (fl : Flags) : fl.skip [] = [] := List.suffix_nil.mp (fl.skip_suffix [])

theorem skip_finish (fl : Flags) : fl.skip ['$'] = ['$'] := by
  unfold Flags.skip
  split
  · decide
  · rfl

theorem open_of_readAll?_nil (h : readAll? fuel st [] = some p) :
    st.open_ = [] ∧ p = st.level.value := by
  cases fuel with
  | zero => cases h
  | succ fuel =>
    rcases readAll?_eq_some h with ⟨-, hopen⟩ | ⟨_, _, hstep, -⟩
    · exact hopen
    · rw [skip_nil] at hstep
      cases hstep

/-- The end of the text adds one item, and no group may be open there. -/
theorem open_of_readAll?_finish (h : readAll? fuel st ['$'] = some p) :
    st.open_ = [] ∧
      p = { st.level with items := ⟨.look st.flags.finish, 0⟩ :: st.level.items }.value := by
  cases fuel with
  | zero => cases h
  | succ fuel =>
    rcases readAll?_eq_some h with ⟨hskip, -⟩ | ⟨st', rest, hstep, hrest⟩
    · rw [skip_finish] at hskip
      cases hskip
    · rw [skip_finish] at hstep
      change (st.add? ⟨.look st.flags.finish, 0⟩).map (·, []) = _ at hstep
      obtain ⟨_, hadd, hpair⟩ := Option.map_eq_some_iff.mp hstep
      cases hpair
      obtain ⟨-, rfl⟩ := ReadState.add?_eq_some hadd
      exact open_of_readAll?_nil hrest

/-- Who has read into the ending leaves no parenthesis to close an open group. -/
theorem open_eq_nil_of_suffix (hrest : rest <:+ ['$']) (h : readAll? fuel st rest = some p) :
    st.open_ = [] := by
  rcases List.suffix_cons_iff.mp hrest with rfl | hnil
  · exact (open_of_readAll?_finish h).1
  · obtain rfl := List.suffix_nil.mp hnil
    exact (open_of_readAll?_nil h).1

/-- What the level around a group holds behind the group and the end of the text. -/
def Level.around (base inner : Level) (q : Piece) : Level :=
  { base with items :=
      ⟨.look inner.outer.finish, 0⟩ :: ⟨.group inner.captures q.expr, q.depth + 1⟩ :: base.items }

/-- The end of the group at the ending. -/
theorem readAll?_at_ending {base : Level} (hopen : st.open_ = [])
    (hstep : (st.inside [base]).step? ending = some (st', rest))
    (hrest : readAll? fuel st' rest = some p) :
    st.level.value.depth < depthLimit ∧ p = (base.around st.level st.level.value).value := by
  obtain ⟨_, hleave, hpair⟩ := Option.map_eq_some_iff.mp hstep
  cases hpair
  obtain ⟨l, more, hbase, hdepth, rfl⟩ := ReadState.leave?_eq_some hleave
  unfold ReadState.inside at hbase
  rw [hopen] at hbase
  cases hbase
  exact ⟨hdepth, (open_of_readAll?_finish hrest).2⟩

/-- **What is read in front of the ending.** In a group a text is read as it is read alone, unless
it closes a group that it does not open. -/
theorem readAll?_ending {base : Level}
    (h : readAll? fuel (st.inside [base]) (cs ++ ending) = some p) :
    ClosesOutside st cs ∨
      ∃ q, (∀ more, cs.length < more → readAll? more st cs = some q) ∧ q.depth < depthLimit ∧
        p = (base.around st.bottom q).value := by
  have hnonempty : ∀ st : ReadState, (st.inside [base]).open_ ≠ [] := fun st =>
    List.append_ne_nil_of_right_ne_nil _ (List.cons_ne_nil _ _)
  induction fuel generalizing st cs with
  | zero => cases h
  | succ fuel ih =>
    rcases readAll?_eq_some h with ⟨-, hopen, -⟩ | ⟨st₁, rest, hstep, hrest⟩
    · exact absurd hopen (hnonempty st)
    change (st.inside [base]).step? (st.flags.skip (cs ++ ending)) = _ at hstep
    rcases st.flags.skip_ending cs with hskip | ⟨-, hskip⟩
    · rw [hskip] at hstep
      by_cases hclose : (st.flags.skip cs ++ ending).head? = some ')' ∧ st.open_ = []
      · -- the group around the text is closed, by its own end or by the text
        obtain ⟨hhead, hopen⟩ := hclose
        cases hcs : st.flags.skip cs with
        | nil =>
          rw [hcs] at hstep
          obtain ⟨hdepth, hp⟩ := readAll?_at_ending hopen hstep hrest
          have hbottom : st.bottom = st.level := by
            unfold ReadState.bottom
            rw [hopen]
            rfl
          refine .inr ⟨st.level.value, fun more hmore => ?_, hdepth, hbottom ▸ hp⟩
          obtain ⟨more, rfl⟩ : ∃ n, more = n + 1 := ⟨more - 1, by omega⟩
          exact readAll?_of_end hcs hopen
        | cons c more =>
          rw [hcs] at hhead
          exact .inl (.here hopen (hcs ▸ hhead))
      · rw [ReadState.step?_inside fun hhead hopen => hclose ⟨hhead, hopen⟩] at hstep
        obtain ⟨⟨st₂, rest⟩, hread, hpair⟩ := Option.map_eq_some_iff.mp hstep
        cases hpair
        rcases (contained_step? st).stays hread with ⟨back, rfl, halone⟩ | hover
        · refine (ih hrest).imp (.later halone) fun ⟨q, hq, hdepth, hp⟩ => ?_
          obtain ⟨hcaptures, houter⟩ := (ReadState.step?_moves halone).bottom
          refine ⟨q, fun more hmore => ?_, hdepth, ?_⟩
          · have hlength := length_of_step? halone
            obtain ⟨more, rfl⟩ : ∃ n, more = n + 1 := ⟨more - 1, by omega⟩
            rw [readAll?_of_step halone]
            exact hq more (by omega)
          · unfold Level.around at hp ⊢
            rw [hcaptures, houter] at hp
            exact hp
        · -- the step took the parenthesis of the ending, and the group around stays open
          exact absurd (open_eq_nil_of_suffix hover hrest) (hnonempty st₂)
    · rw [hskip] at hstep
      cases hstep

/-! ### The whole -/

/-- The level around the group, when the start of the text has been read. -/
def opening : Level := { items := [⟨.look .textStart, 0⟩] }

theorem readAll?_opening :
    readAll? (fuel + 2) {} ("^(?:".toList ++ cs) =
      readAll? fuel (({} : ReadState).inside [opening]) cs := rfl

/-- An expression between the ends of the text. -/
def anchored (r : Regex) : Regex := .seq [.look .textStart, .group false r, .look .textEnd]

theorem readAnchored?_eq_some {r : Regex} (h : readAnchored? cs = some r) :
    ClosesOutside {} cs ∨ ∃ inner, IsExpression cs inner ∧ r = inner.anchored := by
  obtain ⟨p, hread, h⟩ := Option.bind_eq_some_iff.mp h
  split at h
  · cases h
    rw [List.append_assoc] at hread
    change readAll? (_ + 2) {} ("^(?:".toList ++ (cs ++ ending)) = some p at hread
    rw [readAll?_opening] at hread
    refine (readAll?_ending hread).imp_right fun ⟨q, hq, hdepth, hp⟩ => ?_
    refine ⟨q.expr, ⟨q, hq _ (Nat.lt_succ_self _), hdepth.le, rfl⟩, ?_⟩
    rw [hp]
    rfl
  · cases h

/-- Between the ends of the text an expression matches the whole text or nothing. -/
theorem occursIn_anchored (r : Regex) (cs : List Char) :
    r.anchored.occursIn cs = true ↔ r.MatchesWhole cs := by
  rw [occursIn_iff]
  constructor
  · rintro ⟨⟨front, back⟩, ⟨front', back'⟩, rfl, _, ⟨rfl, hstart⟩, _, hleads, _, ⟨rfl, hend⟩, rfl⟩
    obtain rfl := List.getLast?_eq_none_iff.mp (Option.isNone_iff_eq_none.mp hstart)
    obtain rfl := List.head?_eq_none_iff.mp (Option.isNone_iff_eq_none.mp hend)
    have hwhole : front' ++ [] = back := (Leads.onward hleads).whole
    obtain rfl := (List.append_nil front').symm.trans hwhole
    exact hleads
  · intro h
    exact ⟨⟨[], cs⟩, ⟨cs, []⟩, rfl, _, ⟨rfl, rfl⟩, _, h, _, ⟨rfl, rfl⟩, rfl⟩

/-- A text that closes a group that it does not open is no expression. -/
theorem not_isExpression (h : ClosesOutside {} cs) (r : Regex) : ¬IsExpression cs r :=
  fun ⟨_, hread, _⟩ => h.readAll?_ne_some hread

end XmlBinding.Regex

namespace XmlBinding.Textual

open Regex (ClosesOutside IsExpression MatchesWhole)

variable {ρ : Type} {t t' : Textual ρ} {pattern : String} {rule : ρ}

/-- A pattern is anchored and checked on its own: it is accepted only if it is by itself an
expression, its rule is then one for the paths that it matches as a whole, and what is no expression
is refused. -/
structure Anchors (t : Textual ρ) (pattern : String) (rule : ρ) : Prop where
  accepted : ∀ t', t.add pattern rule = .ok t' → ∃ r, IsExpression pattern.toList r ∧
    ∀ path, (MatchesWhole r path → t'.rulesFor path = t.rulesFor path ++ [rule]) ∧
      (¬MatchesWhole r path → t'.rulesFor path = t.rulesFor path)
  refused : (∀ r, ¬IsExpression pattern.toList r) →
    t.add pattern rule = .error (.notAnExpression pattern)

theorem rulesFor_register (e : Entry ρ) (c : Compiled) (path : List Char) :
    ({ t with registered := t.registered ++ [(e, c)] } : Textual ρ).rulesFor path =
      t.rulesFor path ++ if c.accepts path then [e.rule] else [] := by
  unfold rulesFor
  rw [List.filter_append, List.map_append]
  cases hpath : c.accepts path with
  | true => simp [hpath]
  | false => simp [hpath]

theorem add_eq_ok (hdialect : t.dialect = .regex) (h : t.add pattern rule = .ok t') :
    ∃ r, Regex.readAnchored? pattern.toList = some r ∧
      ∀ path, t'.rulesFor path = t.rulesFor path ++ if r.occursIn path then [rule] else [] := by
  unfold add at h
  rw [hdialect] at h
  split at h
  · cases h
  · split at h
    · next hcompile =>
      obtain ⟨r, hr, rfl⟩ := Option.map_eq_some_iff.mp hcompile
      cases h
      exact ⟨r, hr, rulesFor_register _ (.regex r)⟩
    · cases h

theorem add_eq_error (hdialect : t.dialect = .regex) (hpattern : ¬pattern.isEmpty = true)
    (h : Regex.readAnchored? pattern.toList = none) :
    t.add pattern rule = .error (.notAnExpression pattern) := by
  unfold add
  rw [if_neg hpattern, hdialect]
  unfold Dialect.compile?
  rw [h]
  rfl

/-- **Expressions are anchored and checked on their own.** They are so unless a pattern closes a
group that it does not open and is accepted nevertheless. -/
theorem anchoring_law (hdialect : t.dialect = .regex) (pattern : String) (rule : ρ) :
    t.Anchors pattern rule ↔
      (ClosesOutside {} pattern.toList →
        t.add pattern rule = .error (.notAnExpression pattern)) := by
  constructor
  · exact fun hanchors hcloses => hanchors.refused (Regex.not_isExpression hcloses)
  intro hcloses
  constructor
  · intro t' hok
    obtain ⟨r, hr, hrules⟩ := add_eq_ok hdialect hok
    rcases Regex.readAnchored?_eq_some hr with hout | ⟨inner, hinner, rfl⟩
    · rw [hcloses hout] at hok
      cases hok
    · refine ⟨inner, hinner, fun path => ⟨fun hpath => ?_, fun hpath => ?_⟩⟩
      · rw [hrules, if_pos ((Regex.occursIn_anchored inner path).mpr hpath)]
      · rw [hrules, if_neg fun h => hpath ((Regex.occursIn_anchored inner path).mp h),
          List.append_nil]
  · intro hnone
    by_cases hout : ClosesOutside {} pattern.toList
    · exact hcloses hout
    by_cases hempty : pattern.isEmpty = true
    · obtain rfl := String.isEmpty_iff.mp hempty
      exact absurd ⟨_, rfl, Nat.zero_le _, rfl⟩ (hnone .empty)
    · refine add_eq_error hdialect hempty (Option.eq_none_iff_forall_ne_some.mpr fun r hr => ?_)
      obtain ⟨inner, hinner, -⟩ := (Regex.readAnchored?_eq_some hr).resolve_left hout
      exact hnone inner hinner

/-- A choice between two names is anchored. -/
theorem anchoring_law_of_a_choice :
    (({ dialect := .regex } : Textual Nat).add "a|b" 7).isOk = true ∧
      ({ dialect := .regex } : Textual Nat).Anchors "a|b" 7 := by
  refine ⟨by decide +kernel, (anchoring_law rfl "a|b" 7).mpr fun hcloses => ?_⟩
  have hread : Regex.readAll? 4 {} "a|b".toList =
      some ⟨.either [.char 'a', .char 'b'], 1⟩ := rfl
  exact absurd hread hcloses.readAll?_ne_some

/-- The parenthesis in front of the choice closes the group, so the start of the path binds only the
first branch and its end only the second. The pattern is no expression, and it is accepted. -/
theorem choice_outside_the_group :
    (({ dialect := .regex } : Textual Nat).add "a)|(?:b" 7).toOption.map
        (·.rulesFor "ax".toList) = some [7] ∧
      ∀ r, ¬IsExpression "a)|(?:b".toList r := by
  refine ⟨by decide +kernel, fun r ⟨p, hread, _⟩ => ?_⟩
  have hnone : Regex.readAll? 8 {} "a)|(?:b".toList = none := rfl
  exact Option.some_ne_none p (hread.symm.trans hnone)

end XmlBinding.Textual
