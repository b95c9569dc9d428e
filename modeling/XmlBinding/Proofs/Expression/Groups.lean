import XmlBinding.Pattern.Regex.Reader

/-!
# Open groups

What is read does not depend on the groups that are open around it, as long as none of them is
closed. A step changes what the group on top holds, opens a group or closes one; whether a group
captures and the modes outside it are settled when it is opened.
-/
namespace XmlBinding.Regex

namespace ReadState

variable {st st' : ReadState} {below : List Level} {cs rest : List Char}

/-! ### Inside further groups -/

/-- The same state inside further open groups. -/
def inside (st : ReadState) (below : List Level) : ReadState :=
  { st with open_ := st.open_ ++ below }

/-- What a reader leads to, inside further open groups. -/
def lift (below : List Level) (p : ReadState × List Char) : ReadState × List Char :=
  (p.1.inside below, p.2)

theorem add?_inside (p : Piece) : (st.inside below).add? p = (st.add? p).map (·.inside below) := by
  unfold add?
  split
  · rfl
  · rfl

theorem leave?_inside (hopen : st.open_ ≠ []) :
    (st.inside below).leave? = st.leave?.map (·.inside below) := by
  obtain ⟨l, more, hl⟩ := List.exists_cons_of_ne_nil hopen
  have hinside : (st.inside below).open_ = l :: (more ++ below) := by
    unfold inside
    rw [hl]
    rfl
  unfold leave?
  rw [hinside, hl]
  exact @add?_inside { st with level := l, open_ := more, flags := st.level.outer } below _

theorem repeatLast?_inside (least : Nat) (most : Option Nat) (isLazy : Bool) :
    (st.inside below).repeatLast? least most isLazy =
      (st.repeatLast? least most isLazy).map (·.inside below) := by
  unfold repeatLast?
  dsimp only [inside]
  split
  · rfl
  · rfl
  · exact @add?_inside { st with level := { st.level with items := _ } } below _

theorem map_inside {o : Option ReadState} :
    (o.map (·.inside below)).map (·, rest) = (o.map (·, rest)).map (lift below) := by
  cases o <;> rfl

theorem repeat?_inside (least : Nat) (most : Option Nat) :
    (st.inside below).repeat? least most cs = (st.repeat? least most cs).map (lift below) := by
  unfold repeat?
  split
  · rw [repeatLast?_inside, map_inside]
  · rw [repeatLast?_inside, map_inside]

theorem named?_inside : (st.inside below).named? cs = (st.named? cs).map (lift below) := by
  unfold named?
  dsimp only [inside]
  cases groupName? cs with
  | none => rfl
  | some p =>
    refine Eq.trans ?_ (apply_ite (Option.map (lift below)) (st.names.contains p.1 = true) _ _).symm
    rfl

theorem switched?_inside : (st.inside below).switched? cs = (st.switched? cs).map (lift below) := by
  unfold switched?
  dsimp only [inside]
  cases switches? st.flags [] true false cs with
  | none => rfl
  | some p =>
    obtain ⟨⟨fl, mark⟩, rest⟩ := p
    refine Eq.trans ?_ (apply_ite (Option.map (lift below)) (mark = ':') _ _).symm
    rw [← map_inside, ← add?_inside]
    rfl

theorem special?_inside : (st.inside below).special? cs = (st.special? cs).map (lift below) := by
  unfold special?
  split
  · exact named?_inside
  · exact named?_inside
  · rfl
  · exact switched?_inside

theorem group?_inside : (st.inside below).group? cs = (st.group? cs).map (lift below) := by
  unfold group?
  split
  · exact special?_inside
  · rfl

theorem add?_bind_inside (p : Piece) :
    ((st.inside below).add? p >>= fun st => some (st, rest)) =
      (st.add? p >>= fun st => some (st, rest)).map (lift below) := by
  rw [add?_inside]
  cases st.add? p <;> rfl

theorem add?_map_inside (p : Piece) :
    ((st.inside below).add? p).map (·, rest) = ((st.add? p).map (·, rest)).map (lift below) := by
  rw [add?_inside, map_inside]

/-- A step is the same inside further open groups, unless it closes the outermost one. -/
theorem step?_inside (hclose : cs.head? = some ')' → st.open_ ≠ []) :
    (st.inside below).step? cs = (st.step? cs).map (lift below) := by
  unfold step?
  split
  · rfl
  · exact group?_inside
  · rw [leave?_inside (hclose rfl), map_inside]
  · rfl
  · next rest =>
    dsimp only [inside]
    cases st.flags.class? rest with
    | none => rfl
    | some p => exact add?_bind_inside _
  · exact repeat?_inside _ _
  · exact repeat?_inside _ _
  · exact repeat?_inside _ _
  · next rest =>
    dsimp only [inside]
    cases st.flags.bounds? rest with
    | none => rfl
    | some p => exact repeat?_inside _ _
  · dsimp only [inside]
    cases st.flags.dot? with
    | none => rfl
    | some r => exact add?_bind_inside ⟨r, 0⟩
  · exact add?_map_inside _
  · exact add?_map_inside _
  · next rest =>
    dsimp only [inside]
    cases st.flags.escape? rest with
    | none => rfl
    | some p => exact add?_bind_inside ⟨st.flags.atom p.1, 0⟩
  · exact add?_map_inside _

/-! ### What a step can do -/

/-- One group is filled, opened or closed. -/
inductive Moves (st : ReadState) : ReadState → Prop
  | fill (branches items : List Piece) (flags : Flags) (names : List (List Char)) :
    Moves st { st with level := { st.level with branches, items }, flags, names }
  | enter (captures : Bool) (inner : Flags) (names : List (List Char)) :
    Moves st { st.enter captures inner with names }
  | leave {st' : ReadState} (h : st.leave? = some st') : Moves st st'

theorem add?_eq_some {p : Piece} (h : st.add? p = some st') :
    p.depth ≤ depthLimit ∧
      st' = { st with level := { st.level with items := p :: st.level.items } } := by
  unfold add? at h
  split at h
  · next hdepth =>
    cases h
    exact ⟨hdepth, rfl⟩
  · cases h

theorem Moves.add (flags : Flags) {p : Piece} (h : { st with flags }.add? p = some st') :
    Moves st st' := by
  obtain ⟨-, rfl⟩ := add?_eq_some h
  exact .fill st.level.branches _ flags st.names

theorem repeatLast?_moves {least : Nat} {most : Option Nat} {isLazy : Bool}
    (h : st.repeatLast? least most isLazy = some st') : Moves st st' := by
  unfold repeatLast? at h
  split at h
  · cases h
  · cases h
  · obtain ⟨-, rfl⟩ := add?_eq_some h
    exact .fill st.level.branches _ st.flags st.names

theorem repeat?_moves {least : Nat} {most : Option Nat}
    (h : st.repeat? least most cs = some (st', rest)) : Moves st st' := by
  have hlast : ∀ {isLazy : Bool} {back : List Char},
      (st.repeatLast? least most isLazy).map (·, back) = some (st', rest) → Moves st st' := by
    intro isLazy back h
    obtain ⟨_, hrepeat, hpair⟩ := Option.map_eq_some_iff.mp h
    cases hpair
    exact repeatLast?_moves hrepeat
  unfold repeat? at h
  split at h
  · exact hlast h
  · exact hlast h

theorem named?_moves (h : st.named? cs = some (st', rest)) : Moves st st' := by
  unfold named? at h
  split at h
  · split at h
    · cases h
    · cases h
      exact .enter true st.flags _
  · cases h

theorem switched?_moves (h : st.switched? cs = some (st', rest)) : Moves st st' := by
  obtain ⟨⟨⟨fl, mark⟩, back⟩, -, h⟩ := Option.bind_eq_some_iff.mp h
  dsimp only at h
  split at h
  · cases h
    exact .enter false fl st.names
  · obtain ⟨_, hadd, hpair⟩ := Option.map_eq_some_iff.mp h
    cases hpair
    exact .add fl hadd

theorem special?_moves (h : st.special? cs = some (st', rest)) : Moves st st' := by
  unfold special? at h
  split at h
  · exact named?_moves h
  · exact named?_moves h
  · cases h
  · exact switched?_moves h

theorem group?_moves (h : st.group? cs = some (st', rest)) : Moves st st' := by
  unfold group? at h
  split at h
  · exact special?_moves h
  · cases h
    exact .enter true st.flags st.names

theorem step?_moves (h : st.step? cs = some (st', rest)) : Moves st st' := by
  have hadd : ∀ {p : Piece} {back : List Char},
      (st.add? p).map (·, back) = some (st', rest) → Moves st st' := by
    intro p back h
    obtain ⟨_, hadd, hpair⟩ := Option.map_eq_some_iff.mp h
    cases hpair
    exact .add st.flags hadd
  have hbind : ∀ {p : Piece} {back : List Char},
      (st.add? p >>= fun st => some (st, back)) = some (st', rest) → Moves st st' := by
    intro p back h
    obtain ⟨_, hadd, hpair⟩ := Option.bind_eq_some_iff.mp h
    cases hpair
    exact .add st.flags hadd
  unfold step? at h
  split at h
  · cases h
  · exact group?_moves h
  · obtain ⟨_, hleave, hpair⟩ := Option.map_eq_some_iff.mp h
    cases hpair
    exact .leave hleave
  · cases h
    exact .fill _ [] st.flags st.names
  · obtain ⟨_, -, h⟩ := Option.bind_eq_some_iff.mp h
    exact hbind h
  · exact repeat?_moves h
  · exact repeat?_moves h
  · exact repeat?_moves h
  · obtain ⟨_, -, h⟩ := Option.bind_eq_some_iff.mp h
    exact repeat?_moves h
  · obtain ⟨_, -, h⟩ := Option.bind_eq_some_iff.mp h
    exact hbind h
  · exact hadd h
  · exact hadd h
  · obtain ⟨_, -, h⟩ := Option.bind_eq_some_iff.mp h
    exact hbind h
  · exact hadd h

/-! ### The outermost group -/

/-- The outermost level, which is the one on top if no group is open. -/
def bottom (st : ReadState) : Level := st.open_.getLast?.getD st.level

/-- The group on top as an item. -/
def closed (st : ReadState) : Piece :=
  ⟨.group st.level.captures st.level.value.expr, st.level.value.depth + 1⟩

theorem leave?_eq_some (h : st.leave? = some st') :
    ∃ l more, st.open_ = l :: more ∧ st.closed.depth ≤ depthLimit ∧
      st' = { st with level := { l with items := st.closed :: l.items }, open_ := more,
                      flags := st.level.outer } := by
  unfold leave? at h
  split at h
  · cases h
  · next l more hopen => exact ⟨l, more, hopen, add?_eq_some h⟩

/-- Whether the outermost group captures, and the modes outside it, stay as they were. -/
theorem Moves.bottom (h : Moves st st') :
    st'.bottom.captures = st.bottom.captures ∧ st'.bottom.outer = st.bottom.outer := by
  unfold ReadState.bottom
  cases h with
  | fill => cases st.open_.getLast? <;> exact ⟨rfl, rfl⟩
  | enter =>
    unfold ReadState.enter
    rw [List.getLast?_cons]
    exact ⟨rfl, rfl⟩
  | leave h =>
    obtain ⟨l, more, hopen, -, rfl⟩ := leave?_eq_some h
    rw [hopen, List.getLast?_cons]
    cases more.getLast? <;> exact ⟨rfl, rfl⟩

end ReadState

end XmlBinding.Regex
