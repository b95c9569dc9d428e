import XmlBinding.Dict
import XmlBinding.Proofs.Registered

/-!
# The lists of a matcher

A matcher keeps its registrations several times over: all of them in one list, those under each
pattern in a list of its own, the patterns in the order in which they came, and an extended matcher
has its patterns once more with their shapes. The copies grow at different places, each with a test
of its own for what is new, and are emptied at different places. Below, registering is written once
more with all the copies. Whatever is done, they agree, and together they are the table that the
matcher works on.
-/
namespace XmlBinding

variable {ρ : Type}

/-! ### Registering in several lists -/

/-- The registrations of a plain matcher. -/
structure Index (ρ : Type) where
  /-- The registrations under each pattern. -/
  cache : Dict (List Char) (List (Entry ρ)) := ∅
  /-- The patterns in the order of their first registrations. -/
  keys : List (List Char) := []
  entries : List (Entry ρ) := []
  scope : Option String := none

namespace Index

/-- The list under a pattern, empty if there is none. -/
def slot (x : Index ρ) (key : List Char) : List (Entry ρ) := (x.cache.get? key).getD []

/-- The entry of a registration to come. -/
def entry (x : Index ρ) (key : List Char) (rule : ρ) : Entry ρ :=
  ⟨String.ofList key, x.scope, rule, x.entries.length⟩

/-- Register a rule under a pattern that has been checked. The pattern is new if the list under it
is empty. -/
def register (x : Index ρ) (key : List Char) (rule : ρ) : Index ρ :=
  { x with
    cache := x.cache.insert key (x.slot key ++ [x.entry key rule])
    keys := if (x.slot key).isEmpty then x.keys ++ [key] else x.keys
    entries := x.entries ++ [x.entry key rule] }

def add (x : Index ρ) (pattern : String) (rule : ρ) : Except PatternError (Index ρ) := do
  let key := Pattern.dropFinalSlash pattern.toList
  Pattern.checkPlain key
  return x.register key rule

def clear (x : Index ρ) : Index ρ := { x with cache := ∅, keys := [], entries := [] }

/-- Do one thing. A refused pattern changes nothing. -/
def apply (x : Index ρ) : Registration ρ → Index ρ
  | .add pattern rule => match x.add pattern rule with
    | .ok x' => x'
    | .error _ => x
  | .setScope scope => { x with scope }
  | .clear => x.clear

def replay (x : Index ρ) (history : List (Registration ρ)) : Index ρ := history.foldl apply x

/-- A pattern with what is registered under it. -/
def row (x : Index ρ) (key : List Char) : Row ρ := ⟨key, Pattern.Shape.of key, x.slot key⟩

/-- The registrations as a table. -/
def table (x : Index ρ) : Table ρ := ⟨x.entries, x.keys.map x.row, x.scope⟩

end Index

/-- The registrations of an extended matcher: those of a plain one, and the patterns once more with
their shapes. -/
structure ShapedIndex (ρ : Type) where
  base : Index ρ := {}
  compiled : List (List Char × Pattern.Shape) := []

namespace ShapedIndex

/-- Register a rule under a pattern that has been checked. The pattern is new if there is no list
under it. -/
def register (x : ShapedIndex ρ) (key : List Char) (rule : ρ) : ShapedIndex ρ where
  base := x.base.register key rule
  compiled := if x.base.cache.contains key then x.compiled
    else x.compiled ++ [(key, Pattern.Shape.of key)]

def add (x : ShapedIndex ρ) (pattern : String) (rule : ρ) :
    Except PatternError (ShapedIndex ρ) := do
  let key := Pattern.dropFinalSlash pattern.toList
  Pattern.checkExtended key
  return x.register key rule

def clear (x : ShapedIndex ρ) : ShapedIndex ρ := ⟨x.base.clear, []⟩

/-- Do one thing. A refused pattern changes nothing. -/
def apply (x : ShapedIndex ρ) : Registration ρ → ShapedIndex ρ
  | .add pattern rule => match x.add pattern rule with
    | .ok x' => x'
    | .error _ => x
  | .setScope scope => { x with base := { x.base with scope } }
  | .clear => x.clear

def replay (x : ShapedIndex ρ) (history : List (Registration ρ)) : ShapedIndex ρ :=
  history.foldl apply x

/-- The registrations as a table. -/
def table (x : ShapedIndex ρ) : Table ρ :=
  ⟨x.base.entries, x.compiled.map fun (key, shape) => ⟨key, shape, x.base.slot key⟩, x.base.scope⟩

end ShapedIndex

/-! ### Agreement -/

section

variable {α : Type} [BEq α] [LawfulBEq α] {as : List α} {a : α}

/-- Of what comes again the first occurrence stays. -/
theorem eraseDups_concat_of_mem (h : a ∈ as) : (as ++ [a]).eraseDups = as.eraseDups := by
  rw [List.eraseDups_append, List.removeAll, List.filter_cons_of_neg (by simpa using h)]
  simp

theorem eraseDups_concat_of_not_mem (h : a ∉ as) :
    (as ++ [a]).eraseDups = as.eraseDups ++ [a] := by
  rw [List.eraseDups_append, List.removeAll, List.filter_cons_of_pos (by simpa using h),
    List.eraseDups_cons]
  simp

end

namespace Index

/-- The lists of an index agree: every entry stands in the place of its order, the list under a
pattern holds the entries under it in their order and is not there if there are none, and the
patterns of the entries are listed once each, as they first occur. -/
structure Agrees (x : Index ρ) : Prop where
  order_eq : ∀ (i : Nat) (e : Entry ρ), x.entries[i]? = some e → e.order = i
  slot_eq : ∀ key, x.slot key = x.entries.filter (·.pattern.toList = key)
  ne_nil : ∀ (key : List Char) (es : List (Entry ρ)), x.cache.get? key = some es → es ≠ []
  nodup_keys : x.keys.Nodup
  keys_eq : x.keys = (x.entries.map (·.pattern.toList)).eraseDups

variable {x : Index ρ} {key : List Char}

theorem agrees_empty (scope : Option String) : ({ scope } : Index ρ).Agrees where
  order_eq := nofun
  slot_eq _ := rfl
  ne_nil := nofun
  nodup_keys := List.nodup_nil
  keys_eq := rfl

theorem entries_register (x : Index ρ) (key : List Char) (rule : ρ) :
    (x.register key rule).entries = x.entries ++ [x.entry key rule] := rfl

theorem keys_register (x : Index ρ) (key : List Char) (rule : ρ) :
    (x.register key rule).keys = if (x.slot key).isEmpty then x.keys ++ [key] else x.keys := rfl

theorem get?_register (x : Index ρ) (key other : List Char) (rule : ρ) :
    (x.register key rule).cache.get? other =
      if other = key then some (x.slot key ++ [x.entry key rule]) else x.cache.get? other :=
  Dict.get?_insert ..

theorem slot_register (x : Index ρ) (key other : List Char) (rule : ρ) :
    (x.register key rule).slot other =
      if other = key then x.slot key ++ [x.entry key rule] else x.slot other := by
  rw [slot, get?_register]
  split <;> rfl

theorem pattern_entry (x : Index ρ) (key : List Char) (rule : ρ) :
    (x.entry key rule).pattern.toList = key := String.toList_ofList

namespace Agrees

/-- The listed patterns are those with something in their lists. -/
theorem mem_keys_iff (h : x.Agrees) : key ∈ x.keys ↔ x.slot key ≠ [] := by
  rw [h.keys_eq, List.mem_eraseDups, h.slot_eq, Ne, List.filter_eq_nil_iff, List.mem_map]
  simp

/-- A pattern is new for one test if the list under it is empty. -/
theorem isEmpty_slot_iff (h : x.Agrees) : (x.slot key).isEmpty = true ↔ key ∉ x.keys := by
  rw [h.mem_keys_iff, not_not, List.isEmpty_iff]

/-- A pattern is new for the other test if there is no list under it. -/
theorem contains_iff (h : x.Agrees) : x.cache.contains key = true ↔ key ∈ x.keys := by
  rw [h.mem_keys_iff, Dict.contains, slot]
  cases hget : x.cache.get? key with
  | none => simp
  | some es => simpa using h.ne_nil key es hget

theorem get?_eq_none (h : x.Agrees) (hkey : key ∉ x.keys) : x.cache.get? key = none := by
  rw [← h.contains_iff, Dict.contains, Option.isSome_iff_ne_none, not_not] at hkey
  exact hkey

theorem get?_eq_some (h : x.Agrees) (hkey : key ∈ x.keys) :
    x.cache.get? key = some (x.slot key) := by
  rw [← h.contains_iff, Dict.contains] at hkey
  obtain ⟨es, hes⟩ := Option.isSome_iff_exists.mp hkey
  rw [slot, hes, Option.getD_some]

theorem register (h : x.Agrees) (key : List Char) (rule : ρ) : (x.register key rule).Agrees where
  order_eq := by
    intro i e he
    rw [entries_register, List.getElem?_append] at he
    split at he
    · exact h.order_eq i e he
    · next hle =>
      obtain ⟨hlt, rfl⟩ := List.getElem?_eq_some_iff.mp he
      have hlast : i = x.entries.length := by
        rw [List.length_singleton] at hlt
        omega
      rw [List.getElem_singleton, hlast]
      rfl
  slot_eq := by
    intro other
    rw [slot_register, entries_register, List.filter_append, ← h.slot_eq]
    split
    · next heq => simp [heq, x.pattern_entry]
    · next hne => simp [x.pattern_entry, Ne.symm hne]
  ne_nil := by
    intro other es hes
    rw [get?_register] at hes
    split at hes
    · rw [← Option.some.inj hes]
      exact List.append_ne_nil_of_right_ne_nil _ (List.cons_ne_nil _ _)
    · exact h.ne_nil other es hes
  nodup_keys := by
    rw [keys_register]
    split
    · next hempty =>
      rw [← List.concat_eq_append]
      exact h.nodup_keys.concat (h.isEmpty_slot_iff.mp hempty)
    · exact h.nodup_keys
  keys_eq := by
    have hmem : key ∈ x.entries.map (·.pattern.toList) ↔ key ∈ x.keys := by
      rw [h.keys_eq, List.mem_eraseDups]
    rw [keys_register, entries_register, List.map_append, List.map_singleton, x.pattern_entry]
    split
    · next hempty =>
      have hnew := mt hmem.mp (h.isEmpty_slot_iff.mp hempty)
      rw [eraseDups_concat_of_not_mem hnew, h.keys_eq]
    · next hfull =>
      have hknown := hmem.mpr (not_not.mp (mt h.isEmpty_slot_iff.mpr hfull))
      rw [eraseDups_concat_of_mem hknown, h.keys_eq]

theorem setScope (h : x.Agrees) (scope : Option String) : ({ x with scope } : Index ρ).Agrees :=
  ⟨h.order_eq, h.slot_eq, h.ne_nil, h.nodup_keys, h.keys_eq⟩

/-! ### The table -/

theorem map_key_rows (x : Index ρ) : x.table.rows.map (·.key) = x.keys := by
  rw [table, List.map_map]
  exact List.map_id' _

theorem row_register (x : Index ρ) (key other : List Char) (rule : ρ) :
    (x.register key rule).row other = Table.grow key (x.entry key rule) (x.row other) := by
  rw [row, slot_register, Table.grow]
  split
  · next heq =>
    subst heq
    exact (if_pos rfl).symm
  · next hne => exact (if_neg hne).symm

/-- Registering in all the lists is registering in the table. -/
theorem table_register (h : x.Agrees) (key : List Char) (rule : ρ) :
    (x.register key rule).table = x.table.register key rule := by
  have hkeys := map_key_rows x
  have hrows : (x.register key rule).keys.map (x.register key rule).row =
      Table.file key (x.entry key rule) x.table.rows := by
    rw [List.map_congr_left fun other _ => row_register x key other rule, keys_register]
    split
    · next hempty =>
      have hnew := h.isEmpty_slot_iff.mp hempty
      have hold : x.keys.map (fun other => Table.grow key (x.entry key rule) (x.row other)) =
          x.table.rows :=
        List.map_congr_left fun other hother =>
          Table.grow_of_ne (ne_of_mem_of_not_mem hother hnew) _
      have hlast : Table.grow key (x.entry key rule) (x.row key) =
          ⟨key, Pattern.Shape.of key, [x.entry key rule]⟩ := by
        refine (Table.grow_self (x.row key) _).trans ?_
        rw [row, List.isEmpty_iff.mp hempty]
        rfl
      rw [Table.file_of_not_mem (hkeys ▸ hnew), List.map_append, hold, List.map_singleton, hlast]
    · next hfull =>
      have hknown := not_not.mp (mt h.isEmpty_slot_iff.mpr hfull)
      rw [Table.file_of_mem (hkeys ▸ h.nodup_keys) (hkeys ▸ hknown), table, List.map_map]
      rfl
  exact congrArg (Table.mk (x.entries ++ [x.entry key rule]) · x.scope) hrows

/-- The table finds under a pattern what the list under it holds. -/
theorem lookup?_table (h : x.Agrees) (key : List Char) :
    x.table.lookup? key = x.cache.get? key := by
  by_cases hkey : key ∈ x.keys
  · have hnodup : (x.table.rows.map (·.key)).Nodup := (map_key_rows x).symm ▸ h.nodup_keys
    have hrow : x.row key ∈ x.table.rows := List.mem_map_of_mem hkey
    rw [h.get?_eq_some hkey]
    exact Table.find?_key hnodup hrow
  · rw [h.get?_eq_none hkey, Table.lookup?, Table.find?_eq_none, map_key_rows]
    exact hkey

end Agrees

end Index

namespace ShapedIndex

/-- The lists of an extended matcher agree: the patterns with shapes are those of the index, in the
same order, each with its own shape. -/
structure Agrees (x : ShapedIndex ρ) : Prop where
  base : x.base.Agrees
  compiled_eq : x.compiled = x.base.keys.map fun key => (key, Pattern.Shape.of key)

variable {x : ShapedIndex ρ}

theorem agrees_empty (scope : Option String) : (⟨{ scope }, []⟩ : ShapedIndex ρ).Agrees :=
  ⟨Index.agrees_empty scope, rfl⟩

theorem Agrees.table_eq (h : x.Agrees) : x.table = x.base.table := by
  rw [table, h.compiled_eq, List.map_map]
  rfl

theorem Agrees.register (h : x.Agrees) (key : List Char) (rule : ρ) :
    (x.register key rule).Agrees where
  base := h.base.register key rule
  compiled_eq := by
    change (if x.base.cache.contains key then x.compiled
      else x.compiled ++ [(key, Pattern.Shape.of key)]) = (x.base.register key rule).keys.map _
    rw [Index.keys_register, h.compiled_eq]
    by_cases hkey : key ∈ x.base.keys
    · rw [if_pos (h.base.contains_iff.mpr hkey),
        if_neg (mt h.base.isEmpty_slot_iff.mp (not_not.mpr hkey))]
    · rw [if_neg (mt h.base.contains_iff.mp hkey), if_pos (h.base.isEmpty_slot_iff.mpr hkey),
        List.map_append, List.map_singleton]

theorem Agrees.table_register (h : x.Agrees) (key : List Char) (rule : ρ) :
    (x.register key rule).table = x.table.register key rule := by
  rw [(h.register key rule).table_eq, h.table_eq]
  exact h.base.table_register key rule

theorem Agrees.lookup?_table (h : x.Agrees) (key : List Char) :
    x.table.lookup? key = x.base.cache.get? key := by
  rw [h.table_eq]
  exact h.base.lookup?_table key

end ShapedIndex

/-! ### Histories -/

theorem Index.add_eq (x : Index ρ) (pattern : String) (rule : ρ) :
    x.add pattern rule = (Pattern.checkPlain (Pattern.dropFinalSlash pattern.toList)).map fun _ =>
      x.register (Pattern.dropFinalSlash pattern.toList) rule := by
  unfold Index.add
  dsimp only
  cases Pattern.checkPlain (Pattern.dropFinalSlash pattern.toList) <;> rfl

theorem ShapedIndex.add_eq (x : ShapedIndex ρ) (pattern : String) (rule : ρ) :
    x.add pattern rule =
      (Pattern.checkExtended (Pattern.dropFinalSlash pattern.toList)).map fun _ =>
        x.register (Pattern.dropFinalSlash pattern.toList) rule := by
  unfold ShapedIndex.add
  dsimp only
  cases Pattern.checkExtended (Pattern.dropFinalSlash pattern.toList) <;> rfl

/-- One thing done to an index is done to its table. -/
theorem Index.Agrees.apply {x : Index ρ} (h : x.Agrees) (done : Registration ρ) :
    (x.apply done).Agrees ∧ Matcher.apply (.plain x.table) done = .plain (x.apply done).table := by
  cases done with
  | add pattern rule =>
    simp only [Index.apply, Matcher.apply, Matcher.add, Plain.add, Table.add_eq, Index.add_eq]
    cases Pattern.checkPlain (Pattern.dropFinalSlash pattern.toList) with
    | error cause => exact ⟨h, rfl⟩
    | ok _ => exact ⟨h.register _ rule, congrArg Matcher.plain (h.table_register _ rule).symm⟩
  | setScope scope => exact ⟨h.setScope scope, rfl⟩
  | clear => exact ⟨Index.agrees_empty x.scope, rfl⟩

theorem ShapedIndex.Agrees.apply {x : ShapedIndex ρ} (h : x.Agrees) (done : Registration ρ) :
    (x.apply done).Agrees ∧
      Matcher.apply (.extended x.table) done = .extended (x.apply done).table := by
  cases done with
  | add pattern rule =>
    simp only [ShapedIndex.apply, Matcher.apply, Matcher.add, Extended.add, Table.add_eq,
      ShapedIndex.add_eq]
    cases Pattern.checkExtended (Pattern.dropFinalSlash pattern.toList) with
    | error cause => exact ⟨h, rfl⟩
    | ok _ => exact ⟨h.register _ rule, congrArg Matcher.extended (h.table_register _ rule).symm⟩
  | setScope scope => exact ⟨⟨h.base.setScope scope, h.compiled_eq⟩, rfl⟩
  | clear => exact ⟨ShapedIndex.agrees_empty x.base.scope, rfl⟩

/-- A store that follows a matcher in every step follows it through every history. -/
theorem Matcher.replay_of_apply {σ : Type} {step : σ → Registration ρ → σ} (Sound : σ → Prop)
    (view : σ → Matcher ρ)
    (hstep : ∀ {x}, Sound x → ∀ done, Sound (step x done) ∧
      (view x).apply done = view (step x done)) {x : σ} (h : Sound x)
    (history : List (Registration ρ)) : Sound (history.foldl step x) ∧
      (view x).replay history = view (history.foldl step x) := by
  induction history generalizing x with
  | nil => exact ⟨h, rfl⟩
  | cons done rest ih =>
    obtain ⟨hsound, happly⟩ := hstep h done
    obtain ⟨hend, hreplay⟩ := ih hsound
    refine ⟨hend, ?_⟩
    rw [List.foldl_cons, ← hreplay, ← happly]
    rfl

/-- **The lists of a matcher agree.** Whatever is registered, refused, scoped and cleared, in any
order: every entry stands in the place of its order; the list under a pattern holds the entries
under it and is there only if there are some; the patterns of the entries are listed once each, in
the order of their first occurrences; and an extended matcher has the same patterns in the same
order with their shapes. These lists together are the table that the matcher works on, and what the
table finds under a pattern is the list under it. -/
theorem tables_law (history : List (Registration ρ)) :
    let x := Index.replay {} history
    let y := ShapedIndex.replay {} history
    (x.Agrees ∧ Matcher.replay (.plain {}) history = .plain x.table ∧
        ∀ key, x.table.lookup? key = x.cache.get? key) ∧
      y.Agrees ∧ Matcher.replay (.extended {}) history = .extended y.table ∧
        ∀ key, y.table.lookup? key = y.base.cache.get? key := by
  intro x y
  obtain ⟨hx, hplain⟩ := Matcher.replay_of_apply Index.Agrees (fun x => .plain x.table)
    Index.Agrees.apply (Index.agrees_empty none) history
  obtain ⟨hy, hextended⟩ := Matcher.replay_of_apply ShapedIndex.Agrees (fun y => .extended y.table)
    ShapedIndex.Agrees.apply (ShapedIndex.agrees_empty none) history
  exact ⟨⟨hx, hplain, hx.lookup?_table⟩, hy, hextended, hy.lookup?_table⟩

/-- A refused pattern, a pattern that comes twice in two scopes, and a pattern from before. -/
example : (ShapedIndex.replay {} [.add "a/?" 0, .clear, .add "b" 1, .add "?" 2, .setScope (some "u"),
    .add "!a/*" 3, .add "b/" 4]).compiled.map Prod.fst = ["b".toList, "!a/*".toList] := by
  decide +kernel

end XmlBinding
