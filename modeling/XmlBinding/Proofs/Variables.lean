import XmlBinding.Expansion
import XmlBinding.Proofs.Anchoring

/-!
# What expansion replaces

A text falls in exactly one way into references and single characters when it is read from left to
right and a reference is taken wherever one begins. Expansion shows these items one after the
other, a reference to a variable by its value, so nothing that a value contributes is read again.
-/
namespace XmlBinding

/-- A text begins with a reference to `name`. -/
structure BeginsWith (cs name after : List Char) : Prop where
  text : cs = '$' :: '\x7b' :: (name ++ '\x7d' :: after)
  named : name ≠ []
  closes : '\x7d' ∉ name

/-- A text holds a reference to `name`, be it inside another one. -/
def Mentions (cs name : List Char) : Prop :=
  ∃ front back after, cs = front ++ back ∧ BeginsWith back name after

/-- What is taken from a text at once. -/
inductive Item
  | char (c : Char)
  | reference (name : List Char)
  deriving DecidableEq

namespace Item

def written : Item → List Char
  | .char c => [c]
  | .reference name => '$' :: '\x7b' :: (name ++ ['\x7d'])

/-- What stands in place of an item where variables have values. -/
def shown (value? : String → Option String) : Item → List Char
  | .char c => [c]
  | .reference name => match value? (String.ofList name) with
    | some value => value.toList
    | none => written (.reference name)

end Item

/-- A text falls into items: a reference where one begins, else a character. -/
inductive FallsInto : List Char → List Item → Prop
  | done : FallsInto [] []
  | reference {cs name after items} : BeginsWith cs name after → FallsInto after items →
    FallsInto cs (.reference name :: items)
  | char {c rest items} : (∀ name after, ¬BeginsWith (c :: rest) name after) →
    FallsInto rest items → FallsInto (c :: rest) (.char c :: items)

variable {cs name after : List Char} {items other : List Item}
variable {f g : String → Option String}

/-! ### The first item -/

theorem BeginsWith.takes (h : BeginsWith cs name after) : reference? cs = some (name, after) := by
  obtain ⟨rfl, hname, hcloses⟩ := h
  have hinside : ∀ c ∈ name, decide (c ≠ '\x7d') = true := fun c hc =>
    decide_eq_true fun hcontra => hcloses (hcontra ▸ hc)
  have htake : (name ++ '\x7d' :: after).takeWhile (· ≠ '\x7d') = name := by
    rw [List.takeWhile_append_of_pos hinside]
    simp
  have hdrop : (name ++ '\x7d' :: after).dropWhile (· ≠ '\x7d') = '\x7d' :: after := by
    rw [List.dropWhile_append_of_pos hinside]
    simp
  have hempty : name.isEmpty = false := List.isEmpty_eq_false_iff.mpr hname
  rw [reference?, htake, hdrop]
  simp [hempty]

/-- A reference is found where one begins. -/
theorem reference?_eq_some_iff :
    reference? cs = some (name, after) ↔ BeginsWith cs name after := by
  refine ⟨fun h => ?_, BeginsWith.takes⟩
  unfold reference? at h
  split at h
  case h_2 => cases h
  case h_1 rest =>
    dsimp only at h
    split at h
    case h_2 => cases h
    case h_1 d after' hdrop =>
      by_cases hempty : (rest.takeWhile (· ≠ '\x7d')).isEmpty = true
      · rw [if_pos hempty] at h
        cases h
      · rw [if_neg hempty] at h
        cases h
        have hd : d = '\x7d' := by
          have hhead := List.head?_dropWhile_not (· ≠ '\x7d') rest
          rw [hdrop] at hhead
          simpa using hhead
        refine ⟨?_, fun hnil => hempty (by rw [hnil]; rfl), fun hmem => ?_⟩
        · have hrest := List.takeWhile_append_dropWhile (p := (· ≠ '\x7d')) (l := rest)
          rw [hdrop, hd] at hrest
          rw [hrest]
        · simpa using List.all_eq_true.mp List.all_takeWhile _ hmem

theorem reference?_eq_none_iff :
    reference? cs = none ↔ ∀ name after, ¬BeginsWith cs name after := by
  rw [Option.eq_none_iff_forall_ne_some, Prod.forall]
  exact forall_congr' fun name => forall_congr' fun after => not_congr reference?_eq_some_iff

theorem not_beginsWith_nil : ¬BeginsWith [] name after := fun h => by cases h.text

/-! ### All items -/

theorem exists_fallsInto (cs : List Char) : ∃ items, FallsInto cs items := by
  induction cs using expandChars.induct (fun _ => none) with
  | case1 cs name after h hlength ih =>
    obtain ⟨items, hitems⟩ := ih
    exact ⟨_, .reference (reference?_eq_some_iff.mp h) hitems⟩
  | case2 => exact ⟨[], .done⟩
  | case3 c rest h ih =>
    obtain ⟨items, hitems⟩ := ih
    exact ⟨_, .char (reference?_eq_none_iff.mp h) hitems⟩

theorem FallsInto.unique (h : FallsInto cs items) (h' : FallsInto cs other) : items = other := by
  induction h generalizing other with
  | done =>
    cases h' with
    | done => rfl
    | reference hbegins => exact absurd hbegins not_beginsWith_nil
  | reference hbegins _ ih =>
    cases h' with
    | done => exact absurd hbegins not_beginsWith_nil
    | reference hbegins' hrest =>
      have hsame := Option.some.inj (hbegins.takes.symm.trans hbegins'.takes)
      cases hsame
      rw [ih hrest]
    | char hnone => exact absurd hbegins (hnone _ _)
  | char hnone _ ih =>
    cases h' with
    | reference hbegins => exact absurd hbegins (hnone _ _)
    | char _ hrest => rw [ih hrest]

/-- Nothing of a text is lost. -/
theorem FallsInto.written (h : FallsInto cs items) : items.flatMap Item.written = cs := by
  induction h with
  | done => rfl
  | reference hbegins _ ih =>
    rw [List.flatMap_cons, ih, hbegins.text]
    simp [Item.written]
  | char _ _ ih =>
    rw [List.flatMap_cons, ih]
    rfl

theorem FallsInto.mentions (h : FallsInto cs items) (hmem : .reference name ∈ items) :
    Mentions cs name := by
  induction h with
  | done => cases hmem
  | @reference cs name' after items hbegins _ ih =>
    rcases List.mem_cons.mp hmem with hsame | hrest
    · cases hsame
      exact ⟨[], cs, after, rfl, hbegins⟩
    · obtain ⟨front, back, after', hcs, hback⟩ := ih hrest
      refine ⟨'$' :: '\x7b' :: (name' ++ '\x7d' :: front), back, after', ?_, hback⟩
      rw [hbegins.text, hcs]
      simp
  | @char c rest items _ _ ih =>
    rcases List.mem_cons.mp hmem with hsame | hrest
    · cases hsame
    · obtain ⟨front, back, after', hcs, hback⟩ := ih hrest
      exact ⟨c :: front, back, after', by rw [hcs]; rfl, hback⟩

/-- The full pass shows one item after the other. -/
theorem FallsInto.expandChars_eq (h : FallsInto cs items) :
    expandChars f cs = items.flatMap (Item.shown f) := by
  induction h with
  | done =>
    rw [expandChars]
    rfl
  | reference hbegins _ ih =>
    rw [expandChars, List.flatMap_cons, ← ih]
    split
    · next name' after' hthis =>
      rw [hbegins.takes] at hthis
      cases hthis
      rfl
    · next hthis =>
      rw [hbegins.takes] at hthis
      cases hthis
  | char hnone _ ih =>
    rw [expandChars, List.flatMap_cons, ← ih]
    split
    · next hthis => exact absurd (reference?_eq_some_iff.mp hthis) (hnone _ _)
    · rfl

theorem flatMap_shown_congr
    (h : ∀ name, .reference name ∈ items →
      f (String.ofList name) = g (String.ofList name)) :
    items.flatMap (Item.shown f) = items.flatMap (Item.shown g) := by
  rw [List.flatMap_def, List.flatMap_def]
  refine congrArg List.flatten (List.map_congr_left fun item hitem => ?_)
  cases item with
  | char c => rfl
  | reference name => rw [Item.shown, Item.shown, h name hitem]

/-- References to unknown variables are shown as they are written. -/
theorem flatMap_shown_of_unknown
    (h : ∀ name, .reference name ∈ items → f (String.ofList name) = none) :
    items.flatMap (Item.shown f) = items.flatMap Item.written := by
  rw [List.flatMap_def, List.flatMap_def]
  refine congrArg List.flatten (List.map_congr_left fun item hitem => ?_)
  cases item with
  | char c => rfl
  | reference name => rw [Item.shown, h name hitem]

theorem opensReference_append (front : List Char) (h : opensReference cs = true) :
    opensReference (front ++ cs) = true := by
  induction front with
  | nil => exact h
  | cons c front ih =>
    rw [List.cons_append, opensReference, ih, Bool.or_true]

theorem Mentions.opens (h : Mentions cs name) : opensReference cs = true := by
  obtain ⟨front, back, after, rfl, hback⟩ := h
  refine opensReference_append front ?_
  rw [hback.text]
  rfl

/-- A text that is returned without being read has no references. -/
theorem FallsInto.expand_eq (e : Expander) {s : String} (h : FallsInto s.toList items) :
    (e.expand s).toList = items.flatMap (Item.shown e.values.get?) := by
  unfold Expander.expand
  by_cases hopens : opensReference s.toList = true
  · rw [if_pos hopens, String.toList_ofList, h.expandChars_eq]
  · rw [if_neg hopens, flatMap_shown_of_unknown fun name hmem =>
      absurd (h.mentions hmem).opens hopens, h.written]

/-! ### The expression for a reference -/

/-- What a name is made of. -/
def inName : Text.CodeSet := .compl (.single '\x7d')

/-- A reference as an expression. -/
def referenceExpression : Regex :=
  .seq [.char '$', .char '\x7b', .group true (.times 1 none true (.set inName)), .char '\x7d']

theorem isExpression_reference :
    Regex.IsExpression "\\$\\\x7b([^\x7d]+)\\\x7d".toList referenceExpression :=
  ⟨_, rfl, by decide, rfl⟩

theorem contains_inName_iff {c : Char} : inName.contains c = true ↔ c ≠ '\x7d' := by
  have hcuts : inName = ⟨[0, 125, 126, 1114112]⟩ := by decide
  have hbound : c.toNat < 1114112 := by
    have hvalid := c.valid
    simp only [UInt32.isValidChar, Nat.isValidChar] at hvalid
    change c.val.toNat < _
    omega
  have hchar : c = '\x7d' ↔ c.toNat = 125 := ⟨by rintro rfl; rfl, fun h => Char.toNat_inj.mp h⟩
  rw [hcuts, Ne, hchar, Text.CodeSet.contains, Text.CodeSet.member]
  simp only [Text.CodeSet.memberFrom]
  split <;> grind

/-- Characters of a set, one after the other. -/
theorem iterated_set_iff {members : Text.CodeSet} {n : Nat} {p q : Regex.Split} :
    Regex.Iterated (Regex.Leads (.set members)) n p q ↔
      ∃ taken : List Char, taken.length = n ∧ (∀ c ∈ taken, members.contains c = true) ∧
        p.back = taken ++ q.back ∧ q.front = p.front ++ taken := by
  induction n generalizing p with
  | zero =>
    constructor
    · rintro ⟨⟩
      exact ⟨[], rfl, nofun, rfl, (List.append_nil _).symm⟩
    · rintro ⟨taken, hlength, -, hback, hfront⟩
      obtain rfl := List.length_eq_zero_iff.mp hlength
      rw [List.append_nil] at hfront
      cases p
      cases q
      cases hback
      cases hfront
      rfl
  | succ n ih =>
    constructor
    · rintro ⟨m, ⟨c, hc, hback, hfront⟩, hrest⟩
      obtain ⟨taken, hlength, hmembers, hback', hfront'⟩ := ih.mp hrest
      refine ⟨c :: taken, congrArg (· + 1) hlength, ?_, ?_, ?_⟩
      · exact List.forall_mem_cons.mpr ⟨hc, hmembers⟩
      · rw [hback, hback']
        rfl
      · rw [hfront', hfront, List.append_assoc]
        rfl
    · rintro ⟨taken, hlength, hmembers, hback, hfront⟩
      cases taken with
      | nil => cases hlength
      | cons c taken =>
        obtain ⟨hc, hmembers⟩ := List.forall_mem_cons.mp hmembers
        refine ⟨⟨p.front ++ [c], taken ++ q.back⟩, ⟨c, hc, hback, rfl⟩, ih.mpr ?_⟩
        refine ⟨taken, Nat.succ.inj hlength, hmembers, rfl, ?_⟩
        rw [hfront, List.append_assoc]
        rfl

/-- The expression matches a reference where one begins, and nothing else. -/
theorem leads_referenceExpression_iff {front : List Char} {q : Regex.Split} :
    referenceExpression.Leads ⟨front, cs⟩ q ↔
      ∃ name after, BeginsWith cs name after ∧
        q = ⟨front ++ Item.written (.reference name), after⟩ := by
  have hname : ∀ name : List Char, (∀ c ∈ name, inName.contains c = true) ↔ '\x7d' ∉ name := by
    intro name
    simp only [contains_inName_iff]
    exact ⟨fun h hmem => h _ hmem rfl, fun h c hc hcontra => h (hcontra ▸ hc)⟩
  constructor
  · rintro ⟨m₁, ⟨hback₁, hfront₁⟩, m₂, ⟨hback₂, hfront₂⟩, m₃, ⟨n, hleast, -, hrounds⟩, m₄,
      ⟨hback₄, hfront₄⟩, rfl⟩
    obtain ⟨name, hlength, hmembers, hback₃, hfront₃⟩ := iterated_set_iff.mp hrounds
    refine ⟨name, m₄.back, ⟨?_, ?_, (hname name).mp hmembers⟩, ?_⟩
    · rw [← hback₄, ← hback₃, ← hback₂]
      exact hback₁
    · exact List.ne_nil_of_length_pos (hlength ▸ hleast)
    · cases m₄
      simp_all [Item.written]
  · rintro ⟨name, after, ⟨rfl, hnonempty, hcloses⟩, rfl⟩
    let opening := front ++ ['$'] ++ ['\x7b']
    have hrounds : Regex.Iterated (Regex.Leads (.set inName)) name.length
        ⟨opening, name ++ '\x7d' :: after⟩ ⟨opening ++ name, '\x7d' :: after⟩ :=
      iterated_set_iff.mpr ⟨name, rfl, (hname name).mpr hcloses, rfl, rfl⟩
    refine ⟨⟨front ++ ['$'], _⟩, ⟨rfl, rfl⟩, ⟨opening, _⟩, ⟨rfl, rfl⟩, ⟨opening ++ name, _⟩,
      ⟨name.length, List.length_pos_iff.mpr hnonempty, nofun, hrounds⟩, _, ⟨rfl, ?_⟩, rfl⟩
    simp [opening, Item.written]

/-! ### The law of expansion -/

/-- A text falls in one way into references and other characters, and expansion shows the value of
a variable for a reference that has one and everything else as it is written. A text without the
opening of a reference may be returned at once. A text that mentions no variable stays as it is,
and only variables whose references are taken have an influence. A reference is what the expression
for it matches: the expression has a match at a place if a reference begins there, and its only
match is that reference. -/
theorem expansion_law (e : Expander) (s : String) :
    ∃ items, (∀ other, FallsInto s.toList other ↔ other = items) ∧
      (e.expand s).toList = items.flatMap (Item.shown e.values.get?) ∧
      e.expand s = String.ofList (expandChars e.values.get? s.toList) ∧
      ((∀ name, Mentions s.toList name → e.values.get? (String.ofList name) = none) →
        e.expand s = s) ∧
      (∀ e' : Expander, (∀ name, .reference name ∈ items →
        e'.values.get? (String.ofList name) = e.values.get? (String.ofList name)) →
        e'.expand s = e.expand s) ∧
      (∀ name value, .reference name.toList ∉ items →
        (e.set name value).expand s = e.expand s) ∧
      ∃ reference : Regex,
        Regex.IsExpression "\\$\\\x7b([^\x7d]+)\\\x7d".toList reference ∧
        ∀ front cs q, reference.Leads ⟨front, cs⟩ q ↔ ∃ name after, BeginsWith cs name after ∧
          q = ⟨front ++ Item.written (.reference name), after⟩ := by
  obtain ⟨items, hitems⟩ := exists_fallsInto s.toList
  have hother : ∀ e' : Expander, (∀ name, .reference name ∈ items →
      e'.values.get? (String.ofList name) = e.values.get? (String.ofList name)) →
      e'.expand s = e.expand s := by
    intro e' hsame
    rw [← String.toList_inj, hitems.expand_eq e', hitems.expand_eq e, flatMap_shown_congr hsame]
  refine ⟨items, fun other => ⟨fun h => h.unique hitems, ?_⟩, hitems.expand_eq e, ?_, ?_, hother,
    ?_, referenceExpression, isExpression_reference, fun _ _ _ => leads_referenceExpression_iff⟩
  · rintro rfl
    exact hitems
  · rw [← String.toList_inj, String.toList_ofList, hitems.expandChars_eq]
    exact hitems.expand_eq e
  · intro hunknown
    rw [← String.toList_inj, hitems.expand_eq e,
      flatMap_shown_of_unknown fun name hmem => hunknown name (hitems.mentions hmem),
      hitems.written]
  · intro name value hmem
    refine hother _ fun name' hmem' => ?_
    have hne : String.ofList name' ≠ name := by
      rintro rfl
      exact hmem (by rwa [String.toList_ofList])
    exact (Dict.get?_insert e.values name (String.ofList name') value).trans (if_neg hne)

/-- The value of `a` is not read again, and `b` is mentioned, but never on its own. -/
theorem expansion_of_nested_references :
    let e : Expander := { values := .ofList [("a", "$\x7bb\x7d"), ("b", "B")] }
    e.expand "$$\x7ba\x7d\x7bb\x7d$\x7b$\x7bb\x7d" = "$$\x7bb\x7d\x7bb\x7d$\x7b$\x7bb\x7d" ∧
      (∀ value, (e.set "b" value).expand "$$\x7ba\x7d\x7bb\x7d$\x7b$\x7bb\x7d" =
        "$$\x7bb\x7d\x7bb\x7d$\x7b$\x7bb\x7d") ∧
      e.expand "$ \x7ba\x7d" = "$ \x7ba\x7d" := by
  intro e
  have hitems : FallsInto "$$\x7ba\x7d\x7bb\x7d$\x7b$\x7bb\x7d".toList
      [.char '$', .reference ['a'], .char '\x7b', .char 'b', .char '\x7d',
        .reference ['$', '\x7b', 'b']] :=
    .char (reference?_eq_none_iff.mp rfl) <| .reference (reference?_eq_some_iff.mp rfl) <|
      .char (reference?_eq_none_iff.mp rfl) <| .char (reference?_eq_none_iff.mp rfl) <|
      .char (reference?_eq_none_iff.mp rfl) <| .reference (reference?_eq_some_iff.mp rfl) .done
  obtain ⟨items, hall, hshown, -, -, -, hset, -⟩ :=
    expansion_law e "$$\x7ba\x7d\x7bb\x7d$\x7b$\x7bb\x7d"
  obtain rfl := (hall _).mp hitems
  have hexpand : e.expand "$$\x7ba\x7d\x7bb\x7d$\x7b$\x7bb\x7d" =
      "$$\x7bb\x7d\x7bb\x7d$\x7b$\x7bb\x7d" := by
    rw [← String.toList_inj, hshown]
    decide
  refine ⟨hexpand, fun value => ?_, ?_⟩
  · rw [hset "b" value (by decide), hexpand]
  · obtain ⟨-, -, -, -, hunknown, -⟩ := expansion_law e "$ \x7ba\x7d"
    exact hunknown fun name hname => absurd hname.opens (by decide)

end XmlBinding
