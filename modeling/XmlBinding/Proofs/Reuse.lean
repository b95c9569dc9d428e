import XmlBinding.Proofs.LongestSuffix
import XmlBinding.Proofs.Mirror.Endings

/-!
# Reusing a binder

A binder that has read documents reads the next one as it would have read it first. It does not
matter how the documents before ended: what they leave behind is their objects, to which the new
ones have no way, and the last root, which is answered again where a document puts nothing on the
stack.
-/
namespace XmlBinding

/-! ### Outcomes that differ in the names of objects -/

/-- A store holds the objects of a graph under new names, and a value is the root of the graph. -/
structure Copies (graph : Heap) (root : Value) (name : ObjectId → ObjectId) (h : Heap) (v : Value) :
    Prop where
  injective : Function.Injective name
  root : v = root.rename name
  cells : ∀ id, h.cell? (name id) = (graph.cell? id).map (Cell.rename name)

/-- Two values in their stores are roots of one graph of objects, but for the names of the objects.
-/
def Isomorphic (h : Heap) (v : Value) (h' : Heap) (v' : Value) : Prop :=
  ∃ graph root name name', Copies graph root name h v ∧ Copies graph root name' h' v'

theorem Heap.copies_behind (front graph : Heap) (root : Value) :
    Copies graph root front.place (front.behind graph) (root.rename front.place) :=
  ⟨front.place_injective, rfl, front.cell?_behind graph⟩

/-- What two documents leave besides their answers: the same calls of rules with the same arguments,
the same counts, and the same matcher. -/
structure SameEnd (s s' : Binder Empty) : Prop where
  record : SameRecord s s'
  matcher : s'.matcher = s.matcher

/-- The document puts no object on the stack: the first one would become the root. -/
def Pushless (text : String) (b : Binder Empty) : Prop :=
  ∃ b', parse .none text { b with root := none } = .ok none b'

/-- A document ends alike on a binder that is new and on one that was used. -/
inductive SameOutcome (text : String) (new used : Binder Empty) :
    (_ _ : EStateM.Result (Halt BindError) (Binder Empty) (Option Value)) → Prop
  | graph {v v' : Value} {s s' : Binder Empty} (hobjects : Isomorphic s.heap v s'.heap v')
      (hend : SameEnd s s') : SameOutcome text new used (.ok (some v) s) (.ok (some v') s')
  | earlierRoot {s s' : Binder Empty} (hpushless : Pushless text new) (hend : SameEnd s s') :
    SameOutcome text new used (.ok new.root s) (.ok used.root s')
  | failure {cause : BindError} {s s' : Binder Empty} (hend : SameEnd s s') :
    SameOutcome text new used (.error (.error cause) s) (.error (.error cause) s')
  | crash {s s' : Binder Empty} : SameOutcome text new used (.error .crash s) (.error .crash s')

/-- Two ends that are like a third one are like each other. -/
theorem Settled.sameEnd {g g' : Ground} {m s s' : Binder Empty} (h : Settled g m s)
    (h' : Settled g' m s') (hrecord : SameRecord m s) (hrecord' : SameRecord m s') :
    SameEnd s s' where
  record := ⟨hrecord'.calls.trans hrecord.calls.symm, hrecord'.metrics.trans hrecord.metrics.symm⟩
  matcher := by rw [h'.matcher_second, h.matcher_second, ← h.matcher_first, h'.matcher_first]

/-! ### Earlier documents -/

/-- The binder behind some documents, read one after the other, however each of them ended; `none`
where one of them ended the program. -/
def afterDocuments : List String → Binder Empty → Option (Binder Empty)
  | [], b => some b
  | text :: rest, b =>
    match parse .none text b with
    | .ok _ b' => afterDocuments rest b'
    | .error (.error _) b' => afterDocuments rest b'
    | .error .crash _ => none

/-- An idle binder that is set up like another one. -/
structure Ready (new b : Binder Empty) : Prop where
  idle : b.Idle
  matcher : b.matcher = new.matcher
  setup : b.setup = new.setup

namespace Binder.Idle

variable {new b : Binder Empty} (hnew : new.Idle) (hclosed : new.ground.Closed)
include hnew hclosed

/-- A binder that is ready reads a document as the new one does without any objects. -/
theorem parse_together (h : Ready new b) (text : String) :
    Action.Together (fun r => (r.map (Value.rename b.heap.place)).or b.root)
      (fun r s b' => Settled b.ground s b' ∧ SameRecord s b' ∧ s.root = r)
      (fun s b' => Settled b.ground s b' ∧ SameRecord s b')
      (parse .none text new.unused) (parse .none text b) := by
  have hplain : b.ground.matcher.undecorated? = none := h.idle.undecorated
  refine (hnew.settled h.idle h.matcher h.setup).parse ⟨?_, ?_⟩ hplain text
  · change b.setup.Closed
    rw [h.setup]
    exact hclosed.setup
  · change b.matcher.Closed b.setup.labels
    rw [h.setup, h.matcher]
    exact hclosed.rules

/-- A document leaves the binder ready for the next one, unless it ends the program. -/
theorem ready_parse (h : Ready new b) (text : String) :
    Action.Meets (parse .none text) b (fun _ b' => Ready new b') fun halt b' =>
      halt ≠ .crash → Ready new b' := by
  have hsettled : ∀ {s b'}, Settled b.ground s b' → Ready new b' := fun hs =>
    ⟨hs.idle_second, hs.matcher_second.trans h.matcher, hs.setup_second.trans h.setup⟩
  have htogether := hnew.parse_together hclosed h text
  unfold Action.Meets
  revert htogether
  generalize parse .none text new.unused = r, parse .none text b = r'
  rintro (⟨hs, -⟩ | ⟨hs, -⟩ | _)
  · exact hsettled hs
  · exact fun _ => hsettled hs
  · exact fun hne => absurd rfl hne

theorem ready_afterDocuments {earlier : List String} {used : Binder Empty} (h : Ready new b)
    (hused : afterDocuments earlier b = some used) : Ready new used := by
  induction earlier generalizing b with
  | nil =>
    cases hused
    exact h
  | cons text rest ih =>
    have hready := hnew.ready_parse hclosed h text
    unfold afterDocuments at hused
    unfold Action.Meets at hready
    split at hused
    · next hrun =>
      rw [hrun] at hready
      exact ih hready hused
    · next hrun =>
      rw [hrun] at hready
      exact ih (hready nofun) hused
    · cases hused

/-- What puts nothing on the stack without the objects before puts nothing there with them. -/
theorem pushless {s : Binder Empty} {text : String}
    (h : parse .none text new.unused = .ok none s) : Pushless text new := by
  have htogether := hnew.parse_together (b := { new with root := none }) hclosed
    ⟨{ hnew with }, rfl, rfl⟩ text
  unfold Pushless
  rw [h] at htogether
  revert htogether
  generalize parse .none text { new with root := none } = r
  rintro ⟨_⟩
  exact ⟨_, rfl⟩

end Binder.Idle

/-! ### Plain matchers -/

namespace Plain

open Pattern

variable {ρ : Type} {t : Table ρ}

/-- What a table of checked registrations answers are rules that were registered. -/
theorem mem_rules (ht : t.Registered checkPlain) {uri : String} {path : List Char} {rule : ρ}
    (h : rule ∈ rulesFor t uri path) : rule ∈ t.rules := by
  obtain ⟨found, hfound, hanswers⟩ := rulesFor_spec ht uri path
  rw [hfound] at h
  obtain ⟨e, he, rfl⟩ := List.mem_map.mp h
  refine List.mem_map_of_mem ?_
  cases hanswers with
  | exact _ => exact List.mem_of_mem_filter he
  | longest _ _ _ => exact List.mem_of_mem_filter he
  | nothing _ _ => cases he

/-- A plain matcher refers to no object that was there before if its rules refer to none. -/
theorem closed_replay {labels : Labels} {history : List (Registration (RuleRef Empty))}
    (h : ∀ ref ∈ (Matcher.replay (.plain {}) history).rules, ref.standard.Closed labels) :
    (Matcher.replay (.plain {}) history).Closed labels := by
  obtain ⟨t, hreplay, -, ht⟩ :=
    holds_plain.replay (Table.registered_empty (ρ := RuleRef Empty) none) history
  rw [hreplay] at h ⊢
  intro uri path name attrs found hfound ref href
  obtain rfl : rulesFor t uri path = found := Option.some.inj hfound
  exact h ref (mem_rules ht href)

end Plain

/-! ### The next document -/

/-- **A binder is as good as new after any documents.** Whatever they were and however they ended,
the next one makes the calls that it makes on a new binder, and ends with the same error or with the
same graph of objects. -/
theorem reuse_law {new used : Binder Empty} {earlier : List String} (hnew : new.Idle)
    (hclosed : new.ground.Closed) (hused : afterDocuments earlier new = some used)
    (text : String) :
    SameOutcome text new used (parse .none text new) (parse .none text used) := by
  -- Both runs are compared with one that has no objects before it.
  have hready : Ready new new := ⟨hnew, rfl, rfl⟩
  have hfirst := hnew.parse_together hclosed hready text
  have hsecond := hnew.parse_together hclosed (hnew.ready_afterDocuments hclosed hready hused) text
  have hpushless : ∀ s, parse .none text new.unused = .ok none s → Pushless text new :=
    fun _ => hnew.pushless hclosed
  revert hfirst hsecond hpushless
  generalize parse .none text new.unused = r, parse .none text new = r₁,
    parse .none text used = r₂
  rintro (@⟨answer, s, b₁, hs, hrecord, -⟩ | ⟨hs, hrecord⟩ | _) hsecond hpushless
  · obtain ⟨hs', hrecord', -⟩ | _ | _ := hsecond
    have hend := hs.sameEnd hs' hrecord hrecord'
    cases answer with
    | none => exact .earlierRoot (hpushless s rfl) hend
    | some v =>
      refine .graph ⟨s.heap, v, new.heap.place, used.heap.place, ?_, ?_⟩ hend
      · rw [hs.heap]
        exact Heap.copies_behind ..
      · rw [hs'.heap]
        exact Heap.copies_behind ..
  · obtain _ | ⟨hs', hrecord'⟩ | _ := hsecond
    exact .failure (hs.sameEnd hs' hrecord hrecord')
  · obtain _ | _ | _ := hsecond
    exact .crash

/-- A document that is cut off inside an element with a decoration, and one with a child that does
not fit, leave the binder as good as new. -/
theorem reuse_law_after_two_failures :
    let history := [.add "person" ⟨0, .standard (.objectCreate (some "person") none)⟩,
      .add "person" ⟨1, .standard (.setNested {})⟩]
    let new : Binder Empty :=
      { matcher := Matcher.replay (.plain {}) history
        classes := (∅ : Dict String BeanRecipe).insert "person" .person }
    let earlier := ["<person><name>Ann", "<person><age>old</age></person>"]
    let text := "<person><name>Ann</name></person>"
    ∃ used, new.Idle ∧ new.ground.Closed ∧ afterDocuments earlier new = some used ∧
      SameOutcome text new used (parse .none text new) (parse .none text used) := by
  intro history new earlier text
  have hidle : new.Idle := ⟨rfl, rfl, fun _ => rfl, rfl, rfl, rfl, rfl, rfl, rfl, rfl⟩
  have hclasses : new.setup.Closed := by
    refine ⟨fun name recipe hrecipe => ?_, nofun⟩
    rw [show new.setup.classes = (∅ : Dict String BeanRecipe).insert "person" .person from rfl,
      Dict.get?_insert] at hrecipe
    split at hrecipe
    · cases hrecipe
      exact trivial
    · cases hrecipe
  have hrules : ∀ ref ∈ (Matcher.replay (.plain {}) history).rules,
      ref.standard.Closed new.labels := by
    have hlist : (Matcher.replay (.plain {}) history).rules =
      [⟨0, .standard (.objectCreate (some "person") none)⟩, ⟨1, .standard (.setNested {})⟩] := rfl
    rw [hlist]
    exact List.forall_mem_cons.mpr ⟨trivial, List.forall_mem_singleton.mpr trivial⟩
  have hclosed : new.ground.Closed := ⟨hclasses, Plain.closed_replay hrules⟩
  obtain ⟨used, hused⟩ : ∃ used, afterDocuments earlier new = some used :=
    Option.isSome_iff_exists.mp (by decide +kernel)
  exact ⟨used, hidle, hclosed, hused, reuse_law hidle hclosed hused text⟩

end XmlBinding
