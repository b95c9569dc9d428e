import XmlBinding.Proofs.Dispatch

/-!
# Texts in pieces

A reader hands over the text between two tags in as many pieces as it likes, empty ones included, and
may say where it is in front of any of them. The text of an open element and the node under
construction both join what they are given, and neither is looked at before the next tag. So a run is
determined by what has come together in front of each tag: the text in all and the last position.
-/
namespace XmlBinding

variable {κ : Type}

/-! ### Two pieces are one -/

theorem Node.join_text_join (s t : String) (children : List Node) :
    join (.text t) (join (.text s) children) = join (.text (s ++ t)) children := by
  induction children with
  | nil => rfl
  | cons first rest ih =>
    cases rest with
    | nil =>
      cases first with
      | text last =>
        change [Node.text (last ++ s ++ t)] = [Node.text (last ++ (s ++ t))]
        rw [String.append_assoc]
      | _ => rfl
    | cons second rest =>
      -- A text goes to the end, so the first of several children is never looked at.
      have hjoin : ∀ (child other : Node) (others : List Node),
          join child (first :: other :: others) = first :: join child (other :: others) := by
        intro child other others
        cases first <;> rfl
      have hne : join (.text s) (second :: rest) ≠ [] := by
        cases rest <;> cases second <;> simp [join]
      obtain ⟨other, others, hcons⟩ := List.exists_cons_of_ne_nil hne
      rw [hjoin, hjoin, hcons, hjoin, ← hcons, ih]

theorem Node.append_text_append (parent : Node) (s t : String) :
    (parent.append (.text s)).append (.text t) = parent.append (.text (s ++ t)) := by
  cases parent with
  | element uri name attributes children =>
    exact congrArg (Node.element uri name attributes) (join_text_join s t children)
  | text content => rfl
  | fragment children => exact congrArg Node.fragment (join_text_join s t children)

theorem Capture.text_empty (c : Capture) : c.text "" = c := rfl

theorem Capture.text_of_ne {content : String} (h : content ≠ "") (c : Capture) :
    c.text content = c.add (.text content) :=
  if_neg fun hempty => h (String.isEmpty_iff.mp hempty)

/-- Two pieces inside a captured node are one. -/
theorem Capture.text_text (c : Capture) (s t : String) : (c.text s).text t = c.text (s ++ t) := by
  by_cases hs : s = ""
  · rw [hs, text_empty, String.empty_append]
  by_cases ht : t = ""
  · rw [ht, text_empty, String.append_empty]
  have hst : s ++ t ≠ "" := fun h => hs (String.append_eq_empty_iff.mp h).1
  rw [text_of_ne hs, text_of_ne ht, text_of_ne hst]
  obtain ⟨root, nested⟩ := c
  cases nested with
  | nil => exact congrArg (Capture.mk · []) (root.append_text_append s t)
  | cons top outer => exact congrArg (Capture.mk root <| · :: outer) (top.append_text_append s t)

namespace Binder

theorem characters_empty (b : Binder κ) : b.characters "" = b := by
  cases hb : b.capture with
  | none => rw [characters_of_not_capturing "" hb, String.append_empty]
  | some c => rw [characters_of_capturing "" hb, c.text_empty, ← hb]

/-- Two pieces of text are one, whether they go to rules or into a node. -/
theorem characters_characters (b : Binder κ) (s t : String) :
    (b.characters s).characters t = b.characters (s ++ t) := by
  cases hb : b.capture with
  | none =>
    have hs := characters_of_not_capturing s hb
    have ht : (b.characters s).capture = none := by rw [hs, hb]
    rw [characters_of_not_capturing t ht, characters_of_not_capturing (s ++ t) hb, hs,
      String.append_assoc]
  | some c =>
    have hs := characters_of_capturing s hb
    have ht : (b.characters s).capture = some (c.text s) := by rw [hs]
    rw [characters_of_capturing t ht, characters_of_capturing (s ++ t) hb, hs, c.text_text]

theorem characters_position (b : Binder κ) (content : String) (p : Option Position) :
    ({ b with position := p } : Binder κ).characters content =
      { b.characters content with position := p } := by
  unfold characters
  cases b.capture <;> rfl

end Binder

/-! ### Runs -/

/-- What ends a piece of text and may call rules. -/
inductive Tag
  | startDocument
  | start (tag : StartTag)
  | close (tag : EndTag)
  | endDocument

/-- What a reader hands to a binder. -/
inductive Message
  | position (p : Option Position)
  | text (content : String)
  | tag (t : Tag)

def Tag.run (x : Extension κ) : Tag → Action κ BindError Unit
  | .startDocument => modify Binder.startDocument
  | .start tag => deliver x (.start tag)
  | .close tag => deliver x (.close tag)
  | .endDocument => XmlBinding.endDocument x

def Message.run (x : Extension κ) : Message → Action κ BindError Unit
  | .position p => modify ({ · with position := p })
  | .text content => deliver x (.text content)
  | .tag t => t.run x

/-- Hand over one message after the other, up to the first failure. -/
def play (x : Extension κ) (ms : List Message) : Action κ BindError Unit := ms.forM (Message.run x)

/-- What happens at each tag, with the binder behind it, where the reader goes on whatever happens. -/
def trail (x : Extension κ) :
    List Message → Binder κ → List (EStateM.Result (Halt BindError) (Binder κ) Unit)
  | [], _ => []
  | .tag t :: rest, b => t.run x b :: trail x rest ((t.run x).after b)
  | .position p :: rest, b => trail x rest { b with position := p }
  | .text content :: rest, b => trail x rest (b.characters content)

/-- What has come together since the last tag: the text, and the last position if there was one. -/
structure Gap where
  text : String := ""
  position : Option (Option Position) := none
  deriving DecidableEq

def Gap.fill (g : Gap) (b : Binder κ) : Binder κ :=
  match g.position with
  | none => b.characters g.text
  | some p => { b.characters g.text with position := p }

/-- The tags with what has come together in front of each of them, and what has come together behind
the last one. -/
def gaps (g : Gap) : List Message → List (Gap × Tag) × Gap
  | [] => ([], g)
  | .tag t :: rest => ((g, t) :: (gaps {} rest).1, (gaps {} rest).2)
  | .position p :: rest => gaps { g with position := some p } rest
  | .text content :: rest => gaps { g with text := g.text ++ content } rest

namespace Gap

variable (g : Gap) (b : Binder κ)

theorem fill_empty : ({} : Gap).fill b = b := b.characters_empty

theorem fill_position (p : Option Position) :
    { g.fill b with position := p } = { g with position := some p }.fill b := by
  obtain ⟨content, position⟩ := g
  cases position <;> rfl

theorem fill_text (content : String) :
    (g.fill b).characters content = { g with text := g.text ++ content }.fill b := by
  obtain ⟨own, position⟩ := g
  cases position with
  | none => exact b.characters_characters own content
  | some p =>
    change ({ b.characters own with position := p } : Binder κ).characters content =
      { b.characters (own ++ content) with position := p }
    rw [Binder.characters_position, b.characters_characters]

end Gap

section Runs

variable (x : Extension κ)

/-- What happens at each tag, where everything in front of it comes in one piece. -/
def trailOfGaps : List (Gap × Tag) → Binder κ →
    List (EStateM.Result (Halt BindError) (Binder κ) Unit)
  | [], _ => []
  | (g, t) :: rest, b => t.run x (g.fill b) :: trailOfGaps rest ((t.run x).after (g.fill b))

/-- The run up to the last tag, where everything in front of a tag comes in one piece. -/
def playGaps (gs : List (Gap × Tag)) : Action κ BindError Unit :=
  gs.forM fun gap => do
    modify gap.1.fill
    gap.2.run x

/-- What happens at the tags depends on what has come together in front of them only. -/
theorem trail_eq (ms : List Message) (g : Gap) (b : Binder κ) :
    trail x ms (g.fill b) = trailOfGaps x (gaps g ms).1 b := by
  induction ms generalizing g b with
  | nil => rfl
  | cons message rest ih =>
    cases message with
    | position p =>
      rw [trail, g.fill_position]
      exact ih _ b
    | text content =>
      rw [trail, g.fill_text]
      exact ih _ b
    | tag t =>
      have hrest := ih {} ((t.run x).after (g.fill b))
      rw [Gap.fill_empty] at hrest
      rw [trail, hrest]
      rfl

/-- A run that stops at the first failure depends on the same, and on what comes behind the last
tag. -/
theorem play_eq (ms : List Message) (g : Gap) (b : Binder κ) :
    play x ms (g.fill b) =
      (playGaps x (gaps g ms).1 >>= fun _ => modify (gaps g ms).2.fill) b := by
  induction ms generalizing g b with
  | nil => rfl
  | cons message rest ih =>
    cases message with
    | position p =>
      change play x rest { g.fill b with position := p } = _
      rw [g.fill_position]
      exact ih _ b
    | text content =>
      change play x rest ((g.fill b).characters content) = _
      rw [g.fill_text]
      exact ih _ b
    | tag t =>
      change (t.run x >>= fun _ => play x rest) (g.fill b) =
        (((modify g.fill >>= fun _ => t.run x) >>= fun _ => playGaps x (gaps {} rest).1) >>=
          fun _ => modify (gaps {} rest).2.fill) b
      rw [bind_assoc, bind_assoc, Action.modify_bind_run]
      cases hrun : t.run x (g.fill b) with
      | error halt m => rw [Action.bind_run_of_error hrun, Action.bind_run_of_error hrun]
      | ok u m =>
        have hrest := ih {} m
        rw [Gap.fill_empty] at hrest
        rw [Action.bind_run_of_ok hrun, Action.bind_run_of_ok hrun, hrest]

/-- A run that fails does so at a tag. -/
theorem play_eq_error {ms : List Message} {b m : Binder κ} {halt : Halt BindError} :
    play x ms b = .error halt m ↔ playGaps x (gaps {} ms).1 b = .error halt m := by
  have hplay := play_eq x ms {} b
  rw [Gap.fill_empty] at hplay
  rw [hplay]
  cases hrun : playGaps x (gaps {} ms).1 b with
  | ok u s =>
    rw [Action.bind_run_of_ok hrun]
    exact ⟨nofun, nofun⟩
  | error other s => rw [Action.bind_run_of_error hrun]

/-- **How texts are cut into pieces has no effect.** Two runs from one binder with the same tags, the
same text in all and the same last position in front of each tag give the same answers and leave the
same binders at every tag, whether or not the reader goes on behind a failure; and if nothing differs
behind the last tag either, they end in the same way altogether. -/
theorem chunking_law {ms ns : List Message} (h : (gaps {} ms).1 = (gaps {} ns).1)
    (b : Binder κ) :
    trail x ms b = trail x ns b ∧
      (∀ halt m, play x ms b = .error halt m ↔ play x ns b = .error halt m) ∧
      ((gaps {} ms).2 = (gaps {} ns).2 → play x ms b = play x ns b) := by
  refine ⟨?_, ?_, ?_⟩
  · have hms := trail_eq x ms {} b
    have hns := trail_eq x ns {} b
    rw [Gap.fill_empty] at hms hns
    rw [hms, hns, h]
  · intro halt m
    rw [play_eq_error, play_eq_error, h]
  · intro hlast
    have hms := play_eq x ms {} b
    have hns := play_eq x ns {} b
    rw [Gap.fill_empty] at hms hns
    rw [hms, hns, h, hlast]

end Runs

/-- A reference that is cut in two, with an empty piece and a position in between. -/
def inPieces : List Message :=
  [.tag (.start ⟨"", "a", "a", []⟩), .text "$", .text "", .position none, .text "\x7bv\x7d",
    .tag (.close ⟨"", "a", "a"⟩), .tag .endDocument]

def inOnePiece : List Message :=
  [.tag (.start ⟨"", "a", "a", []⟩), .position none, .text "$\x7bv\x7d",
    .tag (.close ⟨"", "a", "a"⟩), .tag .endDocument]

theorem chunking_law_of_a_reference :
    let table : Table (RuleRef Empty) :=
      ({} : Table _).register ['a'] ⟨0, .standard (.nodeCreate false)⟩
    let b : Binder Empty := { matcher := .plain table }
    (gaps {} inPieces).1 = (gaps {} inOnePiece).1 ∧
      trail .none inPieces b = trail .none inOnePiece b ∧
      (∀ halt m, play .none inPieces b = .error halt m ↔
        play .none inOnePiece b = .error halt m) ∧
      play .none inPieces b = play .none inOnePiece b := by
  intro table b
  have hgaps : (gaps {} inPieces).1 = (gaps {} inOnePiece).1 := rfl
  obtain ⟨htrail, herrors, hplay⟩ := chunking_law .none hgaps b
  exact ⟨hgaps, htrail, herrors, hplay rfl⟩

end XmlBinding
