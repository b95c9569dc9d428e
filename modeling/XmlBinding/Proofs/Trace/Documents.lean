import XmlBinding.Proofs.Finish

/-!
# The calls of a document

A document that gets through is a tree of calls. Each call is one that a rule got through, from the
binder that it found to the one that it left, and the binder goes from call to call: nothing but the
dispatcher itself is at work in between. The record of calls is this tree, read from front to back.
-/
namespace XmlBinding

variable {κ : Type} {x : Extension κ}

/-- The calls that content makes when it gets through. The rules that the matcher answers for an
element are called for its start in their order, then the content makes its calls, then the same
rules are called for the body in their order, and for the end in the opposite order. All bodies get
one text, that of the element without what its children hold. An element that is captured goes into
a node, and nothing inside it makes a call. -/
inductive Content.Fires (x : Extension κ) :
    Content → Binder κ → List (Firing κ) → Binder κ → Prop
  | done (b : Binder κ) : Fires x .done b [] b
  | text {content : String} {rest : Content} {b b' : Binder κ} {fs : List (Firing κ)}
      (hrest : Fires x rest (b.characters content) fs b') : Fires x (.text content rest) b fs b'
  | element {tag : StartTag} {inner : Content} {closing : EndTag} {rest : Content}
      {b o f m m' b' : Binder κ} {found : List (RuleRef κ)}
      {starting within telling ending behind : List (Firing κ)}
      (hfound : b.rulesAt? tag = some found)
      (hstarts : Called x (.start tag.uri tag.name (b.expandAttributes tag.attrs)) found
        (b.opened x tag found) starting o)
      (hcapture : o.capture = none) (hinner : Fires x inner o within f)
      (hbodies : Called x (.body closing.uri closing.name (b.expandText inner.ownText)) found
        (f.closing b.matched) telling m)
      (hends : Called x (.close closing.uri closing.name) found.reverse m.resumeText ending m')
      (hrest : Fires x rest m'.leave behind b') :
      Fires x (.element tag inner closing rest) b
        (starting ++ within ++ telling ++ ending ++ behind) b'
  | captured {tag : StartTag} {inner : Content} {closing : EndTag} {rest : Content}
      {b o f m m' b' : Binder κ} {own : Capture} {found : List (RuleRef κ)}
      {starting telling ending behind : List (Firing κ)}
      (hfound : b.rulesAt? tag = some found)
      (hstarts : Called x (.start tag.uri tag.name (b.expandAttributes tag.attrs)) found
        (b.opened x tag found) starting o)
      (hcapture : o.capture = some own) (hinner : f = { o with capture := some (own.take inner) })
      (hbodies : Called x (.body closing.uri closing.name (b.expandText "")) found
        (f.closing b.matched) telling m)
      (hends : Called x (.close closing.uri closing.name) found.reverse m.resumeText ending m')
      (hrest : Fires x rest m'.leave behind b') :
      Fires x (.element tag inner closing rest) b (starting ++ telling ++ ending ++ behind) b'

end XmlBinding
