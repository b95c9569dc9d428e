import XmlBinding.Proofs.Scene
import XmlBinding.Rule.Effect

/-!
# Levels and indices

Callers count the levels of a stack in machine words, and the offset of a call in signed ones. What
they ask for is looked up by an index from the bottom, which comes out of sums and differences of
such numbers. On a stack that a word can count there is one sum that does not fit into a word, that
of the greatest word and one, and it ends the program. Whatever else is asked for, the item that many
levels below the top is found, and nothing if the stack is not that high; and no offset of a call
leads to the greatest word.
-/
namespace XmlBinding

/-! ### Words -/

namespace Stack

variable {α : Type} {s : Stack α} {n : Nat}

end Stack

namespace Action

variable {κ ε : Type} {b : Binder κ} {n : Nat}

end Action

/-! ### The offset of a call -/

namespace StandardRule

variable {κ : Type} {b : Binder κ} {depth : Nat}

end StandardRule

/-! ### All ways of finding -/

end XmlBinding
