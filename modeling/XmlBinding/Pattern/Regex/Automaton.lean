import XmlBinding.Pattern.Regex.Automaton.Literals
import XmlBinding.Pattern.Regex.Automaton.Spelling

/-!
# Automata for expressions

An expression is refused when the automaton for it, or the one that reads texts from their end,
takes up too much room. The states are counted in the order in which they are made.
-/
namespace XmlBinding.Automaton

/-- Make a part `n` times, each led to from the one before it. -/
def chain (part : Room → Option Built) : Nat → Built → Option Built
  | 0, b => some b
  | n + 1, b => match part b.room with
    | some next => match linkFrom b.isFork next.room with
      | some room => chain part n { next with room := room }
      | none => none
    | none => none

/-- A part `n` times in a row. -/
def exactly (part : Room → Option Built) (n : Nat) (r : Room) : Option Built :=
  match n with
  | 0 => (r.make 1 0).map fun room => { room := room }
  | n + 1 => (part r).bind (chain part n)

/-- A part up to `n` times more, with a fork in front of each that also leads to the end. -/
def optionally (part : Room → Option Built) : Nat → Built → Option Built
  | 0, b => some b
  | n + 1, b => match b.room.make 1 8 with
    | some room => match part room with
      | some next => match linkFrom b.isFork next.room with
        | some room => optionally part n { next with room := room }
        | none => none
      | none => none
    | none => none

/-- A part repeated without end; `consumes` says that it cannot match the empty text. -/
def star (part : Room → Option Built) (consumes : Bool) (r : Room) : Option Built := do
  if consumes then
    let b ← part (← r.make 1 4)
    return { room := ← b.link, isFork := true }
  else
    let b ← part r
    let room ← linkFrom b.isFork (← b.room.make 3 16)
    return { room := room }

/-- A part with a loop behind it that leads back to it, as the last of `least` times. -/
def plus (part : Room → Option Built) (least : Nat) (r : Room) : Option Built := do
  let b ← if least ≤ 1 then part r else do
    let front ← exactly part (least - 1) r
    let last ← part front.room
    return { last with room := ← linkFrom front.isFork last.room }
  let room ← linkFrom b.isFork (← b.room.make 1 4)
  return { room := room, isFork := true }

/-- A part that is repeated. -/
def makeTimes (part : Room → Option Built) (consumes : Bool) (least : Nat) (most : Option Nat)
    (r : Room) : Option Built :=
  match most with
  | none => if least = 0 then star part consumes r else plus part least r
  | some most => do
    if least = 0 ∧ most = 1 then
      let b ← part (← r.make 1 8)
      return { room := ← linkFrom b.isFork (← b.room.make 1 0) }
    else
      let front ← exactly part least r
      if most ≤ least then return front
      else
        let b ← optionally part (most - least) { front with room := ← front.room.make 1 0 }
        return { room := ← b.link }

/-- Join the branches of a choice to its end; `fork` says that there are several of them. -/
def joinBranch (b : Built) (r : Room) : Option Room := do
  linkFrom b.isFork (← r.make 0 4)

mutual

/-- Make the states for an expression. -/
def build (backward : Bool) : Reduced → Room → Option Built
  | .empty, r => (r.make 1 0).map fun room => { room := room }
  | .literal text, r => (r.make (bytesOf text).length 0).map fun room => { room := room }
  | .set members spellings, r =>
    (makeSet backward members spellings r).map fun room => { room := room }
  | .look _, r => (r.make 1 0).map fun room => { room := room }
  | .seq parts, r => buildAll backward parts r
  | .either branches, r => match literals? branches with
    | some texts => (makeLiterals backward texts r).map fun room => { room := room }
    | none => (buildAny backward branches 0 none r).map fun room => { room := room }
  | .times least most _ inner, r =>
    makeTimes (build backward inner) (inner.least?.any (0 < ·)) least most r
  | .group inner, r =>
    if backward then build backward inner r
    else do
      let b ← build backward inner (← r.make 1 0)
      return { room := ← linkFrom b.isFork (← b.room.make 1 0) }

/-- Make the parts of a sequence, or in reverse order those of a text that is read from its end. -/
def buildAll (backward : Bool) : List Reduced → Room → Option Built
  | [], r => (r.make 1 0).map fun room => { room := room }
  | [part], r => build backward part r
  | part :: rest, r => do
    let (first, second) :=
      if backward then (buildAll backward rest, build backward part)
      else (build backward part, buildAll backward rest)
    let b ← first r
    let b' ← second b.room
    return { b' with room := ← linkFrom b.isFork b'.room }

/-- Make the branches of a choice. The fork and the end are made once there are two branches. -/
def buildAny (backward : Bool) : List Reduced → (count : Nat) → Option Built → Room → Option Room
  | [], _, _, r => some r
  | branch :: rest, count, before, r => do
    let b ← build backward branch r
    let room ← match before with
      | some before => do
        let room ← b.room.make 2 0
        joinBranch b (← joinBranch before room)
      | none => if count = 0 then some b.room else joinBranch b b.room
    buildAny backward rest (count + 1) (if count = 0 then some b else none) room

end

/-! ## The limit -/

mutual

/-- A match can only be where `condition` is met, at the start of it or, backward, at its end. -/
def isBound (backward : Bool) (condition : Look) : Reduced → Bool
  | .look l => l = condition
  | .seq parts => firstIsBound backward condition parts
  | .either branches => allAreBound backward condition branches
  | .times least _ _ inner => 0 < least && isBound backward condition inner
  | .group inner => isBound backward condition inner
  | _ => false

/-- The same of the parts up to the first, or backward from the last, that uses up a character. -/
def firstIsBound (backward : Bool) (condition : Look) : List Reduced → Bool
  | [] => false
  | part :: rest =>
    if backward then
      firstIsBound backward condition rest ||
        (Reduced.areZeroWidth rest && isBound backward condition part)
    else
      isBound backward condition part ||
        (part.isZeroWidth && firstIsBound backward condition rest)

def allAreBound (backward : Bool) (condition : Look) : List Reduced → Bool
  | [] => true
  | r :: rest => isBound backward condition r && allAreBound backward condition rest

end

/-- The automaton for an expression in one direction is not too large. Where a match is not bound to
the start, a loop over any bytes stands in front. -/
def fitsIn (backward : Bool) (r : Reduced) : Bool :=
  let room : Option Room := do
    let room ← if isBound backward (if backward then .textEnd else .textStart) r then
        ({} : Room).make 1 0
      else ({} : Room).make 3 16
    let b ← build backward (if backward then r else .group r) room
    linkFrom b.isFork (← b.room.make 1 0)
  room.isSome

/-- The automata for an expression are not too large. -/
def fits (r : Reduced) : Bool := fitsIn false r && fitsIn true r

end XmlBinding.Automaton
