import XmlBinding.Heap
import XmlBinding.Metrics
import XmlBinding.Rule

/-!
# Replies and events

What an operation answers, and what a run shows to somebody who watches it. An answer that holds
values comes with the object store of its moment, because the objects may change later.
-/
namespace XmlBinding

inductive Failure
  | rule (cause : RuleError)
  | bind (cause : BindError)
  deriving DecidableEq

def Failure.message : Failure → String
  | .rule cause => cause.message
  | .bind cause => cause.message

inductive Answer
  | done
  | value (v : Value)
  | valueOrNone (v : Option Value)
  | valuesOrNone (vs : Option (List Value))
  | flag (b : Bool)
  | flags (bs : List Bool)
  | number (n : Nat)
  | numberOrNone (n : Option Nat)
  | text (s : Option String)
  | names (ns : List String)
  | type (t : Option ScalarType)
  | types (ts : Option (List ScalarType))
  | position (p : Option Position)
  | metrics (m : Metrics)
  | stackState (isEmpty : Bool) (size : Nat)
  | failure (cause : Failure)
  /-- The operation did not come to an end. -/
  | crash
  /-- The replies of the last `count` inner operations that were shown. -/
  | several (count : Nat)
  deriving Inhabited

/-- An answer and the object store of its moment. -/
abbrev Reply := Answer × Heap

/-- Where a run stands: the path, the number of open elements and the number of stacked objects. -/
structure Place where
  path : String
  depth : Nat
  count : Nat
  deriving DecidableEq

inductive Event
  /-- A method is about to be called. -/
  | invoke (target method : String) (arity : Nat) (types : List ScalarType)
  /-- A property is about to be assigned. -/
  | assign (target property value : String)
  /-- A property was asked about. -/
  | asked (target property : String) (writable : Bool)
  /-- A recording rule was called. -/
  | recorded (rule : String) (callback : Callback)
  /-- An operation inside another one was carried out. Its reply is part of the other's answer. -/
  | inner (reply : Reply)
  /-- A step of a scripted rule was carried out. -/
  | step (rule : String) (phase : Phase) (reply : Reply) (place : Place)

end XmlBinding
