import XmlBinding.Bean.Error
import XmlBinding.Pattern.Error
import XmlBinding.Position
import XmlBinding.Stack

/-!
# Failures

What can go wrong in a rule, in a document and in an event, each with its text. A failed rule is
reported with the phase, the path and the position at which it failed.
-/
namespace XmlBinding

inductive Phase
  | start
  | body
  | close
  | finish
  deriving DecidableEq, Inhabited

def Phase.label : Phase → String
  | .start => "begin"
  | .body => "body"
  | .close => "end"
  | .finish => "finish"

inductive RuleError
  | call (cause : CallError)
  | emptyStack (name : StackName)
  | unknownClass (name : String)
  | unknownFactory (name : String)
  | noClassName (attr : String)
  | nothingOnStack (rule : String)
  | noCallTarget (offset : Int) (depth : Nat)
  | noParameterFrame
  | parameterIndex (index size : Nat)
  | creation (text : String)
  | custom (text : String)
  deriving DecidableEq

def RuleError.message : RuleError → String
  | .call cause => cause.message
  | .emptyStack name => "named stack '" ++ name.text ++ "' is empty"
  | .unknownClass name => "unknown class '" ++ name ++ "'"
  | .unknownFactory name => "unknown object creation factory '" ++ name ++ "'"
  | .noClassName attr =>
    "no class name configured and attribute '" ++ attr ++ "' not present"
  | .nothingOnStack rule => "object stack is empty, " ++ rule ++ " has nothing to work on"
  | .noCallTarget offset depth =>
    "call target is null (target offset " ++ toString offset ++ ", stack depth " ++
      toString depth ++ ")"
  | .noParameterFrame => "no parameter frame on the parameter stack"
  | .parameterIndex index size =>
    "parameter index " ++ toString index ++ " out of range for a frame of " ++ toString size
  | .creation text => "object creation failed: " ++ text
  | .custom text => text

inductive DocumentFault
  | unknownEntity (name : String)
  | unclosedElement (name : String)
  | strayEndTag
  | unboundName (label : String)
  | illFormed
  deriving DecidableEq

/-- The text of a fault; a document that is not well formed is not explained further. -/
def DocumentFault.message? : DocumentFault → Option String
  | .unknownEntity name => some ("unknown entity '&" ++ name ++ ";'")
  | .unclosedElement name => some ("unexpected end of document inside <" ++ name ++ ">")
  | .strayEndTag => some "end tag without start tag"
  | .unboundName label => some ("unbound namespace prefix '" ++ label ++ "'")
  | .illFormed => none

/-- A rule that failed, and where it did. -/
structure RuleFailure where
  rule : String
  phase : Phase
  path : String
  position : Option Position
  cause : RuleError
  deriving DecidableEq

inductive BindError
  | rule (failure : RuleFailure)
  | document (position : Position) (fault : DocumentFault)
  | unbalanced (name : String)
  | pattern (cause : PatternError)
  | unreadable
  deriving DecidableEq

def BindError.message : BindError → String
  | .rule f =>
    f.rule ++ "." ++ f.phase.label ++ "() failed at '" ++ f.path ++ "'" ++
      Position.suffix f.position ++ ": " ++ f.cause.message
  | .document position fault =>
    "XML syntax error" ++ Position.suffix (some position) ++
      match fault.message? with
      | some text => ": " ++ text
      | none => ""
  | .unbalanced name => "end of element '" ++ name ++ "' without a matching start"
  | .pattern cause => cause.message
  | .unreadable => "I/O error"

end XmlBinding
