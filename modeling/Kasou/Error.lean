import Kasou.Path
import Kasou.Vm.State

/-!
# Errors

`NSError` is the framework's error tree, `FrameworkError` its projection with
the text that the crate renders for it, and `KasouError` the crate's own error
type.
-/

namespace Kasou

/-- A framework error: domain, code, description, optional reason and
recovery suggestion, and the errors underlying it. -/
inductive NSError where
  | mk (domain : Text) (code : Int) (localizedDescription : Text)
      (localizedFailureReason localizedRecoverySuggestion : Option Text)
      (underlyingErrors : List NSError)

/-- The crate's projection of an `NSError`. -/
structure FrameworkError where
  domain : Text
  code : Int
  localizedDescription : Text
  failureReason : Option Text
  recoverySuggestion : Option Text
  underlying : List FrameworkError

namespace FrameworkError

mutual

/-- Walk an `NSError` once. -/
def fromNsError : NSError → FrameworkError
  | .mk domain code description reason suggestion underlying =>
      { domain := domain
        code := code
        localizedDescription := description
        failureReason := reason
        recoverySuggestion := suggestion
        underlying := fromNsErrors underlying }

/-- `fromNsError` on each of the underlying errors. -/
def fromNsErrors : List NSError → List FrameworkError
  | [] => []
  | e :: es => fromNsError e :: fromNsErrors es

end

/-- An optional part of the rendered line: present only with its value. -/
def optionalPart (label : String) : Option Text → Text
  | none => []
  | some t => label.toList ++ t ++ ")".toList

mutual

/-- One line for the error itself, then one for each cause. -/
def display : FrameworkError → Text
  | ⟨domain, code, description, reason, suggestion, underlying⟩ =>
      description ++ optionalPart " (reason: " reason ++
        optionalPart " (suggestion: " suggestion ++
        " [".toList ++ domain ++ ":".toList ++ (toString code).toList ++
        "]".toList ++ displayUnderlying underlying

/-- The causes, each on a line of its own. -/
def displayUnderlying : List FrameworkError → Text
  | [] => []
  | e :: es => "\n  caused by: ".toList ++ display e ++ displayUnderlying es

end

theorem displayUnderlying_nil : displayUnderlying [] = [] := rfl

theorem displayUnderlying_cons (e : FrameworkError)
    (es : List FrameworkError) :
    displayUnderlying (e :: es) =
      "\n  caused by: ".toList ++ display e ++ displayUnderlying es := rfl

end FrameworkError

/-- `util::ns_error_chain`. -/
def nsErrorChain (error : NSError) : FrameworkError :=
  .fromNsError error

/-- The errors that configuration and lifecycle management can return. -/
inductive KasouError where
  | invalidConfig (message : Text)
  | operationFailed (message : Text)
  | invalidMac (mac : Text)
  | diskNotFound (path : Path)
  | bootFilesNotFound (message : Text)
  | framework (message : Text)
  | validation (message : Text)
  | invalidState (current : VmState) (expected : Text)
  | queueCancelled
  deriving DecidableEq

end Kasou
