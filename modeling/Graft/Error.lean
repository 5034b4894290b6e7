import Graft.Signature.Basic
import Graft.Text.Quoted
import Graft.Token

/-!
# Errors

Why an operation failed. Every error states its cause as data; the wording stands in `message`
alone. Names are those that the symbols had when the error was made.
-/

namespace Graft

/-- Why a declaration contradicts an earlier one. -/
inductive Clash where
  | modulePolicy (name : String) (existing requested : Policy)
  | moduleAccess (name : String) (existing requested : Bool)
  | symbolPolicy (existing requested : Policy)
  | typeAccess (existing requested : Bool)
  deriving DecidableEq, Repr, Inhabited

/-- What of an existing definition does not fit its declaration. -/
inductive Mismatch where
  | baseType
  | genericCount (existing declared : Nat)
  | fieldSignature
  | resultType
  | propertySignature
  | eventType
  deriving DecidableEq, Repr, Inhabited

/-- Why a reference leads nowhere. -/
inductive DeadEnd where
  /-- A declaration whose declaring scope is gone. -/
  | detached (symbol : Symbol)
  /-- A reference to a declaration that is gone. -/
  | gone (kind : SymbolKind)
  /-- A method without a declaring type. -/
  | unattached (method : String)
  /-- A token of something that no instruction takes. -/
  | badOperand (token : Token) (symbol : Symbol)
  /-- A token of nothing an instruction takes. -/
  | unknownToken (token : Token)
  /-- A definition of the patch module without an intent. -/
  | undeclared (name : String)
  /-- A nested type with an intent inside a type without one. -/
  | undeclaredOuter (outer name : String)
  deriving DecidableEq, Repr, Inhabited

/-- Why a signature cannot be used. -/
inductive BadSignature where
  | resolveUnknown
  | importUnknown
  /-- A generic variable whose method never turned up. -/
  | unowned (kind : VarKind) (index : UInt32)
  deriving DecidableEq, Repr, Inhabited

/-- Why a request is refused. -/
inductive Refusal where
  | invalidStreamName (name : String)
  | noTargetModule (type : String)
  | targetNotRequired (type module : String)
  | kindMismatch (symbol : Symbol) (found : SymbolKind)
  | noUnusedName (stem : String)
  /-- A caller's own reason. -/
  | custom (reason : String)
  deriving DecidableEq, Repr, Inhabited

/-- The reason for a failure. -/
inductive Error where
  | conflict (symbol : Symbol) (clash : Clash)
  | notFound (symbol : Symbol)
  | alreadyExists (symbol : Symbol)
  | incompatible (symbol : Symbol) (mismatch : Mismatch)
  | readOnly (symbol : Symbol)
  | cyclic (symbol : Symbol)
  | unresolved (deadEnd : DeadEnd)
  | badSignature (reason : BadSignature)
  | moduleNotFound (name : String)
  | patchFailed (patch : String) (cause : Error)
  | invalidEncoding
  | lockFailed
  | refused (reason : Refusal)
  deriving DecidableEq, Repr, Inhabited

/-- The word for what a declaration may do to its module or type. -/
def accessMode (readOnly : Bool) : String :=
  if readOnly then "read-only" else "writable"

/-- What a clash says. -/
def Clash.message : Clash → String
  | modulePolicy name existing requested =>
    "existing module " ++ name ++ " has kind " ++ existing.word ++ " but kind " ++ requested.word
      ++ " was requested"
  | moduleAccess name existing requested =>
    "existing module " ++ name ++ " is " ++ accessMode existing ++ " but " ++ accessMode requested
      ++ " was requested"
  | symbolPolicy existing requested =>
    "existing symbol has kind " ++ existing.word ++ " but kind " ++ requested.word
      ++ " was requested"
  | typeAccess existing requested =>
    "existing type is " ++ accessMode existing ++ " but " ++ accessMode requested
      ++ " was requested"

/-- What a mismatch says. -/
def Mismatch.message : Mismatch → String
  | baseType => "existing type has an incompatible base type"
  | genericCount existing declared =>
    "existing type has " ++ toString existing ++ " generic parameters but " ++ toString declared
      ++ " were declared"
  | fieldSignature => "existing field has an incompatible signature"
  | resultType => "existing method has an incompatible return type"
  | propertySignature => "existing property has an incompatible signature"
  | eventType => "existing event has an incompatible type"

/-- What a dead end says. -/
def DeadEnd.message : DeadEnd → String
  | detached symbol => symbol.text ++ " is detached from its declaring scope"
  | gone kind => "referenced " ++ kind.word ++ " no longer exists"
  | unattached method => method ++ " is not attached to a type"
  | badOperand token symbol =>
    "token " ++ token.text ++ " names " ++ symbol.text ++ ", which is not a valid operand"
  | unknownToken token => "token " ++ token.text ++ " does not name a type, field or method"
  | undeclared name => name ++ " is defined by the patch but declares no intent"
  | undeclaredOuter outer name =>
    outer ++ " declares " ++ name ++ " but declares no intent itself"

/-- What a bad signature says. -/
def BadSignature.message : BadSignature → String
  | resolveUnknown => "cannot resolve a signature of unknown shape"
  | importUnknown => "cannot import a signature of unknown shape"
  | unowned kind index =>
    "generic variable " ++ (match kind with | .type => "!" | .method => "!!")
      ++ toString index.toNat ++ " was never bound to its method"

/-- What a refusal says. -/
def Refusal.message : Refusal → String
  | invalidStreamName name => "invalid stream name " ++ Text.quoted name
  | noTargetModule type => type ++ " does not name its target module"
  | targetNotRequired type module =>
    type ++ " targets module " ++ module ++ ", which the patch does not require"
  | kindMismatch symbol found => symbol.text ++ " resolved to a " ++ found.word
  | noUnusedName stem => "no unused method name for " ++ stem
  | custom reason => reason

namespace Error

/-- What an error says. -/
def message : Error → String
  | conflict symbol clash => "conflicting " ++ symbol.text ++ ": " ++ clash.message
  | notFound symbol => "could not find a definition for " ++ symbol.text
  | alreadyExists symbol => "a definition for " ++ symbol.text ++ " already exists"
  | incompatible symbol mismatch => symbol.text ++ ": " ++ mismatch.message
  | readOnly symbol =>
    "failed to install " ++ symbol.text
      ++ ": symbol is read-only but a modification is required"
  | cyclic symbol => "cyclic resolution of " ++ symbol.text
  | unresolved deadEnd => "unresolved token - " ++ deadEnd.message
  | badSignature reason => "invalid signature - " ++ reason.message
  | moduleNotFound name => "cannot open module " ++ name
  | patchFailed patch _ => "failed to install " ++ patch
  | invalidEncoding => "stream did not contain valid UTF-8"
  | lockFailed => "Failed to lock target"
  | refused reason => reason.message

/-- The innermost error: what made the patch fail. -/
def root : Error → Error
  | patchFailed _ cause => cause.root
  | error => error

/-- The symbol that the innermost error is about, if it is about one. -/
def symbol? (error : Error) : Option Symbol :=
  match error.root with
  | conflict symbol _ | notFound symbol | alreadyExists symbol | incompatible symbol _
  | readOnly symbol | cyclic symbol => some symbol
  | _ => none

end Error

end Graft
