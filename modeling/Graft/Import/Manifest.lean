import Graft.Dictionary
import Graft.Symbol
import Graft.Text.QualifiedName
import Graft.Token

/-!
# Manifests

What the definitions of a patch module mean for the target: each definition that has a mapping
states its intent and, if it differs, where it lands. Definitions are known by their tokens.
-/

namespace Graft

/-- What a definition of a patch module is for. -/
inductive Intent where
  /-- It has to exist in the target and is only referred to. -/
  | dependency
  /-- It has to exist in the target and its body is replaced. -/
  | mixin
  /-- It must not exist in the target and is added. -/
  | inject
  /-- It is added where it is missing. -/
  | generated
  deriving DecidableEq, Repr, Inhabited

namespace Intent

/-- The name of an intent. -/
def name : Intent → String
  | dependency => "Dependency"
  | mixin => "Mixin"
  | inject => "Inject"
  | generated => "Generated"

/-- Every intent. -/
def all : List Intent :=
  [dependency, mixin, inject, generated]

/-- The policy that an intent stands for. -/
def policy : Intent → Policy
  | dependency | mixin => .failIfMissing
  | inject => .failIfPresent
  | generated => .createIfMissing

/-- Whether bodies are carried over. -/
def carriesBody (intent : Intent) : Bool :=
  intent ≠ dependency

end Intent

/-- The intent of one definition and where it lands. -/
structure Mapping where
  intent : Intent
  /-- The name in the target, if it differs; that of a top-level type includes the namespace. -/
  targetName : Option String := none
  /-- The target module of a top-level type. -/
  targetModule : Option String := none
  deriving DecidableEq, Repr, Inhabited

/-- How a patch module maps onto its targets. -/
structure Manifest where
  /-- The name of the patch, if it is not that of the patch module. -/
  name : Option String := none
  /-- The modules that the patch needs, and whether each is read-only. -/
  required : List (String × Bool) := []
  mappings : Dictionary Token Mapping := {}
  /-- The methods that stand for the base body: the body that is being replaced. -/
  bases : List Token := []
  deriving Inhabited

namespace Manifest

/-- The manifest with a mapping; a later one for the same token replaces it. -/
def map (manifest : Manifest) (token : Token) (mapping : Mapping) : Manifest :=
  { manifest with mappings := manifest.mappings.insert token mapping }

/-- The manifest with one more method that stands for the base body. -/
def addBase (manifest : Manifest) (token : Token) : Manifest :=
  if manifest.bases.contains token then manifest
  else { manifest with bases := manifest.bases ++ [token] }

/-- The intent of a definition: its own, or, inside a generated type, that of the type. -/
def intentOf (manifest : Manifest) (token : Token) (outer : Option Intent) : Option Intent :=
  match manifest.mappings.get? token with
  | some mapping => some mapping.intent
  | none => if outer = some .generated then some .generated else none

/-- The name that a definition has in the target. -/
def targetName (manifest : Manifest) (token : Token) (ownName : String) : String :=
  ((manifest.mappings.get? token).bind (·.targetName)).getD ownName

end Manifest

end Graft
