/-!
# Access levels

From where a symbol can be reached, and when one level grants everything another grants. Family
and assembly access are not comparable with each other.
-/

namespace Graft

/-- From where a symbol can be reached. -/
inductive AccessLevel where
  /-- From its own module only, and never by name. -/
  | compilerControlled
  /-- From inside its declaring type. -/
  | declaringType
  | familyAndAssembly
  | assembly
  | family
  | familyOrAssembly
  /-- From everywhere. -/
  | everywhere
  deriving DecidableEq, Repr, Inhabited

namespace AccessLevel

/-- The name of a level. -/
def name : AccessLevel → String
  | .compilerControlled => "CompilerControlled"
  | .declaringType => "Private"
  | .familyAndAssembly => "FamilyAndAssembly"
  | .assembly => "Assembly"
  | .family => "Family"
  | .familyOrAssembly => "FamilyOrAssembly"
  | .everywhere => "Public"

/-- Every level. -/
def all : List AccessLevel :=
  [.compilerControlled, .declaringType, .familyAndAssembly, .assembly, .family, .familyOrAssembly,
   .everywhere]

/-- Whether a symbol with level `granted` can be reached from everywhere that `required` asks
for. -/
def dominates (granted required : AccessLevel) : Bool :=
  match required with
  | .compilerControlled | .declaringType => true
  | .familyAndAssembly =>
    [familyAndAssembly, assembly, family, familyOrAssembly, everywhere].contains granted
  | .assembly => [assembly, familyOrAssembly, everywhere].contains granted
  | .family => [family, familyOrAssembly, everywhere].contains granted
  | .familyOrAssembly => [familyOrAssembly, everywhere].contains granted
  | .everywhere => granted = everywhere

/-- The level of a member, from the low three bits of its flags. -/
def ofMemberBits (bits : UInt32) : AccessLevel :=
  match bits &&& 7 with
  | 1 => .declaringType
  | 2 => .familyAndAssembly
  | 3 => .assembly
  | 4 => .family
  | 5 => .familyOrAssembly
  | 6 => .everywhere
  | _ => .compilerControlled

/-- The level of a type, from the low three bits of its flags. A top-level type is public or
visible inside its assembly; the other levels exist for nested types only. -/
def ofTypeBits (nested : Bool) (bits : UInt32) : AccessLevel :=
  if nested then
    match bits &&& 7 with
    | 2 => .everywhere
    | 4 => .family
    | 5 => .assembly
    | 6 => .familyAndAssembly
    | 7 => .familyOrAssembly
    | _ => .declaringType
  else if bits &&& 7 = 1 then .everywhere
  else .assembly

end AccessLevel

end Graft
