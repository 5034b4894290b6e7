import Graft.Import.Signature
import Graft.Transplant.Context

/-!
# Carrying operands over

What becomes of the references in a body when the body is moved to another method. References are
resolved, those into a patch module after being imported; calls that stand for the base body
become calls to the hidden method; a raw token becomes the reference it names.
-/

namespace Graft.Transformer

open SessionTask TransplantTask

/-- A value imported, if the transformer imports at all. -/
def enter {α : Type} (transformer : Transformer) (importWith : ImporterId → α → Task α)
    (value : α) : TransplantTask α :=
  match transformer with
  | .plain | .redirecting .. => return value
  | .importing importer _ => (ofTask (importWith importer value) : SessionTask α)

/-- A type reference carried over. -/
def typeRef (transformer : Transformer) (ref : TypeRef) : TransplantTask TypeRef := do
  Search.resolveTypeRef resolve (← transformer.enter ImporterId.importTypeRef ref)

/-- A type signature carried over. -/
def typeSig (transformer : Transformer) (signature : TypeSig) : TransplantTask TypeSig := do
  Search.resolveTypeSig resolve (← transformer.enter ImporterId.importTypeSig signature)

/-- The signature of a call carried over. -/
def callSite (transformer : Transformer) (signature : MethodSig) : TransplantTask MethodSig := do
  Search.resolveMethodSig resolve (← transformer.enter ImporterId.importMethodSig signature)

/-- A field reference carried over. -/
def fieldRef (transformer : Transformer) (ref : FieldRef) : TransplantTask FieldRef := do
  Search.resolveFieldRef resolve (← transformer.enter ImporterId.importFieldRef ref)

/-- Whether a reference stands for the base body. -/
def isBase (transformer : Transformer) (world : World) (ref : MethodRef) : Bool :=
  match transformer with
  | .plain => false
  | .redirecting bases _ => bases.any fun base => base.same world.typeNames .strict ref
  | .importing importer bases =>
    match ref with
    | .definition id =>
      importer.ownsMethod world id && bases.contains (world.defs.token (.method id))
    | _ => false

/-- A method reference carried over. -/
def methodRef (transformer : Transformer) (ref : MethodRef) : TransplantTask MethodRef := do
  let world ← (world : SessionTask World)
  match ref with
  | .instantiated method args =>
    if transformer.isBase world method then
      let hidden ← baseMethod
      return .instantiated (.definition hidden) (← args.mapM transformer.typeSig)
  | _ =>
    if transformer.isBase world ref then
      return .definition (← baseMethod)
  Search.resolveMethodRef resolve (← transformer.enter ImporterId.importMethodRef ref)

/-- The module whose symbols raw tokens name. -/
def tokenScope? (transformer : Transformer) (world : World) : Option (DefId .module) :=
  match transformer with
  | .plain => none
  | .redirecting _ scope => scope
  | .importing importer _ => some (world.importer importer).scope

/-- What a raw token names, as an operand carried over. -/
def token (transformer : Transformer) (token : Token) : TransplantTask Operand := do
  let world ← (world : SessionTask World)
  match (transformer.tokenScope? world).bind fun scope => world.defs.lookup scope token with
  | some (.type id) => return .type (← transformer.typeRef (.definition id))
  | some (.field id) => return .field (← transformer.fieldRef (.definition id))
  | some (.method id) => return .method (← transformer.methodRef (.definition id))
  | some other => throw (.unresolved (.badOperand token (world.defSymbol other)))
  | none => throw (.unresolved (.unknownToken token))

/-- An operand carried over. Numbers, text, places in the code and indices of variables stay. -/
def operand (transformer : Transformer) : Operand → TransplantTask Operand
  | .type ref => return .type (← transformer.typeRef ref)
  | .field ref => return .field (← transformer.fieldRef ref)
  | .method ref => return .method (← transformer.methodRef ref)
  | .token value => transformer.token value
  | .signature value => return .signature (← transformer.callSite value)
  | .none => return .none
  | .immediate value => return .immediate value
  | .text value => return .text value
  | .target index => return .target index
  | .switch targets => return .switch targets
  | .localVar index => return .localVar index
  | .argument index => return .argument index

end Graft.Transformer
