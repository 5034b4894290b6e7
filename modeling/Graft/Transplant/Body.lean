import Graft.Transplant.Transformer

/-!
# Transplanting bodies

Moving a body into a method: first the instructions are carried over, then the local variables,
then the types that exception handlers catch; everything else stays as it is, and the offsets are
computed anew. Only when all of it has succeeded is the method's body replaced.
-/

namespace Graft

namespace Transformer

open TransplantTask

/-- An instruction carried over. -/
def instruction (transformer : Transformer) (instruction : Instruction) :
    TransplantTask Instruction :=
  return { instruction with operand := ← transformer.operand instruction.operand }

/-- An exception handler carried over. -/
def handler (transformer : Transformer) (handler : Handler) : TransplantTask Handler :=
  return { handler with catchType := ← handler.catchType.mapM transformer.typeRef }

/-- A body carried over. -/
def body (transformer : Transformer) (body : Body) : TransplantTask Body := do
  let code ← body.code.mapM transformer.instruction
  let locals ← body.locals.mapM transformer.typeSig
  let handlers ← body.handlers.mapM transformer.handler
  return { body with code, locals, handlers }.withOffsets

end Transformer

namespace SessionTask

/-- Replaces the body of the method that a declaration stands for by the declared one, if one is
declared. The answer is the hidden method that holds the body replaced, if it was made. -/
def transplant (declaration : DeclId .method) (suffix : String) :
    SessionTask (Option (DefId .method)) := do
  let some graft := ((← world).decls.method declaration).body | return none
  checkWritable (.method declaration)
  let method ← Search.method resolve declaration
  let context := TransplantContext.start (← world) method suffix
  let (body, context) ← (graft.transformer.body graft.body).run context
  changeDefs (·.updateMethod method fun record => { record with body := some body })
  log (.bodyReplaced ((← world).methodName method))
  return context.hidden

end SessionTask

end Graft
