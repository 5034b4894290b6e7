import Graft.Import.Manifest
import Graft.Workbench.Signature

/-!
# Reading patches

Transformers, manifests and installation settings from documents.
-/

namespace Graft.Document

/-- A transformer. A text stands for the one that only resolves. -/
def asTransformer (document : Document) : Work Transformer := do
  if document.text?.isSome then return .plain
  if document.has "importer" then
    return .importing (← document.named "importer" Work.importer) (← document.every "base" asToken)
  return .redirecting (← document.every "base" asMethodRef)
    (← document.named? "scope" Work.moduleDef)

/-- The name of a module that a patch needs, and whether it is read-only. -/
def asRequirement (document : Document) : Work (String × Bool) := do
  match document.items with
  | [name, readOnly] => return (← asText name.1, asFlag readOnly.1)
  | _ => throw .malformed

/-- The intent of a definition. -/
def asIntent (document : Document) : Work Intent :=
  document.oneOf "intent" Intent.name Intent.all

/-- A token and what it is mapped to. -/
def asMapping (document : Document) : Work (Token × Mapping) := do
  return (← document.require "token" asToken,
    ⟨← document.asIntent, ← document.optional "name" asText, ← document.optional "module" asText⟩)

/-- A manifest. -/
def asManifest (document : Document) : Work Manifest := do
  let manifest : Manifest :=
    { name := ← document.optional "name" asText
      required := ← document.every "required" asRequirement }
  let mappings ← document.every "declare" asMapping
  let manifest := mappings.foldl (fun manifest entry => manifest.map entry.1 entry.2) manifest
  return (← document.every "base" asToken).foldl Manifest.addBase manifest

/-- The settings that a word stands for. -/
def asPreset : String → Work InstallConfig
  | "default" => return {}
  | "sequential" => return .sequential
  | "parallel" => return .concurrent
  | "dry_run" => return .dryRun
  | _ => throw .malformed

/-- Installation settings: a preset, of which some may be set otherwise. -/
def asConfig (document : Document) : Work InstallConfig := do
  let preset ← asPreset (← document.strD "preset" "default")
  let setting (name : String) (usual : Bool) : Bool :=
    if document.has name then document.isSet name else usual
  return {
    parallel := setting "parallel" preset.parallel
    verifyDependencies := setting "verify" preset.verifyDependencies
    persist := setting "persist" preset.persist
    hiddenSuffix := ← document.strD "suffix" preset.hiddenSuffix }

end Graft.Document
