import Graft.Proofs.Definition.Apart

/-!
# Building definitions

All that is done to definitions. One is made that belongs to nothing and holds nothing yet
(`Record.Blank`); one is made and added to another one; one that is listed nowhere is adopted, with
all that it holds, by another one (`Definitions.adopt`); or something is altered that has no part in
what lists what. Each of these is one step of `Builds`.
-/

namespace Graft

/-- Whether a record is that of something new: it holds nothing and belongs to nothing. -/
structure Record.Blank (record : Record) : Prop where
  members : record.members = fun _ => []
  token : record.nature.token = none
  owner : record.nature.owner = none
  module : record.nature.module = none

namespace Definitions

/-- Whether a definition exists and is listed nowhere. -/
structure Detached (defs : Definitions) (definition : Definition) : Prop where
  has : defs.has definition = true
  unlisted : ∀ holder kind, definition ∉ defs.members holder kind

theorem detached_iff {defs : Definitions} {definition : Definition} :
    defs.Detached definition ↔ defs.has definition = true ∧
      ∀ holder ∈ defs.all, ∀ kind ∈ SymbolKind.all, definition ∉ defs.members holder kind := by
  refine ⟨fun h => ⟨h.has, fun holder _ kind _ => h.unlisted holder kind⟩, fun ⟨hhas, hnone⟩ =>
    ⟨hhas, fun holder kind hmem => ?_⟩⟩
  exact hnone holder (mem_all (has_of_mem_members hmem)) kind kind.mem_all hmem

instance (defs : Definitions) (definition : Definition) : Decidable (defs.Detached definition) :=
  decidable_of_iff _ detached_iff.symm

/-- A definition listed last by another one. -/
def list (defs : Definitions) : Definition → Definition → Definitions
  | .module module, .type id =>
    defs.updateModule module fun record => { record with types := record.types ++ [id] }
  | .type owner, .type id =>
    defs.updateType owner fun record => { record with nested := record.nested ++ [id] }
  | .type owner, .field id =>
    defs.updateType owner fun record => { record with fields := record.fields ++ [id] }
  | .type owner, .method id =>
    defs.updateType owner fun record => { record with methods := record.methods ++ [id] }
  | .type owner, .property id =>
    defs.updateType owner fun record => { record with properties := record.properties ++ [id] }
  | .type owner, .event id =>
    defs.updateType owner fun record => { record with events := record.events ++ [id] }
  | _, _ => defs

/-- A definition attached to another one, with all that it holds, without being listed there. -/
def attach (defs : Definitions) : Definition → Definition → Definitions
  | .module module, .type id => defs.enterType module id
  | .type owner, .type id => defs.attachNested owner id
  | .type owner, .field id => defs.attachField owner id
  | .type owner, .method id => defs.attachMethod owner id
  | .type owner, .property id => defs.attachProperty owner id
  | .type owner, .event id => defs.attachEvent owner id
  | _, _ => defs

/-- A definition attached to another one and then listed there. -/
def adopt (defs : Definitions) (parent child : Definition) : Definitions :=
  (defs.attach parent child).list parent child

/-- One thing that is done to definitions. -/
inductive Builds (defs : Definitions) : Definitions → Prop where
  | makeModule (name : String) : Builds defs (defs.makeModule { name }).2
  | makeType {type : TypeDef} (hblank : type.record.Blank) : Builds defs (defs.makeType type).2
  | makeField {field : FieldDef} (hblank : field.record.Blank) :
      Builds defs (defs.makeField field).2
  | makeMethod {method : MethodDef} (hblank : method.record.Blank) :
      Builds defs (defs.makeMethod method).2
  | makeProperty {property : PropertyDef} (hblank : property.record.Blank) :
      Builds defs (defs.makeProperty property).2
  | makeEvent {event : EventDef} (hblank : event.record.Blank) :
      Builds defs (defs.makeEvent event).2
  | addType {module : DefId .module} {type : TypeDef}
      (hmodule : defs.has (.module module) = true) (hblank : type.record.Blank) :
      Builds defs (defs.addType module type).2
  | addNested {owner : DefId .type} {type : TypeDef}
      (howner : defs.has (.type owner) = true) (hblank : type.record.Blank) :
      Builds defs (defs.addNested owner type).2
  | addField {owner : DefId .type} {field : FieldDef}
      (howner : defs.has (.type owner) = true) (hblank : field.record.Blank) :
      Builds defs (defs.addField owner field).2
  | addMethod {owner : DefId .type} {method : MethodDef}
      (howner : defs.has (.type owner) = true) (hblank : method.record.Blank) :
      Builds defs (defs.addMethod owner method).2
  | addProperty {owner : DefId .type} {property : PropertyDef}
      (howner : defs.has (.type owner) = true) (hblank : property.record.Blank) :
      Builds defs (defs.addProperty owner property).2
  | addEvent {owner : DefId .type} {event : EventDef}
      (howner : defs.has (.type owner) = true) (hblank : event.record.Blank) :
      Builds defs (defs.addEvent owner event).2
  | adopt {parent child : Definition} (hparent : defs.has parent = true)
      (hchild : defs.Detached child) : Builds defs (defs.adopt parent child)
  | alter {defs' : Definitions} {changed : Definition} {change : Record → Record}
      (hchanges : defs.Changes defs' changed change)
      (hnature : ∀ record, (change record).nature = record.nature)
      (hmembers : ∀ record, (change record).members = record.members)
      (hledgers : ∀ module, defs'.ledger module = defs.ledger module) : Builds defs defs'

end Definitions

end Graft
