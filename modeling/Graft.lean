import Graft.Access
import Graft.Code.Body
import Graft.Code.Immediate
import Graft.Code.Instruction
import Graft.Code.Opcode
import Graft.Code.OpcodeTable
import Graft.Declaration.Basic
import Graft.Declaration.Declare
import Graft.Declaration.Members
import Graft.Declaration.Walk
import Graft.Definition.Attach
import Graft.Definition.Basic
import Graft.Definition.Members
import Graft.Diagnostics
import Graft.Dictionary
import Graft.Document.Basic
import Graft.Document.Code
import Graft.Document.Declaration
import Graft.Document.Definition
import Graft.Document.Signature
import Graft.Error
import Graft.Flags
import Graft.Flags.Merge
import Graft.Forest
import Graft.Import.Importer
import Graft.Import.Manifest
import Graft.Import.Patch
import Graft.Import.Signature
import Graft.Install
import Graft.Liveness
import Graft.LogEntry
import Graft.Naming
import Graft.Proofs.Code.Offsets
import Graft.Proofs.Declaration.Consistent
import Graft.Proofs.Declaration.Naming
import Graft.Proofs.Declaration.Statement
import Graft.Proofs.Declaration.Walking
import Graft.Proofs.Definition.Adoption
import Graft.Proofs.Definition.Apart
import Graft.Proofs.Definition.Belonging
import Graft.Proofs.Definition.Building
import Graft.Proofs.Definition.Change
import Graft.Proofs.Definition.Extensional
import Graft.Proofs.Definition.Filing
import Graft.Proofs.Definition.Growth
import Graft.Proofs.Definition.Nesting
import Graft.Proofs.Definition.Numbering
import Graft.Proofs.Definition.Record
import Graft.Proofs.Definition.Trail
import Graft.Proofs.Definition.WellFormed
import Graft.Proofs.Flags.Merge
import Graft.Proofs.Flags.Widening
import Graft.Proofs.Forest.Preorder
import Graft.Proofs.Import.Basing
import Graft.Proofs.Import.Declaring
import Graft.Proofs.Import.Detailing
import Graft.Proofs.Import.Gathering
import Graft.Proofs.Import.Importing
import Graft.Proofs.Import.Mapping
import Graft.Proofs.Import.Merging
import Graft.Proofs.Import.Mirroring
import Graft.Proofs.Import.Naming
import Graft.Proofs.Import.Overlooking
import Graft.Proofs.Import.Owning
import Graft.Proofs.Import.Passing
import Graft.Proofs.Import.Patching
import Graft.Proofs.Import.Placing
import Graft.Proofs.Import.Sourcing
import Graft.Proofs.Import.Translating
import Graft.Proofs.Import.Visiting
import Graft.Proofs.Import.Walking
import Graft.Proofs.Install.Basing
import Graft.Proofs.Install.Creating
import Graft.Proofs.Install.Failing
import Graft.Proofs.Install.Parts
import Graft.Proofs.Install.Repeating
import Graft.Proofs.Install.Satisfying
import Graft.Proofs.Install.Saving
import Graft.Proofs.Install.Separating
import Graft.Proofs.Install.Splitting
import Graft.Proofs.Install.Touching
import Graft.Proofs.Members.Agreeing
import Graft.Proofs.Members.Order
import Graft.Proofs.Members.Seeking
import Graft.Proofs.Pairing.Circles
import Graft.Proofs.Scopes.Order
import Graft.Proofs.Session.Accretion
import Graft.Proofs.Session.Asking
import Graft.Proofs.Session.Calls
import Graft.Proofs.Session.Itinerary
import Graft.Proofs.Session.Leads
import Graft.Proofs.Session.Locating
import Graft.Proofs.Session.Memo
import Graft.Proofs.Session.Moment
import Graft.Proofs.Session.Numbering
import Graft.Proofs.Session.Projecting
import Graft.Proofs.Session.Reconciling
import Graft.Proofs.Session.Reference
import Graft.Proofs.Session.Resolution
import Graft.Proofs.Session.Retracing
import Graft.Proofs.Session.Running
import Graft.Proofs.Session.Separate
import Graft.Proofs.Session.Sound
import Graft.Proofs.Session.Sparing
import Graft.Proofs.Session.Standing
import Graft.Proofs.Session.Step
import Graft.Proofs.Session.Writing
import Graft.Proofs.Signature.Bare
import Graft.Proofs.Signature.Equality
import Graft.Proofs.Signature.Filling
import Graft.Proofs.Signature.Naming
import Graft.Proofs.Signature.Normal
import Graft.Proofs.Signature.Relaxing
import Graft.Proofs.Signature.Targets
import Graft.Proofs.Source.Composing
import Graft.Proofs.Source.Failing
import Graft.Proofs.Source.Loading
import Graft.Proofs.Transplant.Carried
import Graft.Proofs.Transplant.Carrying
import Graft.Proofs.Transplant.Dangling
import Graft.Proofs.Transplant.Hiding
import Graft.Proofs.Transplant.Separating
import Graft.Proofs.Transplant.Stacking
import Graft.Proofs.Transplant.Tracing
import Graft.Proofs.Transplant.Transplanting
import Graft.Proofs.Transplant.Working
import Graft.Roster
import Graft.Session.Basic
import Graft.Session.Locate
import Graft.Session.Reconcile
import Graft.Session.Reference
import Graft.Session.Resolve
import Graft.Signature.Basic
import Graft.Signature.Compare
import Graft.Signature.Text
import Graft.Source.Access
import Graft.Source.Basic
import Graft.Source.TypeList
import Graft.Stream.Access
import Graft.Stream.Basic
import Graft.Stream.FilePath
import Graft.Symbol
import Graft.Table
import Graft.Text.Hex
import Graft.Text.QualifiedName
import Graft.Text.Quoted
import Graft.Token
import Graft.Transplant.Body
import Graft.Transplant.Context
import Graft.Transplant.Transformer
import Graft.Workbench.Basic
import Graft.Workbench.Code
import Graft.Workbench.Patch
import Graft.Workbench.Reading
import Graft.Workbench.Signature
import Graft.World
