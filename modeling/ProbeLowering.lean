import ProbeLowering.Files.Tree
import ProbeLowering.Main
import ProbeLowering.Proofs.Scope
import ProbeLowering.Proofs.Parts
import ProbeLowering.Proofs.Action
import ProbeLowering.Proofs.Run
import ProbeLowering.Proofs.UniqueNames
import ProbeLowering.Proofs.Evaluation
import ProbeLowering.Proofs.Walk
import ProbeLowering.Proofs.Registry
import ProbeLowering.Proofs.Layout
import ProbeLowering.Proofs.RecordAction
import ProbeLowering.Proofs.Schema
import ProbeLowering.Proofs.MapRead
import ProbeLowering.Proofs.Plan
import ProbeLowering.Proofs.Session
import ProbeLowering.Proofs.Registration
import ProbeLowering.Proofs.FailedProbe
import ProbeLowering.Proofs.Footprint
import ProbeLowering.Proofs.Independence
import ProbeLowering.Proofs.Resolution
import ProbeLowering.Proofs.References
import ProbeLowering.Proofs.Positions
import ProbeLowering.Proofs.Chain
import ProbeLowering.Proofs.Correspondence
import ProbeLowering.Proofs.RegisterResult
import ProbeLowering.Proofs.ReservedNames
import ProbeLowering.Proofs.JsonText
import ProbeLowering.Proofs.Documents
import ProbeLowering.Proofs.ProgramText
import ProbeLowering.Proofs.LatestDeclaration
import ProbeLowering.Proofs.StashKeys
import ProbeLowering.Proofs.TypedDeclarations
import ProbeLowering.Proofs.Sources
import ProbeLowering.Proofs.CopiedNames
import ProbeLowering.Proofs.Frame
import ProbeLowering.Proofs.MoreFacts
import ProbeLowering.Proofs.FirstFailure
import ProbeLowering.Proofs.EntryTypes
import ProbeLowering.Proofs.InputText
import ProbeLowering.Proofs.Itinerary
import ProbeLowering.Proofs.FileChanges
import ProbeLowering.Proofs.RunStages
import ProbeLowering.Proofs.RunOutput
import ProbeLowering.Proofs.TypeChains
import ProbeLowering.Proofs.TypeNames
import ProbeLowering.Proofs.RecordLookup
import ProbeLowering.Proofs.FieldLookups
import ProbeLowering.Proofs.ReachedStates
import ProbeLowering.Proofs.RecordOutcomes
import ProbeLowering.Proofs.FieldNames
import ProbeLowering.Proofs.Placeholders
import ProbeLowering.Proofs.AskedNames
import ProbeLowering.Proofs.NameClashes
import ProbeLowering.Proofs.DeepPointers
import ProbeLowering.Proofs.Operations
import ProbeLowering.Proofs.Lookups
import ProbeLowering.Proofs.MemberOffsets
import ProbeLowering.Proofs.Parameters
import ProbeLowering.Proofs.FrameOffsets
import ProbeLowering.Proofs.StackSlots
import ProbeLowering.Proofs.CompactText
import ProbeLowering.Proofs.FaultReports
