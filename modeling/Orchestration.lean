import Orchestration.Ai.Pooling
import Orchestration.Config.Document
import Orchestration.Main
import Orchestration.World
import Orchestration.Proofs.Batches
import Orchestration.Proofs.Exclusions
import Orchestration.Proofs.SharedStore
import Orchestration.Proofs.StepwiseRun
import Orchestration.Proofs.VectorLengths
import Orchestration.Proofs.ClosestRecords
import Orchestration.Proofs.PlanResult
import Orchestration.Proofs.MarkupValues
import Orchestration.Proofs.PlanMarkup
import Orchestration.Proofs.PlanDocuments
import Orchestration.Proofs.VariableNames
import Orchestration.Proofs.Registrations
import Orchestration.Proofs.RefusedSearches
import Orchestration.Proofs.SearchResults
import Orchestration.Proofs.CollectionAddresses
import Orchestration.Proofs.ReadBack
import Orchestration.Proofs.RemoteAgreement
import Orchestration.Proofs.StepInput
import Orchestration.Proofs.AddedOutputs
import Orchestration.Proofs.PlanComments
import Orchestration.Proofs.OpenedTags
import Orchestration.Proofs.RecentTurns
import Orchestration.Proofs.WrittenActions
import Orchestration.Proofs.PluginListings
import Orchestration.Proofs.MissingFunctions
import Orchestration.Proofs.ActionLines
import Orchestration.Proofs.RelevantFunctions
import Orchestration.Proofs.TemplateReferences
import Orchestration.Proofs.SpelledExclusions
import Orchestration.Proofs.ArgumentReferences
import Orchestration.Proofs.DefaultValues
import Orchestration.Proofs.Pipelines
import Orchestration.Proofs.TopInputs
import Orchestration.Proofs.NumberedVectors
import Orchestration.Proofs.DecodedEntities
import Orchestration.Proofs.VectorBytes
import Orchestration.Proofs.OneMemory
