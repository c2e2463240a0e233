import QueryWalk.Number
import QueryWalk.Number.Binary
import QueryWalk.Number.Decimal
import QueryWalk.Fields
import QueryWalk.Data
import QueryWalk.Kind
import QueryWalk.Failure
import QueryWalk.Node
import QueryWalk.Node.Record
import QueryWalk.Query
import QueryWalk.Value
import QueryWalk.Query.Build
import QueryWalk.Query.Script
import QueryWalk.Settings
import QueryWalk.Chain
import QueryWalk.Context
import QueryWalk.Context.Branches
import QueryWalk.Dispatch
import QueryWalk.Dispatch.History
import QueryWalk.Handler
import QueryWalk.Handler.Evaluation
import QueryWalk.Run
import QueryWalk.Handler.Activation
import QueryWalk.Walker
import QueryWalk.Run.History
import QueryWalk.Session
import QueryWalk.Proofs.LazyTraversal
import QueryWalk.Proofs.RunTraces
import QueryWalk.Proofs.RunContracts
import QueryWalk.Proofs.StepIsolation
import QueryWalk.Proofs.HandlerInvocation
import QueryWalk.Proofs.TreeAddresses
import QueryWalk.Proofs.ContextDepth
import QueryWalk.Proofs.TruthfulPositions
import QueryWalk.Proofs.AddressEnumeration
import QueryWalk.Proofs.RunYields
import QueryWalk.Proofs.CollectedResults
import QueryWalk.Proofs.RunApproximation
import QueryWalk.Proofs.NodeArity
import QueryWalk.Proofs.ListingVisitor
import QueryWalk.Proofs.DefaultWalk
import QueryWalk.Proofs.TopmostSubstitution
import QueryWalk.Proofs.RunLockstep
import QueryWalk.Proofs.VisitorTransformerAccord
import QueryWalk.Proofs.HandedOnAncestors
import QueryWalk.Proofs.MatchingRuns
import QueryWalk.Proofs.HandlerLikeness
import QueryWalk.Proofs.WalkSimulation
import QueryWalk.Proofs.SessionSimulation
import QueryWalk.Proofs.SelfLikeness
import QueryWalk.Proofs.CachedResolution
import QueryWalk.Proofs.DeclaredProperties
import QueryWalk.Proofs.CarriedProperties
import QueryWalk.Proofs.BlindHandlers
import QueryWalk.Proofs.DescendingWalks
import QueryWalk.Proofs.DepthLimit
import QueryWalk.Proofs.EvaluationFailures
import QueryWalk.Proofs.WalkLevels
import QueryWalk.Proofs.CallerRefusals
import QueryWalk.Proofs.IterableChains
import QueryWalk.Proofs.UntrackedWalks
import QueryWalk.Proofs.RunCongruence
import QueryWalk.Proofs.EagerHandlers
import QueryWalk.Proofs.ListenerRetelling
import QueryWalk.Proofs.ListenerNotification
import QueryWalk.Proofs.WalkAppearance
import QueryWalk.Proofs.FamilyRegistration
import QueryWalk.Proofs.CatchAllHandlers
import QueryWalk.Proofs.TruthfulFailures
import QueryWalk.Proofs.HandlerMachine
import QueryWalk.Proofs.RescuedCalls
import QueryWalk.Proofs.LeafRewritingFusion
import QueryWalk.Proofs.CollapsingOperations
import QueryWalk.Proofs.TopmostReport
import QueryWalk.Proofs.NoteOrigins
import QueryWalk.Proofs.HandlerCourse
import QueryWalk.Proofs.CallPassage
import QueryWalk.Proofs.InheritedKeys
import QueryWalk.Proofs.UniquePassage
import QueryWalk.Proofs.ChildExchange
import QueryWalk.Proofs.NodeComposition
import QueryWalk.Proofs.NumberPatterns
import QueryWalk.Proofs.NodeEquality
import QueryWalk.Proofs.BranchingDescents
