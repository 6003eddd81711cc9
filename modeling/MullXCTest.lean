import MullXCTest.Library.Clusters
import MullXCTest.Library.Decimal
import MullXCTest.Library.FindReplace
import MullXCTest.Library.Transition
import MullXCTest.Library.Gaps
import MullXCTest.Library.Interleaving
import MullXCTest.Library.KeyedSets
import MullXCTest.Library.LayoutTree
import MullXCTest.Library.MarkerScan
import MullXCTest.Library.Outcome
import MullXCTest.Library.PathWalk
import MullXCTest.Library.SetTable
import MullXCTest.Library.Words
import MullXCTest.Library.GrowingVector
import MullXCTest.Library.Simulation
import MullXCTest.Library.Scatter
import MullXCTest.Library.EntryTree
import MullXCTest.LLVM.Path
import MullXCTest.LinkCommand.Filelist
import MullXCTest.LinkCommand.LinkerOptions
import MullXCTest.LinkCommand.Taken
import MullXCTest.LinkCommand.ArgumentHandling
import MullXCTest.LinkCommand.Conservation
import MullXCTest.LinkCommand.FilelistLines
import MullXCTest.LinkCommand.ObjectLoss
import MullXCTest.LinkCommand.ObjectOrder
import MullXCTest.LinkCommand.TaggedArguments
import MullXCTest.LinkCommand.FilelistRoundTrip
import MullXCTest.Pipeline.EmbeddedBitcode
import MullXCTest.Pipeline.FunctionsUnderTest
import MullXCTest.Pipeline.CoverageSelection
import MullXCTest.Pipeline.DumpLLVM
import MullXCTest.Pipeline.MutationPipeline
import MullXCTest.Pipeline.FilterStages
import MullXCTest.Pipeline.MutationPoints
import MullXCTest.Pipeline.Tasks
import MullXCTest.Pipeline.Instrumentation
import MullXCTest.Pipeline.Locality
import MullXCTest.TaskExecutor.PthreadTaskExecutor
import MullXCTest.TaskExecutor.SequentialRefinement
import MullXCTest.TaskExecutor.ProgressAccounting
import MullXCTest.TaskExecutor.References
import MullXCTest.TaskExecutor.ReferenceSafety
import MullXCTest.TaskExecutor.ReferenceRefinement
import MullXCTest.SwiftSupport.SourceUnitLocationIndexer
import MullXCTest.SwiftSupport.IndexedConstructs
import MullXCTest.SwiftSupport.SyntaxMutationFinder
import MullXCTest.SwiftSupport.SyntaxIndex
import MullXCTest.SwiftSupport.RuntimeFunctionFilter
import MullXCTest.ResultBundle.XCResultFile
import MullXCTest.ResultBundle.Totality
import MullXCTest.RunFile.XCTestRunFile
import MullXCTest.RunFile.DependentProducts
import MullXCTest.RunFile.PlistBuddy
import MullXCTest.RunFile.SpecialCharacters
import MullXCTest.RunFile.EntryPaths
import MullXCTest.RunFile.Substitution
import MullXCTest.RunFile.TestTargets
import MullXCTest.RunFile.PlistCommands
import MullXCTest.RunFile.Representation
import MullXCTest.Invocation.Execution
import MullXCTest.Invocation.XCTestRunTask
import MullXCTest.Invocation.XCTestRunInvocation
import MullXCTest.Invocation.XCTestInvocation
import MullXCTest.Invocation.BaselineCommand
import MullXCTest.Invocation.GeneratedRunFile
import MullXCTest.Invocation.HealthyVerdicts
import MullXCTest.Invocation.BaselineInfluence
import MullXCTest.Invocation.MutantExtraction
import MullXCTest.Invocation.PathAppend
import MullXCTest.Invocation.BundleBinary
import MullXCTest.Invocation.Deadline
import MullXCTest.Invocation.DriverAgreement
import MullXCTest.Invocation.GeneratedTargets
import MullXCTest.Invocation.TaskProgress
import MullXCTest.Invocation.VerdictSoundness
import MullXCTest.Invocation.Isolation
import MullXCTest.Invocation.SecondRun
import MullXCTest.Invocation.GeneratedCommands
import MullXCTest.Invocation.Leftovers
import MullXCTest.Benchmark.Entity
import MullXCTest.Benchmark.Parser
import MullXCTest.Benchmark.Characters
import MullXCTest.Benchmark.Diff
import MullXCTest.Benchmark.RoundTrip
import MullXCTest.Tools.Wrapper
import MullXCTest.Tools.MullLibtool
import MullXCTest.Tools.MullLD
