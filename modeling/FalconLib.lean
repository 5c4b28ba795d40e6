import FalconLib.Base.Computation
import FalconLib.Base.Binary64
import FalconLib.Dsl.Ast
import FalconLib.Dsl.Names
import FalconLib.Base.StdMap
import FalconLib.Dsl.Value
import FalconLib.Dsl.FunctionRegistry
import FalconLib.Dsl.Generics
import FalconLib.Dsl.Operators
import FalconLib.Dsl.TypeRegistry
import FalconLib.Dsl.SourceContext
import FalconLib.Dsl.World
import FalconLib.Dsl.ExprEvaluator
import FalconLib.Dsl.StmtExecutor
import FalconLib.Dsl.StructRoutine
import FalconLib.Dsl.Interpreter
import FalconLib.Dsl.AutotunerEngine
import FalconLib.Dsl.Coupling
import FalconLib.Dsl.CouplingRuns
import FalconLib.Dsl.Restoration
import FalconLib.Dsl.FieldAssign
import FalconLib.Dsl.Noninterference
import FalconLib.Dsl.VariableFrame
import FalconLib.Dsl.StateMachine
import FalconLib.Dsl.StateScope
import FalconLib.Dsl.LoadHistory
import FalconLib.Dsl.Resolution
import FalconLib.Dsl.Isolation
import FalconLib.Parser.Scope
import FalconLib.Parser.Actions
import FalconLib.Parser.Compiler
import FalconLib.Parser.History
import FalconLib.Base.DepthFirst
import FalconLib.Dsl.ImportScanner
import FalconLib.Dsl.Loader
import FalconLib.Dsl.ImportGraph
import FalconLib.Dsl.LoadAtomicity
import FalconLib.Dsl.TypeSubstitution
import FalconLib.Dsl.SelfReference
import FalconLib.Dsl.Instantiation
import FalconLib.Dsl.InstanceCache
import FalconLib.Dsl.ArgumentBinding
import FalconLib.Typing.FFIHelpers
import FalconLib.Typing.RoundTrip
import FalconLib.Typing.ResultSlots
import FalconLib.Base.ListHeap
import FalconLib.Base.Table
import FalconLib.Dsl.RoutineRuns
import FalconLib.Libs.Array
import FalconLib.Libs.ArrayCalls
import FalconLib.Libs.ArrayRefinement
import FalconLib.Libs.ArrayMachine
import FalconLib.Dsl.RunHistory
import FalconLib.Parser.Imports
import FalconLib.Dsl.ImportReaders
import FalconLib.Dsl.ReadOnlyInputs
import FalconLib.Parser.ScopeChecks
import FalconLib.Parser.Events
import FalconLib.Parser.LocalAssignments
import FalconLib.Parser.Trees
import FalconLib.Parser.Independence
import FalconLib.Base.Json
import FalconLib.Database.DeviceCharacteristic
import FalconLib.Database.DatabaseConnection
import FalconLib.Database.SnapshotManager
import FalconLib.Database.SnapshotRoundTrip
import FalconLib.Comms.Commands
import FalconLib.Comms.NatsManager
import FalconLib.Comms.RequestProtocol
import FalconLib.PackageManager.PackageCache
import FalconLib.PackageManager.CacheSoundness
import FalconLib.PackageManager.SharedCache
import FalconLib.PackageManager.CacheDirectory
import FalconLib.Dsl.WrapperCache
import FalconLib.Dsl.BareNames
import FalconLib.Dsl.DefaultArguments
import FalconLib.Dsl.UnassignedOutputs
import FalconLib.Dsl.StaticDispatch
import FalconLib.Lsp.FalconDocument
import FalconLib.Lsp.Diagnostics
import FalconLib.Lsp.ImportResolver
import FalconLib.Lsp.Exports
import FalconLib.Lsp.ImportTurns
import FalconLib.Lsp.ImportHistory
import FalconLib.Libs.ArraySearch
import FalconLib.Libs.Map
import FalconLib.Libs.MapCalls
import FalconLib.Libs.MapBodies
import FalconLib.Libs.MapRoutines
import FalconLib.Libs.MapCreation
import FalconLib.Libs.MapMachine
import FalconLib.Libs.MapLoaded
import FalconLib.Libs.MapRefinement
import FalconLib.Libs.MapRuns
import FalconLib.Libs.Testing
import FalconLib.Cli.TestMain
import FalconLib.Dsl.StatePaths
import FalconLib.Libs.TestingCalls
import FalconLib.Cli.TestRuns
import FalconLib.Cli.TestSuites
import FalconLib.Database.Queries
import FalconLib.Database.SnapshotValidation
import FalconLib.Libs.SearchLaws
import FalconLib.Base.Binary64Order
import FalconLib.PackageManager.InstallRemove
import FalconLib.Dsl.Comparison
import FalconLib.Dsl.IntArithmetic
import FalconLib.Dsl.PureExpressions
import FalconLib.Parser.Lexer
import FalconLib.Base.Patterns
import FalconLib.Parser.Spelling
import FalconLib.Cli.Discovery
import FalconLib.Cli.Injection
import FalconLib.Cli.Signature
import FalconLib.Cli.SuiteBlocks
import FalconLib.Cli.HarnessInjection
import FalconLib.Libs.Axes
import FalconLib.Libs.AxesRoutines
import FalconLib.Base.Substrings
import FalconLib.Libs.Strings
import FalconLib.Libs.StringConversions
import FalconLib.Libs.StripAnsi
import FalconLib.Dsl.Cloning
import FalconLib.Parser.LexicalTotality
import FalconLib.Base.Buffers
import FalconLib.QArray.Device
import FalconLib.QArray.SweepReversal
import FalconLib.QArray.RayScan
import FalconLib.Dsl.GuardedRuns
import FalconLib.Dsl.GuardedCalls
import FalconLib.Dsl.MethodFrame
import FalconLib.Libs.AxesCreation
import FalconLib.Libs.AxesMachine
import FalconLib.Libs.AxesRefinement
import FalconLib.Libs.AxesRuns
import FalconLib.Base.Checked
import FalconLib.Dsl.Qualification
import FalconLib.Dsl.CompleteRuns
import FalconLib.Parser.RoutineJumps
import FalconLib.Base.Words
import FalconLib.Lsp.WordAt
import FalconLib.Base.Brackets
import FalconLib.Parser.TypeNames
import FalconLib.Base.FileTree
import FalconLib.PackageManager.ImportResolution
import FalconLib.Lsp.ResolverAgreement
import FalconLib.Parser.QualifiedBodies
import FalconLib.Dsl.OutputCapture
import FalconLib.Dsl.CapturedCalls
import FalconLib.Dsl.CapturedRuns
import FalconLib.Dsl.TargetBinding
import FalconLib.Base.Precedence
import FalconLib.Parser.ExpressionGrammar
import FalconLib.Parser.ExpressionParser
import FalconLib.Parser.ExpressionReading
import FalconLib.Parser.TokenRows
import FalconLib.Parser.ExpressionTrees
import FalconLib.Base.Growth
import FalconLib.Dsl.Policy
import FalconLib.Dsl.PolicyCalls
import FalconLib.Dsl.PolicyRuns
import FalconLib.Dsl.HeapPolicy
import FalconLib.Dsl.LiveReferences
import FalconLib.Base.Arena
import FalconLib.Dsl.Confinement
import FalconLib.Typing.BoundaryPolicy
import FalconLib.Libs.ArrayPolicy
import FalconLib.Base.Fuel
import FalconLib.Dsl.CallOrder
import FalconLib.Dsl.FuelCalls
import FalconLib.Dsl.FuelRuns
import FalconLib.Dsl.Termination
import FalconLib.Dsl.Dependence
import FalconLib.Database.Records
import FalconLib.Comms.ExclusiveRequests
