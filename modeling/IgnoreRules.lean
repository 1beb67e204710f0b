import IgnoreRules.Cache.Key
import IgnoreRules.CommandLine.Run
import IgnoreRules.Compiler
import IgnoreRules.Log.Registry
import IgnoreRules.Main
import IgnoreRules.Report
import IgnoreRules.Rule
import IgnoreRules.Settings.Environment
import IgnoreRules.Proofs.CursorOrder
import IgnoreRules.Proofs.Lookahead
import IgnoreRules.Proofs.DepthFirst
import IgnoreRules.Proofs.PatternAssembly
import IgnoreRules.Proofs.PatternReach
import IgnoreRules.Proofs.PatternLanguage
import IgnoreRules.Proofs.CacheHistory
import IgnoreRules.Proofs.CompilerHistory
import IgnoreRules.Proofs.RunReport
import IgnoreRules.Proofs.CacheSizes
import IgnoreRules.Proofs.MergedLayers
import IgnoreRules.Proofs.UsableSettings
import IgnoreRules.Proofs.SourceIndependence
import IgnoreRules.Proofs.LogContexts
import IgnoreRules.Proofs.LogChannels
import IgnoreRules.Proofs.LoggerHistory
import IgnoreRules.Proofs.FileSteps
import IgnoreRules.Proofs.LoggerSinks
import IgnoreRules.Proofs.SessionHistory
import IgnoreRules.Proofs.FileHandlers
import IgnoreRules.Proofs.FreshRuns
import IgnoreRules.Proofs.PatternParts
import IgnoreRules.Proofs.PatternSegments
import IgnoreRules.Proofs.LineEquivalence
import IgnoreRules.Proofs.PathEnds
import IgnoreRules.Proofs.DisplacedCursors
import IgnoreRules.Proofs.NestedChains
import IgnoreRules.Proofs.ChangesInPlace
import IgnoreRules.Proofs.WrittenValues
import IgnoreRules.Proofs.SchemaRefusals
import IgnoreRules.Proofs.EnvironmentNames
import IgnoreRules.Proofs.AlikeValues
import IgnoreRules.Proofs.EnvironmentOrder
import IgnoreRules.Proofs.SearchMoves
import IgnoreRules.Proofs.SplitPoints
import IgnoreRules.Proofs.SameKeys
import IgnoreRules.Proofs.CacheBalance
import IgnoreRules.Proofs.WrittenIntegers
import IgnoreRules.Proofs.EnvironmentSizes
