import HandlebarsToTwig.Header.Json
import HandlebarsToTwig.Main
import HandlebarsToTwig.Options.Json
import HandlebarsToTwig.Proofs.CommandLine
import HandlebarsToTwig.Proofs.Coverage
import HandlebarsToTwig.Proofs.ForeignTags
import HandlebarsToTwig.Proofs.Rendering
import HandlebarsToTwig.Proofs.Stream
import HandlebarsToTwig.Proofs.RoundTrip
import HandlebarsToTwig.Proofs.DepthLimit
import HandlebarsToTwig.Proofs.Concatenation
import HandlebarsToTwig.Proofs.JsonDepth
import HandlebarsToTwig.Proofs.TagNesting
import HandlebarsToTwig.Proofs.LongComments
import HandlebarsToTwig.Proofs.ParserCalls
import HandlebarsToTwig.Proofs.WalkState
import HandlebarsToTwig.Proofs.CursorCalls
import HandlebarsToTwig.Proofs.LoopNames
import HandlebarsToTwig.Proofs.TreeConversion
import HandlebarsToTwig.Proofs.JsonSpellings
import HandlebarsToTwig.Proofs.Locations
import HandlebarsToTwig.Proofs.HeaderComment
import HandlebarsToTwig.Proofs.LoopVariables
import HandlebarsToTwig.Proofs.TomlTables
import HandlebarsToTwig.Proofs.Configuration
import HandlebarsToTwig.Proofs.TomlReading
import HandlebarsToTwig.Proofs.ConfigurationLayouts
