import ResourceGraph.Document.Display
import ResourceGraph.FieldPath.Json
import ResourceGraph.Query.Lexer
import ResourceGraph.Resolution
import ResourceGraph.Rule.Json
import ResourceGraph.Proofs.Participation
import ResourceGraph.Proofs.Slices
import ResourceGraph.Proofs.TokenSequence
import ResourceGraph.Proofs.TokenCursor
import ResourceGraph.Proofs.TriviaGrammar
import ResourceGraph.Proofs.ByteReader
import ResourceGraph.Proofs.LexerPositions
import ResourceGraph.Proofs.Tiling
import ResourceGraph.Proofs.LexemeLanguage
import ResourceGraph.Proofs.LexemeReaders
import ResourceGraph.Proofs.LongestMatch
import ResourceGraph.Proofs.WrittenJson
import ResourceGraph.Proofs.RuleFile
import ResourceGraph.Proofs.PathGrammar
import ResourceGraph.Proofs.PathPositions
import ResourceGraph.Proofs.DisplayedPath
import ResourceGraph.Proofs.Routes
import ResourceGraph.Proofs.LineBreaks
import ResourceGraph.Proofs.Respacing
import ResourceGraph.Proofs.EntryOrder
import ResourceGraph.Proofs.JsonGrammar
import ResourceGraph.Proofs.SkippedJson
import ResourceGraph.Proofs.ReadingProblems
import ResourceGraph.Proofs.RuleFileProblems
import ResourceGraph.Proofs.NearestNumber
import ResourceGraph.Proofs.LooseEquality
import ResourceGraph.Proofs.DecimalSteps
import ResourceGraph.Proofs.AcceptedJson
import ResourceGraph.Proofs.AgreeingReadings
import ResourceGraph.Proofs.DocumentText
import ResourceGraph.Proofs.KeyPaths
import ResourceGraph.Proofs.Obstacles
import ResourceGraph.Proofs.Batches
import ResourceGraph.Proofs.TreeConversion
import ResourceGraph.Proofs.StoredPath
import ResourceGraph.Proofs.RuleSearch
import ResourceGraph.Proofs.PathFlaws
