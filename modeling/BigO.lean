import BigO.Analyzer
import BigO.CommandLine
import BigO.CommandLine.Arguments
import BigO.CommandLine.Disk
import BigO.CommandLine.Help
import BigO.CommandLine.Report
import BigO.Confidence
import BigO.Estimate
import BigO.Evidence
import BigO.Failure
import BigO.Grammar.Cache
import BigO.Grammar.Fetch
import BigO.Grammar.Provider
import BigO.Growth
import BigO.Language
import BigO.Language.Calls
import BigO.Language.Comments
import BigO.Language.Tag
import BigO.Lexical
import BigO.Loop.Arguments
import BigO.Loop.Bound
import BigO.Loop.Factor
import BigO.Loop.Nesting
import BigO.Main
import BigO.Pool
import BigO.Proofs.Assembly
import BigO.Proofs.BalancedArguments
import BigO.Proofs.BareBodies
import BigO.Proofs.BarePlaces
import BigO.Proofs.BareScans
import BigO.Proofs.BareSignatures
import BigO.Proofs.Cache
import BigO.Proofs.CallPlaces
import BigO.Proofs.CanonicalHeaders
import BigO.Proofs.CommentFree
import BigO.Proofs.CommentLeaves
import BigO.Proofs.CutLines
import BigO.Proofs.DeclaredNames
import BigO.Proofs.DeepestNest
import BigO.Proofs.Enclosing
import BigO.Proofs.EvidenceTable
import BigO.Proofs.Extents
import BigO.Proofs.Fallback
import BigO.Proofs.FirstDeclarations
import BigO.Proofs.ForestLines
import BigO.Proofs.ForestText
import BigO.Proofs.ForestTree
import BigO.Proofs.Header
import BigO.Proofs.IndentedBodies
import BigO.Proofs.InnermostCalls
import BigO.Proofs.LateFailures
import BigO.Proofs.Layout
import BigO.Proofs.LineEnds
import BigO.Proofs.LoopForest
import BigO.Proofs.MoreEvidence
import BigO.Proofs.MultipliedCalls
import BigO.Proofs.Numerals
import BigO.Proofs.OpenParameters
import BigO.Proofs.OtherBlanks
import BigO.Proofs.OwnBlock
import BigO.Proofs.OwnText
import BigO.Proofs.PairedReturns
import BigO.Proofs.Places
import BigO.Proofs.PoolHistory
import BigO.Proofs.Positions
import BigO.Proofs.Preorder
import BigO.Proofs.Progressions
import BigO.Proofs.Respacing
import BigO.Proofs.ReturnedProducts
import BigO.Proofs.Search
import BigO.Proofs.SessionHistory
import BigO.Proofs.SharedAnalyzer
import BigO.Proofs.SignatureParts
import BigO.Proofs.SingleFlight
import BigO.Proofs.SmallLetters
import BigO.Proofs.SnippetLength
import BigO.Proofs.SortCalls
import BigO.Proofs.SplitArguments
import BigO.Proofs.SplitSignatures
import BigO.Proofs.StoppedLoads
import BigO.Proofs.Stretches
import BigO.Proofs.TopLevel
import BigO.Proofs.TreeOrText
import BigO.Proofs.Undeclared
import BigO.Proofs.ValidSettings
import BigO.Proofs.Visits
import BigO.Proofs.WellFormed
import BigO.Proofs.WholeWords
import BigO.Proofs.WrittenNests
import BigO.Recursion.Signal
import BigO.Recursion.Signature
import BigO.Scan.Cursor
import BigO.Scan.Scanner
import BigO.Session
import BigO.Settings
import BigO.Signals
import BigO.Structural
import BigO.Text.Blank
import BigO.Text.CaseTables
import BigO.Text.Digit
import BigO.Text.Integer
import BigO.Text.LetterCase
import BigO.Text.Lines
import BigO.Text.Printable
import BigO.Text.Quoted
import BigO.Text.Ranges
import BigO.Text.Terminal
import BigO.Text.Utf8
import BigO.Text.Word
import BigO.Tree.Nest
import BigO.Tree.Node
import BigO.Tree.Outline
