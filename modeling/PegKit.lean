import PegKit.Main
import PegKit.Files.Machine
import PegKit.Proofs.Coverage
import PegKit.Proofs.Grouping
import PegKit.Proofs.Lexemes
import PegKit.Proofs.LexicalGrammar
import PegKit.Proofs.Literals
import PegKit.Proofs.Place
import PegKit.Proofs.Progress
import PegKit.Proofs.RuleHeads
import PegKit.Proofs.Validity
import PegKit.Proofs.RuleNames
import PegKit.Proofs.Guards
import PegKit.Proofs.LiteralReader
import PegKit.Proofs.ScaffoldReader
import PegKit.Proofs.Views
import PegKit.Proofs.LiteralLimits
import PegKit.Proofs.Composition
import PegKit.Proofs.DiagnosticPlaces
import PegKit.Proofs.LineEnds
import PegKit.Proofs.Lines
import PegKit.Proofs.Opacity
import PegKit.Proofs.Reach
import PegKit.Proofs.Relocation
import PegKit.Proofs.Seams
import PegKit.Proofs.Warnings
import PegKit.Proofs.DiagnosticOrder
import PegKit.Proofs.Generation
import PegKit.Proofs.Names
import PegKit.Proofs.TreeRuns
import PegKit.Proofs.WrittenFiles
import PegKit.Proofs.GenerateCommand
import PegKit.Proofs.ValidateCommand
import PegKit.Proofs.Omissions
import PegKit.Proofs.Comments
import PegKit.Proofs.Rereading
import PegKit.Proofs.Copies
import PegKit.Proofs.RuleChanges
import PegKit.Proofs.ClosedLiterals
import PegKit.Proofs.CommentChoice
import PegKit.Proofs.SingleRule
import PegKit.Proofs.ClosedGroups
import PegKit.Proofs.ServerSearch
import PegKit.Proofs.FileNames
import PegKit.Proofs.Destinations
import PegKit.Proofs.ScaffoldNames
import PegKit.Proofs.RecordEntries
import PegKit.Proofs.RecordFields
import PegKit.Proofs.DistinctKeys
import PegKit.Proofs.KeyOrder
import PegKit.Proofs.DocumentChanges
import PegKit.Proofs.TomlWriter
import PegKit.Proofs.WrittenRules
import PegKit.Proofs.Messages
import PegKit.Proofs.ReportLines
import PegKit.Proofs.MachineRuns
import PegKit.Proofs.JsonReader
