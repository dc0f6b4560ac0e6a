import SymbolRename.Category
import SymbolRename.CommandLine
import SymbolRename.CursorMarkup
import SymbolRename.Disk
import SymbolRename.Documents
import SymbolRename.Json.Basic
import SymbolRename.Json.Reader
import SymbolRename.Json.Token
import SymbolRename.Json.Writer
import SymbolRename.Log
import SymbolRename.Main
import SymbolRename.NameLocation
import SymbolRename.Position
import SymbolRename.Protocol.Capabilities
import SymbolRename.Protocol.Frame
import SymbolRename.Protocol.Message
import SymbolRename.Protocol.Record
import SymbolRename.Protocol.Response
import SymbolRename.Protocol.Shape
import SymbolRename.Quoted
import SymbolRename.Rename
import SymbolRename.Server
import SymbolRename.Span
import SymbolRename.SyntaxIndex
import SymbolRename.Text
import SymbolRename.Unicode.Printable
import SymbolRename.Unicode.Classes
import SymbolRename.Uri.Basic
import SymbolRename.Uri.FilePath
import SymbolRename.Uri.Host
import SymbolRename.Uri.Parser
import SymbolRename.Uri.Path
import SymbolRename.Uri.PercentEncoding
import SymbolRename.Uri.RenamedFile
import SymbolRename.Utf8
import SymbolRename.WorkspaceEdit
import SymbolRename.Proofs.NameSpelling
import SymbolRename.Proofs.NamePatterns
import SymbolRename.Proofs.NameMatches
import SymbolRename.Proofs.Offsets
import SymbolRename.Proofs.ByteIndex
import SymbolRename.Proofs.ShiftedSpans
import SymbolRename.Proofs.WholeWords
import SymbolRename.Proofs.LineTable
import SymbolRename.Proofs.SpanLines
import SymbolRename.Proofs.MarkupRoundTrip
import SymbolRename.Proofs.SettledEdits
import SymbolRename.Proofs.FirstOccurrences
import SymbolRename.Proofs.SettledForm
import SymbolRename.Proofs.CollectedEdits
import SymbolRename.Proofs.Occurrences
import SymbolRename.Proofs.RenameTransaction
import SymbolRename.Proofs.RenamedNames
import SymbolRename.Proofs.EditorMirror
import SymbolRename.Proofs.RenameCoverage
import SymbolRename.Proofs.DocumentIsolation
import SymbolRename.Proofs.PreparedRename
import SymbolRename.Proofs.Utf8Bytes
import SymbolRename.Proofs.FrameSteps
import SymbolRename.Proofs.FrameStream
import SymbolRename.Proofs.HeaderBlocks
import SymbolRename.Proofs.ChangeBatches
import SymbolRename.Proofs.MessageRuns
import SymbolRename.Proofs.JsonText
import SymbolRename.Proofs.DocumentMessages
import SymbolRename.Proofs.ResponseDiscipline
import SymbolRename.Proofs.ExitStatus
import SymbolRename.Proofs.InnermostNode
import SymbolRename.Proofs.WrittenSegments
import SymbolRename.Proofs.FileDirectory
import SymbolRename.Proofs.FileRenames
import SymbolRename.Proofs.BrokenStreams
