import SymbolRename.Protocol.Shape

/-! # What an editor tells about itself

The shape of the parameters with which an editor begins a session.
-/
namespace SymbolRename

namespace Capabilities

open Shape

/-- A record all of whose fields may be missing. -/
def options (fields : List (String × Shape)) : Shape :=
  .record (fields.map fun (name, shape) => (name, .optional shape))

def flags (names : List String) : Shape := options (names.map fun name => (name, .flag))

/-- A feature that can be registered later. -/
def feature : Shape := flags ["dynamicRegistration"]

def link : Shape := flags ["dynamicRegistration", "linkSupport"]

def markupKinds : Shape := .list (.oneOf ["plaintext", "markdown"])

/-- The numbers from 1 up to `last`. -/
def codesUpTo (last : Nat) : List Nat := (List.range last).map (· + 1)

/-- Kinds of symbols; 255 stands for any other. -/
def symbolKinds : Shape := options [("valueSet", .list (.code (codesUpTo 26 ++ [255])))]

def workspace : Shape := options [
  ("applyEdit", .flag),
  ("workspaceEdit", options [
    ("documentChanges", .flag),
    ("resourceOperations", .list (.oneOf ["create", "rename", "delete"])),
    ("failureHandling", .oneOf ["abort", "transactional", "textOnlyTransactional", "undo"])]),
  ("didChangeConfiguration", feature),
  ("didChangeWatchedFiles", feature),
  ("symbol", options [("dynamicRegistration", .flag), ("symbolKind", symbolKinds)]),
  ("executeCommand", feature),
  ("workspaceFolders", .flag),
  ("configuration", .flag)]

def completion : Shape := options [
  ("dynamicRegistration", .flag),
  ("completionItem", .record [
    ("snippetSupport", .optional .flag),
    ("commitCharactersSupport", .optional .flag),
    ("documentationFormat", .optional markupKinds),
    ("deprecatedSupport", .optional .flag),
    ("preselectSupport", .optional .flag),
    ("tagSupport", .trailing (.tags [1]))]),
  ("completionItemKind", options [("valueSet", .list (.code (codesUpTo 25)))]),
  ("contextSupport", .flag)]

def signatureHelp : Shape := options [
  ("dynamicRegistration", .flag),
  ("signatureInformation", options [
    ("documentationFormat", markupKinds),
    ("parameterInformation", flags ["labelOffsetSupport"])]),
  ("contextSupport", .flag)]

def codeAction : Shape := options [
  ("dynamicRegistration", .flag),
  ("codeActionLiteralSupport",
    .record [("codeActionKind", .record [("valueSet", .list .text)])]),
  ("isPreferredSupport", .flag)]

def textDocument : Shape := options [
  ("synchronization", flags ["dynamicRegistration", "willSave", "willSaveWaitUntil", "didSave"]),
  ("completion", completion),
  ("hover", options [("dynamicRegistration", .flag), ("contentFormat", markupKinds)]),
  ("signatureHelp", signatureHelp),
  ("references", feature),
  ("documentHighlight", feature),
  ("documentSymbol", options [
    ("dynamicRegistration", .flag),
    ("symbolKind", symbolKinds),
    ("hierarchicalDocumentSymbolSupport", .flag)]),
  ("formatting", feature),
  ("rangeFormatting", feature),
  ("onTypeFormatting", feature),
  ("declaration", link),
  ("definition", link),
  ("typeDefinition", link),
  ("implementation", link),
  ("codeAction", codeAction),
  ("codeLens", feature),
  ("documentLink", flags ["dynamicRegistration", "tooltipSupport"]),
  ("colorProvider", feature),
  ("rename", flags ["dynamicRegistration", "prepareSupport"]),
  ("publishDiagnostics", .record [
    ("relatedInformation", .optional .flag), ("tagSupport", .trailing (.tags [1, 2]))]),
  ("foldingRange", options [
    ("dynamicRegistration", .flag), ("rangeLimit", .count), ("lineFoldingOnly", .flag)])]

/-- What the editor can do. -/
def client : Shape := options [
  ("workspace", workspace),
  ("textDocument", textDocument),
  ("window", flags ["workDoneProgress"]),
  ("experimental", .any)]

/-- The parameters with which a session begins. -/
def session : Shape := .record [
  ("processId", .optional .count),
  ("rootPath", .optional .text),
  ("rootUri", .optional .uri),
  ("initializationOptions", .optional .any),
  ("capabilities", client),
  ("trace", .optional (.oneOf ["off", "messages", "verbose"])),
  ("workspaceFolders", .optional (.list (.record [("uri", .uri), ("name", .text)]))),
  ("clientInfo", .optional (.record [("name", .text), ("version", .optional .text)]))]

end Capabilities

end SymbolRename
