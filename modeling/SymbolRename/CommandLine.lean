import SymbolRename.Server

/-! # The command line

The first argument names a subcommand.  `CommandLine.run` says what the program
writes and how it ends, for every list of arguments and every input.
-/
namespace SymbolRename

inductive Command where
  | help
  | version
  | start
deriving DecidableEq, Repr

namespace Command

/-- The command that the first argument names; the error is the argument if it names none. -/
def parse : List Bytes → Except String Command
  | [] => .ok .help
  | argument :: _ =>
    match Utf8.decodeLossy argument with
    | "-h" | "--help" | "help" | "-?" | "/?" => .ok .help
    | "-V" | "--version" | "version" => .ok .version
    | "start" => .ok .start
    | other => .error other

end Command

namespace CommandLine

/-- What the program can be called with. -/
def helpText : String :=
  "\n".intercalate [
    s!"{Program.name} {Program.version}",
    "",
    "    USAGE:",
    s!"        {Program.name} [OPTIONS] [SUBCOMMAND]",
    "",
    "    EXAMPLE:",
    s!"        {Program.name} start",
    "",
    "    SUBCOMMANDS:",
    "        start           LSP サーバーとして起動する (標準入出力)",
    "        help            ヘルプを表示する (--help と同じ)",
    "        version         バージョン番号を表示する (--version と同じ)",
    "",
    "    OPTIONS:",
    "        -h, --help      ヘルプを表示する",
    "        -V, --version   バージョン番号を表示する"]

/-- The line that an unknown subcommand is answered with. -/
def unknownText (argument : String) : String := s!"Unknown subcommand '{argument}'.\n"

/-- What the program wrote, and how it ended. -/
structure Result where
  ending : Ending
  stdout : Bytes
  stderr : Bytes

/-- Runs the program with the given arguments, without the program's own name, on an input. -/
def run (disk : Disk) (memory : Memory) (arguments : List Bytes) (input : Bytes) : Result :=
  match Command.parse arguments with
  | .ok .help => ⟨.exit 1, Utf8.encode helpText, []⟩
  | .ok .version => ⟨.exit 0, [], Utf8.encode (Program.version ++ "\n")⟩
  | .ok .start =>
    let outcome := (Server.start .empty).run disk memory (.line none) input
    ⟨outcome.ending, outcome.responses.flatMap Response.frame, []⟩
  | .error argument => ⟨.exit 1, Utf8.encode helpText, Utf8.encode (unknownText argument)⟩

end CommandLine

end SymbolRename
