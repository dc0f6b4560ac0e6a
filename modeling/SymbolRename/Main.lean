import SymbolRename.CommandLine

/-! # The program

Reads arguments and standard input, and writes what `CommandLine` and `Server` say.
The server starts without any nodes, and without nodes no file is ever looked at;
so it needs no view of the disk.
-/
namespace SymbolRename

namespace Console

/-- Reads one line with its line feed; at the end of the input the line is empty. -/
partial def readLine (input : IO.FS.Stream) (line : ByteArray) : IO ByteArray := do
  let byte ← input.read 1
  if byte.isEmpty then return line
  else if byte.toList = [0x0a] then return line ++ byte
  else readLine input (line ++ byte)

/-- Reads `n` bytes, or all that are left. -/
partial def readBody (input : IO.FS.Stream) (n : Nat) (body : ByteArray) : IO ByteArray := do
  if n ≤ body.size then return body
  else
    let more ← input.read (min (n - body.size) 65536).toUSize
    if more.isEmpty then return body else readBody input n (body ++ more)

/-- Reads what the server demands. -/
def read (input : IO.FS.Stream) : Demand → IO ByteArray
  | .line _ => readLine input .empty
  | .body n => readBody input n .empty

/-- Takes the steps of the server until it ends. -/
partial def serve (input output : IO.FS.Stream) (server : Server) (demand : Demand) :
    IO Ending := do
  let bytes ← read input demand
  match server.step .empty .ample demand bytes.toList with
  | .ends ending => return ending
  | .goesOn server response demand =>
    for response in response do
      output.write response.frame.toByteArray
      output.flush
    serve input output server demand

/-- The status that the caller of a process sees; an abort is the signal with the number 6. -/
def status : Ending → UInt32
  | .exit code => code.toUInt32
  | .abort => 134

end Console

end SymbolRename

open SymbolRename in
def main (arguments : List String) : IO UInt32 := do
  let arguments := arguments.map Utf8.encode
  match Command.parse arguments with
  | .ok .start =>
    return Console.status (← Console.serve (← IO.getStdin) (← IO.getStdout) (.start .empty)
      (.line none))
  | _ =>
    let result := CommandLine.run .empty .ample arguments []
    (← IO.getStdout).write result.stdout.toByteArray
    (← IO.getStderr).write result.stderr.toByteArray
    return Console.status result.ending
