import WebHost.Cli.Program
import WebHost.Tls.Shape
import WebHost.View.Event

/-!
# The command

The command reads the files that its command line names, runs the program on them, and prints what
the program logs. The server that it runs has no network of its own: requests reach it through
whoever embeds the library, and the end of the input tells it to stop.
-/

set_option autoImplicit false

namespace WebHost.Command

/-- Puts a file or a directory into a tree if it can be found. -/
def gather (files : FileTree) (path : String) : IO FileTree := do
  try
    let data ← IO.FS.readBinFile path
    return files.insert path (.file data.toList ⟨0, 0⟩)
  catch _ =>
    try
      let _ ← IO.FS.realPath path
      return files.insert path .directory
    catch _ => return files

/-- The variables of the environment that the program knows. -/
def environment : IO (List Variable) := do
  let keys := OverrideKey.all.map fun k => CommandLine.environmentPrefix ++ "__" ++ k.name
  let found ← ("RUST_LOG" :: keys).mapM fun name => do
    return (← IO.getEnv name).map fun value => (name, value)
  return found.filterMap id

/-- The surroundings of the program, with the files that a command line and the configuration named
there need. -/
def gatherAll (line : CommandLine) : IO Surroundings := do
  let here := (← IO.currentDir).toString
  let named := (line.value? .config).toList ++ [line.directoryOrHere]
  let files ← named.foldlM gather (FileTree.empty ((FileTree.parts here).filter (!·.isEmpty)))
  let environment ← environment
  let around : Surroundings := { files, environment, reader := .byShape }
  match line.configuration around with
  | .error _ => return around
  | .ok config =>
    let tls := config.tls
    let named := tls.rootFile.toList ++ tls.certificateFile.toList ++ tls.keyFile.toList
    return { around with files := ← named.foldlM gather files }

/-- Prints messages of the log, each as an object or as a text for people. -/
def printMessages (p : Program) (messages : List Event) : IO Unit := do
  for message in messages do
    match message with
    | .trace channel severity text =>
      if p.settings.jsonFormat then
        IO.println (Json.obj [("level", .str severity.name),
          ("fields", .obj [("message", .str text)]), ("target", .str channel.name)]).compact
      else IO.println (severity.name ++ " " ++ channel.name ++ ": " ++ text)
    | _ => pure ()

/-- Waits until there is no more input. -/
def awaitEnd (input : IO.FS.Stream) : Nat → IO Unit
  | 0 => return
  | fuel + 1 => do
    let line ← input.getLine
    if line.isEmpty then return
    awaitEnd input fuel

/-- Serves until the input ends. -/
def serve (p : Program) : IO UInt32 := do
  let (started, fault) := p.start
  printMessages started started.messages
  match fault with
  | some fault =>
    IO.eprintln (Program.faultLine fault)
    return 1
  | none =>
    awaitEnd (← IO.getStdin) (Nat.pow 2 64)
    let stopped := started.stop
    printMessages stopped (stopped.messages.drop started.messages.length)
    return 0

end WebHost.Command

open WebHost in
/-- Runs the program on the arguments of its command line. -/
def main (arguments : List String) : IO UInt32 := do
  match Invocation.of arguments with
  | .help =>
    Program.helpLines.forM IO.println
    return 0
  | .version =>
    Program.versionLines.forM IO.println
    return 0
  | .faulty error =>
    IO.eprintln ("error: " ++ error.message)
    return 2
  | .run line =>
    match Program.setUp (← Command.gatherAll line) line with
    | .error fault =>
      IO.eprintln (Program.faultLine fault)
      return 1
    | .ok p => Command.serve p
