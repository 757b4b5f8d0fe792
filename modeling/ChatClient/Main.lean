import ChatClient.CommandLine
import ChatClient.Terminal.Stage

/-!
# The program

The program runs the terminal on the lines of its standard input. It has no network of its own:
attempts to connect stay unanswered, so that what is typed waits in the outbox, and in the queue
file if there is one, for a run that gets through.
-/

namespace ChatClient.Program

/-- What is printed for those who ask for help. -/
def usage : String :=
  String.intercalate "\n" [
    "Realtime chat client with reconnect and offline queue",
    "",
    "  -u, --user <id>              your user id",
    "  -r, --room <id>              the room to join",
    "      --url <url>              base URL of the server",
    "      --cookie <text>          session cookie",
    "      --queue-file <path>      keep unsent messages in this file",
    "      --drop-stale-queue       discard unsent messages for other rooms",
    "      --backoff-base-ms <ms>   first delay before connecting again",
    "      --backoff-max-ms <ms>    longest delay before connecting again",
    "      --typing-idle-ms <ms>    when typing counts as ended"]

/-- Where paths start that belong to the same tree as the given one. -/
def baseOf (file : String) : String :=
  if file.startsWith "/" then "/" else ""

/-- The text of a path. -/
def pathText (base : String) (p : Path) : String :=
  base ++ String.intercalate "/" p.names

/-- Does a step on the real disk. -/
def perform (base : String) : FileStep → IO Unit
  | .makeDirs p => unless p.names.isEmpty do IO.FS.createDirAll (pathText base p)
  | .write p content => IO.FS.writeBinFile (pathText base p) ⟨content.toArray⟩
  | .rename source target => IO.FS.rename (pathText base source) (pathText base target)

/-- The tree that holds the queue file as it is on the real disk. -/
def loadTree (file : String) : IO Tree := do
  match ← (IO.FS.readBinFile file).toBaseIO with
  | .ok content =>
    let p := Path.ofText file
    let (tree, _) := Tree.empty.makeDirs p.parent
    return (tree.orSame (tree.write p content.data.toList)).1
  | .error (.noFileOrDirectory ..) => return .empty
  | .error e => throw e

/-- Brings the queue file up to date if what waits has changed. -/
def save (file : Option String) (before after : Stage) : IO Unit := do
  match file with
  | none => return
  | some file =>
    let entries := after.client.outbox.entries
    unless entries = before.client.outbox.entries do
      (Outbox.savePlan (Path.ofText file) entries).forM (perform (baseOf file))

/-- Prints what has been added to the output. -/
def display (before after : Stage) : IO Unit := do
  IO.print (String.ofList (after.output.toList.drop before.output.length))
  (← IO.getStdout).flush

/-- What a line of the input does to a terminal on which so much time has passed. The end of the
input is an empty line. -/
def acts (elapsed : Nat) (line : String) : List Stage.Act :=
  [.wait elapsed, if line.isEmpty then .leave else .line line, .settle]

/-- The program has broken down. -/
def breakDown (_ : Overflow) : IO UInt32 := do
  IO.eprintln "attempt to add with overflow"
  return 101

/-- Reads lines until the user leaves. -/
partial def loop (file : Option String) (started : Nat) (st : Stage) : IO UInt32 := do
  if st.done then return 0
  let line ← (← IO.getStdin).getLine
  let elapsed := (← IO.monoMsNow) - started - st.client.now
  match st.play (acts elapsed line) with
  | .error e => breakDown e
  | .ok next =>
    display st next
    save file st next
    loop file started next

/-- Runs the terminal. -/
def run (setup : Arguments.Setup) : IO UInt32 := do
  let file := setup.config.queueFile
  let tree ←
    match file with
    | some file => loadTree file
    | none => pure .empty
  match Stage.start setup.user setup.credential setup.room setup.config { tree } .epoch [] with
  | .error e =>
    IO.eprintln ("Client error: " ++ (Failure.queue e).message)
    return 1
  | .ok st =>
    match st.enterRoom >>= Stage.settle with
    | .error e => breakDown e
    | .ok first =>
      display st first
      loop file (← IO.monoMsNow) first

/-- Does what the words of a command line ask for. -/
def start (words : List String) : IO UInt32 := do
  match Arguments.parse words with
  | .error .help =>
    IO.println usage
    return 0
  | .error .misuse =>
    IO.eprintln "wrong usage, try --help"
    return 2
  | .ok arguments =>
    match arguments.setup with
    | .error e =>
      IO.eprintln ("Client error: " ++ (Failure.invalidArgument e).message)
      return 1
    | .ok setup => run setup

end ChatClient.Program

def main (words : List String) : IO UInt32 :=
  ChatClient.Program.start words
