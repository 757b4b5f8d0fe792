import ChatClient.Config
import ChatClient.Queue.Outbox

/-!
# Why the client does not start

Once it runs, the client does not fail: a lost connection is attempted again, and what cannot be
sent waits. What can go wrong before is collected here.
-/

namespace ChatClient

/-- Why the client does not start. -/
inductive Failure
  | invalidArgument (e : BlankIdent)
  | queue (e : FileError)
  /-- The line editor could not be started. -/
  | terminal (reason : String)
  deriving DecidableEq

def Failure.message : Failure → String
  | invalidArgument e => "Invalid argument: " ++ e.message
  | queue e => "Offline queue error: " ++ e.queueMessage
  | terminal reason => "Terminal error: " ++ reason

/-- The outbox that the settings ask for. -/
def Config.outbox (config : Config) (tree : Tree) : Except FileError Outbox :=
  match config.queueFile with
  | none => .ok {}
  | some file => Outbox.load tree (Path.ofText file)

end ChatClient
