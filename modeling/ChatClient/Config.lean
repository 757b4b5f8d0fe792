import ChatClient.Connection.Backoff

/-!
# Configuration

Everything about the client that can be set, with the values it has otherwise.
-/

namespace ChatClient

/-- What happens to what waits for other rooms when the connection of a room opens. -/
inductive FlushPolicy
  | retainOtherRooms | dropOtherRooms
  deriving DecidableEq, Repr

/-- The settings of the client. Times are in milliseconds. -/
structure Config where
  serverUrl : String := "ws://127.0.0.1:8080"
  backoff : Backoff := {}
  typingIdle : Nat := 2000
  /-- The file that keeps what waits to be sent; without one it is lost with the program. -/
  queueFile : Option String := none
  flushPolicy : FlushPolicy := .retainOtherRooms
  deriving DecidableEq, Repr

end ChatClient
