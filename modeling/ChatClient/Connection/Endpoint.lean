import ChatClient.Ident

/-!
# Where to connect

Every room has an address of its own below the address of the server.
-/

namespace ChatClient

/-- Where to connect, and as whom. -/
structure Endpoint where
  serverUrl : String
  room : RoomId
  credential : Option Credential
  deriving DecidableEq

/-- A text without the slashes at its end. -/
def dropSlashesEnd (s : String) : String :=
  String.ofList (s.toList.reverse.dropWhile (· == '/')).reverse

/-- The address of the room. -/
def Endpoint.url (e : Endpoint) : String :=
  dropSlashesEnd e.serverUrl ++ "/rooms/" ++ e.room.text ++ "/ws"

end ChatClient
