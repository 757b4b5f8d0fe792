import ChatClient.Connection.Endpoint
import ChatClient.Socket.Uri
import ChatClient.Text.Blank
import ChatClient.Text.Digit

/-!
# Connecting to a server

An endpoint is turned into a request for its address, with the credential as a cookie. That fails
when the address is not absolute or the credential holds a control character. A request can then
fail to lead to a connection, because nobody answers it or because it was one that cannot be made.

## Main definitions

* `Request`, `Endpoint.request`
* `Request.reachable`, `Endpoint.dial`
-/

namespace ChatClient

/-- Why there is no connection. -/
inductive DialProblem
  | invalidEndpoint | noConnection
  deriving DecidableEq, Repr

/-- What is asked of a server. -/
structure Request where
  uri : Uri
  cookie : Option Credential
  deriving DecidableEq

/-- The credential can be sent as a cookie: it has no control characters but tabs. -/
def Credential.sendable (c : Credential) : Bool :=
  c.text.toList.all fun c => (0x20 ≤ c.toNat && c.toNat != 0x7F) || c == '\t'

/-- The request for the address of the room. -/
def Endpoint.request (e : Endpoint) : Except DialProblem Request :=
  match Uri.parse? e.url with
  | none => .error .invalidEndpoint
  | some uri =>
    if e.credential.all Credential.sendable then .ok ⟨uri, e.credential⟩
    else .error .invalidEndpoint

namespace Request

/-- The largest number of a port. -/
def largestPort : Nat := 65535

/-- The digits behind the last colon of the authority, if there is one outside of brackets. -/
def port? (r : Request) : Option (List Char) :=
  let back := r.uri.authority.toList.reverse
  let digits := back.takeWhile Text.isDigit
  match back.dropWhile Text.isDigit with
  | ':' :: _ => some digits.reverse
  | _ => none

/-- The request can be made: the scheme is the one for plain connections, the port exists, and the
cookie is in ASCII. -/
def reachable (r : Request) : Bool :=
  r.uri.scheme == "ws" &&
    (r.port?.all fun digits => Text.decimal digits ≤ largestPort) &&
    r.cookie.all fun c => c.text.toList.all fun c => c.toNat < 0x80

/-- The cookie as it arrives, the spaces around it being lost on the way. -/
def cookieArriving (r : Request) : Option String :=
  r.cookie.map fun c => Text.trim c.text

end Request

/-- Asks for a connection. `answers` says which requests somebody answers with one. -/
def Endpoint.dial (e : Endpoint) (answers : Request → Bool) : Except DialProblem Request :=
  match e.request with
  | .error problem => .error problem
  | .ok r => if r.reachable && answers r then .ok r else .error .noConnection

/-- Nobody answers. -/
def unanswered (_ : Request) : Bool := false

end ChatClient
