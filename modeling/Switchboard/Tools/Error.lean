import Switchboard.Duration
import Switchboard.Json.Printer

/-!
# Tool server errors

Why a call to a tool server failed. A fatal error leaves a connection that can carry no further
request: a malformed frame, the end of the server's output, a failed handshake, a closed client or
a failed read or write.
-/

namespace Switchboard.Tools

inductive ToolError where
  | spawn (command : String) (cause : String)
  | framing (text : String)
  | connectionClosed
  /-- The server answered with an error, kept as it came. -/
  | rpc (method : String) (payload : Json)
  | handshake (text : String)
  | timeout (method : String) (limit : Nat)
  | invalidArguments (text : String)
  | closed
  | serverNotFound (server : String)
  | io (cause : String)
  | json
  deriving DecidableEq, Repr

namespace ToolError

def kind : ToolError → String
  | spawn _ _ => "spawn"
  | framing _ => "framing"
  | connectionClosed => "connection_closed"
  | rpc _ _ => "rpc"
  | handshake _ => "handshake"
  | timeout _ _ => "timeout"
  | invalidArguments _ => "invalid_arguments"
  | closed => "closed"
  | serverNotFound _ => "not_found"
  | io _ => "io"
  | json => "json"

def isFatal : ToolError → Bool
  | framing _ | connectionClosed | handshake _ | closed | io _ => true
  | _ => false

def message : ToolError → String
  | spawn c s => "failed to start MCP server `" ++ c ++ "`: " ++ s
  | framing s => "invalid frame: " ++ s
  | connectionClosed => "MCP server closed the connection"
  | rpc m p => "MCP request `" ++ m ++ "` failed: " ++ p.compact
  | handshake s => "MCP initialize failed: " ++ s
  | timeout m d =>
    "MCP request `" ++ m ++ "` timed out after " ++ toString (Duration.millis d) ++ "ms"
  | invalidArguments s => "invalid tool arguments: " ++ s
  | closed => "MCP client is closed"
  | serverNotFound s => "server not found: " ++ s
  | io s => "I/O error: " ++ s
  | json => "invalid JSON"

end ToolError
end Switchboard.Tools
