import TelegramMcp.Aliases
import TelegramMcp.TgClient
import TelegramMcp.History.Types

/-!
# Errors of the server

The JSON-RPC errors a tool returns, and how the errors of the client, the store and the alias table
become one. What is the caller's fault is `invalidParams`, what transport or storage did is
`internalError`.
-/

namespace TelegramMcp

/-- The errors of a tool call: what the caller asked for is invalid, or something failed inside. -/
inductive McpError
  | invalidParams (message : String)
  | internalError (message : String)
  deriving DecidableEq

namespace Server

/-- `client_err_to_mcp`: what the Bot API refused is an invalid parameter, and what went wrong on
the way an internal error. -/
def clientErrToMcp (e : TgClientError) : McpError :=
  match e with
  | .http _ | .teloxide _ | .download _ => .internalError e.display
  | .api _ _ | .rateLimited _ | .unknownAlias _ | .invalidChat _ | .invalidUrl _ =>
    .invalidParams e.display

/-- `history_err_to_mcp`: a message that is not there, or a row that cannot be read, is an invalid
parameter, and any other failure of the store an internal error. -/
def historyErrToMcp (e : HistoryError) : McpError :=
  match e with
  | .notFound _ _ | .corruption _ => .invalidParams e.display
  | _ => .internalError e.display

/-- `alias_err_to_mcp`: an unknown alias is an invalid parameter, with the text of its error. -/
def aliasErrToMcp (e : UnknownAlias) : McpError := .invalidParams e.display

end Server

end TelegramMcp
