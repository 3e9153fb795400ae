import Switchboard.Duration

/-!
# Call errors

Why a chat call failed. `kind` is the stable word for the cause, `message` the text that is shown,
`detail` the free part of that text. An error is transient when trying again may help: timeouts,
transport failures and failures of input or output.
-/

namespace Switchboard.Chat

/-- What went wrong with an input or output. -/
inductive IoKind where
  | notFound
  | permissionDenied
  | connectionRefused
  | connectionReset
  | brokenPipe
  | timedOut
  | unexpectedEof
  | other
  deriving DecidableEq, Repr

inductive ChatError where
  | invalidModel (model : String)
  | unknownProvider (provider : String)
  | configuration (text : String)
  /-- An attempt ran for the limit, in nanoseconds. -/
  | timeout (limit : Nat)
  | cancelled
  | transport (text : String)
  | io (cause : IoKind) (text : String)
  | upstream (text : String)
  | invalidRequest (text : String)
  | auth (text : String)
  | internal (text : String)
  deriving DecidableEq, Repr

namespace ChatError

def isTransient : ChatError → Bool
  | timeout _ | transport _ | io _ _ => true
  | _ => false

def kind : ChatError → String
  | invalidModel _ => "invalid_model_id"
  | unknownProvider _ => "unknown_provider"
  | configuration _ => "configuration"
  | timeout _ => "timeout"
  | cancelled => "cancelled"
  | transport _ => "transport"
  | io _ _ => "io"
  | upstream _ => "upstream"
  | invalidRequest _ => "invalid_request"
  | auth _ => "auth"
  | internal _ => "internal"

def detail : ChatError → Option String
  | invalidModel s | unknownProvider s | configuration s | transport s | io _ s | upstream s
  | invalidRequest s | auth s | internal s => some s
  | timeout _ | cancelled => none

/-- The same kind of error with another detail; those without a detail stay as they are. -/
def withDetail (s : String) : ChatError → ChatError
  | invalidModel _ => invalidModel s
  | unknownProvider _ => unknownProvider s
  | configuration _ => configuration s
  | timeout d => timeout d
  | cancelled => cancelled
  | transport _ => transport s
  | io k _ => io k s
  | upstream _ => upstream s
  | invalidRequest _ => invalidRequest s
  | auth _ => auth s
  | internal _ => internal s

def message : ChatError → String
  | invalidModel s => "invalid model identifier '" ++ s ++ "': expected 'provider/model'"
  | unknownProvider s => "unknown provider: " ++ s
  | configuration s => "configuration error: " ++ s
  | timeout d => "request timed out after " ++ toString (Duration.millis d) ++ "ms"
  | cancelled => "request cancelled"
  | transport s => "transport error: " ++ s
  | io _ s => "i/o error: " ++ s
  | upstream s => "upstream error: " ++ s
  | invalidRequest s => "invalid request: " ++ s
  | auth s => "authentication error: " ++ s
  | internal s => "internal error: " ++ s

@[simp] theorem kind_withDetail (s : String) (e : ChatError) : (e.withDetail s).kind = e.kind := by
  cases e <;> rfl

@[simp] theorem isTransient_withDetail (s : String) (e : ChatError) :
    (e.withDetail s).isTransient = e.isTransient := by
  cases e <;> rfl

theorem detail_withDetail (s : String) (e : ChatError) :
    (e.withDetail s).detail = e.detail.map fun _ => s := by
  cases e <;> rfl

theorem withDetail_withDetail (s t : String) (e : ChatError) :
    (e.withDetail s).withDetail t = e.withDetail t := by
  cases e <;> rfl

end ChatError
end Switchboard.Chat
