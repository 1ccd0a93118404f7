import ControlClient.Failure
import ControlClient.Log.Event

/-!
# Conversations

A command that needs the service is a conversation with it: the client asks, and what it does next
depends on the reply. A conversation is a value, a tree with a branch for each reply, so what a command
does can be followed against any service.

`Conversation.transcript` follows a conversation against a service whose replies are laid down.

## Main results

* `bind_ended`, `bind_assoc`: conversations can be strung together.
-/

namespace ControlClient

/-- A request as the service receives it. -/
structure SentRequest where
  method : Method
  /-- The URL without credentials and fragment. -/
  url : Url
  contentType? : Option String
  userAgent : String
  /-- The header that carries credentials. -/
  authorization? : Option String
  body : Content
deriving DecidableEq, Repr

/-- What becomes of a request. Redirections are followed before there is a reply, so this is the end of
all that one request led to: the last answer, or what kept it from coming. -/
inductive Reply where
  /-- It is answered with a status and a body. -/
  | answered (status : Nat) (body : List UInt8)
  /-- An answer starts and its body does not come to its end. This failed, for these reasons. -/
  | brokenOff (what : String) (causes : List String)
  /-- It arrives, and the connection is closed without an answer. -/
  | dropped
  /-- It does not arrive, for these reasons. -/
  | unreachable (causes : List String)
deriving DecidableEq, Repr

/-- Whether a request with a reply was received; a body that cannot be read is never received whole. -/
def Reply.isReceipt : Reply → Content → Bool
  | unreachable _, _ => false
  | _, .unreadable _ => false
  | _, .bytes _ => true

/-- What a command does, depending on the replies of the service. -/
inductive Conversation (α : Type) where
  /-- It ends with a result. -/
  | ended (a : α)
  /-- It fails. -/
  | failed (f : Failure)
  /-- Something happens that the log may tell. -/
  | noted (e : Log.Event) (rest : Conversation α)
  /-- A request is made. -/
  | asked (r : SentRequest) (next : Reply → Conversation α)

namespace Conversation

/-- Go on with the result of a conversation. -/
def bind {α β : Type} : Conversation α → (α → Conversation β) → Conversation β
  | ended a, f => f a
  | failed e, _ => failed e
  | noted e rest, f => noted e (rest.bind f)
  | asked r next, f => asked r fun reply => (next reply).bind f

instance : Monad Conversation where
  pure := ended
  bind := bind

/-- A result that is there, or a failure. -/
def ofExcept {α : Type} : Except Failure α → Conversation α
  | .ok a => ended a
  | .error f => failed f

/-- Let the log tell something. -/
def note (e : Log.Event) : Conversation Unit := noted e (ended ())

/-- Make a request. -/
def ask (r : SentRequest) : Conversation Reply := asked r ended

theorem bind_ended {α : Type} (c : Conversation α) : c.bind ended = c := by
  induction c with
  | ended a => rfl
  | failed f => rfl
  | noted e rest ih => simp [bind, ih]
  | asked r next ih => simp [bind, ih]

theorem bind_assoc {α β γ : Type} (c : Conversation α) (f : α → Conversation β)
    (g : β → Conversation γ) : (c.bind f).bind g = c.bind fun a => (f a).bind g := by
  induction c with
  | ended a => rfl
  | failed f => rfl
  | noted e rest ih => simp [bind, ih]
  | asked r next ih => simp [bind, ih]

end Conversation

/-! ## Services -/

/-- A service whose replies are laid down. -/
structure Service where
  /-- The replies to the first requests. -/
  script : List Reply
  /-- The reply to each request after them. -/
  after : Reply
deriving DecidableEq, Repr

/-- The reply to the next request, and the service after it. -/
def Service.reply (s : Service) : Reply × Service :=
  match s.script with
  | [] => (s.after, s)
  | r :: rest => (r, { s with script := rest })

/-- What happened in a conversation. -/
structure Transcript (α : Type) where
  result : Except Failure α
  /-- The requests that were made, each with its reply. -/
  exchanges : List (SentRequest × Reply)
  events : List Log.Event

/-- Follow a conversation with a service. -/
def Conversation.transcript {α : Type} : Conversation α → Service → Transcript α
  | ended a, _ => ⟨.ok a, [], []⟩
  | failed f, _ => ⟨.error f, [], []⟩
  | noted e rest, s =>
      let t := rest.transcript s
      { t with events := e :: t.events }
  | asked r next, s =>
      let (reply, s) := s.reply
      let t := (next reply).transcript s
      { t with exchanges := (r, reply) :: t.exchanges }

/-- The requests that the service received. -/
def receivedRequests (exchanges : List (SentRequest × Reply)) : List SentRequest :=
  (exchanges.filter fun (r, reply) => reply.isReceipt r.body).map (·.1)

end ControlClient
