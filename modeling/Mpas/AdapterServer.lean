import Mpas.Library.Machine
import Mpas.DispatchLedger

/-!
# The action handler of the adapter server

Concurrent submissions to one Verifier. A handler runs without interruption
from one `await` to the next, so an event is a submission, the reply that one
handler waits for, a crash or a restart. What verification, policy and the
target decide is part of the replies; what the ledger decides is computed.

The log records, in order, the `executing` events whose append returned and the
calls of the target session's `transmit`.
-/

namespace Mpas.AdapterServer

open DispatchLedger

/-! ## Submissions and answers -/

structure Submission where
  actionId : ActionId
  envelopeHash : String
  expiresAt : Timestamp
  /-- the idempotency fingerprint; `none` when computing it throws -/
  fingerprint : Option String
  deriving DecidableEq, Repr

inductive McpDispatchResult
  | ok (result : Option Json)
  | error (error : AdapterError)
  deriving DecidableEq

structure Classified where
  result : DispatchResolution
  executionResult : Option Json := none
  error : Option AdapterError := none
  deriving DecidableEq

def classifyDispatch : McpDispatchResult → Classified
  | .ok toolResult =>
    if toolResult.bind (Json.member "isError") = some (.bool true) then
      { result := .failed, executionResult := toolResult }
    else { result := .executed, executionResult := toolResult }
  | .error error =>
    if error.code = "DISPATCH_TIMEOUT" ∨ error.code = "PROCESS_EXITED" ∨
        error.code = "TRANSPORT_ERROR" ∨ "OAUTH_".toList.isPrefixOf error.code.toList then
      { result := .indeterminate, error := some error }
    else { result := .failed, error := some error }

def terminalResponse (submission : Submission) (classified : Classified) (receipt : String) :
    ActionResponse where
  actionEnvelopeHash := some ⟨"sha-256", submission.envelopeHash⟩
  result := classified.result.toResult
  executionReceipt := some receipt
  executionResult := classified.executionResult
  error := classified.error

inductive Answer
  /-- an answer that no ledger state decides -/
  | stateless
  | rejected (code : ReplayCode)
  /-- `503 timeout` -/
  | stillExecuting
  /-- `409 conflict` -/
  | conflict
  | outcome (response : ActionResponse)
  | exception
  deriving DecidableEq

/-! ## The server -/

structure InFlightDispatch where
  fingerprint : String
  dispatcher : Nat
  deriving DecidableEq, Repr

inductive Phase
  | verifying
  | gettingCredential
  | preparing
  /-- a duplicate, which has captured the dispatch; it may own a session to release -/
  | joining (entry : Option InFlightDispatch) (sameRequest ownsSession : Bool)
  | waiting (entry : InFlightDispatch)
  /-- lost the race to another submission -/
  | closingUnused (code : ReplayCode)
  | transmitting
  /-- `none` when `transmit` threw -/
  | closing (result : Option McpDispatchResult)
  | signing (classified : Classified)
  /-- `dispatchAndRecord` has ended; `none` with an exception -/
  | settling (response : Option ActionResponse)
  | finished (answer : Answer)
  deriving DecidableEq

structure Handler where
  submission : Submission
  phase : Phase
  /-- `authorizeDispatch` has answered `absent` -/
  authorized : Bool := false
  deriving DecidableEq

structure Server where
  entries : Entries
  inFlight : OrderedMap Json InFlightDispatch := ∅
  handlers : OrderedMap Nat Handler := ∅
  deriving DecidableEq

inductive Effect
  | executingAppended (actionId : ActionId)
  | transmit (actionId : ActionId)
  deriving DecidableEq, Repr

/-- `server` is `none` while no process runs. -/
structure World where
  journal : DispatchJournal
  server : Option Server := none
  log : List Effect := []
  deriving DecidableEq

/-- The value whose JSON text is the key of the map `inFlight`. -/
def dispatchKey (actionId : ActionId) (envelopeHash : String) : Json :=
  .arr [match actionId.scope with
    | some scope => .str scope
    | none => .null, .str actionId.value, .str envelopeHash]

def Submission.dispatchKey (submission : Submission) : Json :=
  AdapterServer.dispatchKey submission.actionId submission.envelopeHash

def Server.setPhase (server : Server) (h : Nat) (handler : Handler) (phase : Phase) : Server :=
  { server with handlers := server.handlers.set h { handler with phase } }

/-- Joins the dispatch in progress, captured before anything is awaited. -/
def joinDispatch (server : Server) (h : Nat) (handler : Handler) (ownsSession : Bool) : Server :=
  match server.inFlight.get? handler.submission.dispatchKey with
  | none => server.setPhase h handler (.joining none false ownsSession)
  | some entry => match handler.submission.fingerprint with
    | none => server.setPhase h handler (.finished .exception)
    | some fingerprint => server.setPhase h handler
        (.joining (some entry) (decide (fingerprint = entry.fingerprint)) ownsSession)

/-! ## Events -/

inductive AfterVerification
  | answer
  | credential
  /-- a managed OAuth target needs no stored credential -/
  | prepare
  deriving DecidableEq, Repr

inductive Reply
  | verified (next : AfterVerification)
  | credential (ok : Bool)
  | prepared (ok : Bool) (now : Timestamp) (append : AppendOutcome)
  | released (ok : Bool)
  /-- the outcome of the joined dispatch, or the end of the wait -/
  | outcome (arrived : Bool)
  /-- `none` when `transmit` throws -/
  | transmitted (result : Option McpDispatchResult)
  | closed (ok : Bool)
  /-- `none` when signing throws -/
  | receipt (receipt : Option String) (now : Timestamp) (append : AppendOutcome)
  | settled
  deriving DecidableEq

inductive Event
  | submit (h : Nat) (submission : Submission) (wellFormed timely : Bool)
  | resume (h : Nat) (reply : Reply)
  | crash
  | restart (now : Timestamp) (outcomes : List AppendOutcome)
  deriving DecidableEq

def submit (server : Server) (h : Nat) (submission : Submission) (wellFormed timely : Bool) :
    Server :=
  let handler : Handler := { submission, phase := .verifying }
  if !wellFormed then server.setPhase h handler (.finished .stateless)
  else match check server.entries submission.actionId submission.envelopeHash with
    | .executing => joinDispatch server h handler false
    | .reject code => server.setPhase h handler (.finished (.rejected code))
    | .absent =>
      if timely then server.setPhase h handler .verifying
      else server.setPhase h handler (.finished .stateless)

def startDispatch (w : World) (server : Server) (h : Nat) (handler : Handler) : World :=
  let handler := { handler with authorized := true }
  let log := w.log ++ [.executingAppended handler.submission.actionId]
  match handler.submission.fingerprint with
  | none => { w with server := some (server.setPhase h handler (.finished .exception)), log }
  | some fingerprint =>
    let inFlight := server.inFlight.set handler.submission.dispatchKey ⟨fingerprint, h⟩
    { w with
      server := some ({ server with inFlight }.setPhase h handler .transmitting)
      log := log ++ [.transmit handler.submission.actionId] }

def authorize (w : World) (server : Server) (h : Nat) (handler : Handler) (now : Timestamp)
    (append : AppendOutcome) : World :=
  let (journal, completion) := authorizeDispatch w.journal server.entries
    handler.submission.actionId handler.submission.envelopeHash handler.submission.expiresAt now
    append
  let w := { w with journal }
  match completion with
  | .crashed => { w with server := none }
  | .threw => { w with server := some (server.setPhase h handler (.finished .exception)) }
  | .returned (.absent, entries) => startDispatch w { server with entries } h handler
  | .returned (.executing, _) => { w with server := some (joinDispatch server h handler true) }
  | .returned (.reject code, _) =>
    { w with server := some (server.setPhase h handler (.closingUnused code)) }

def record (w : World) (server : Server) (h : Nat) (handler : Handler) (classified : Classified)
    (receipt : String) (now : Timestamp) (append : AppendOutcome) : World :=
  let response := terminalResponse handler.submission classified receipt
  let (journal, completion) := resolve w.journal server.entries handler.submission.actionId
    classified.result (some response) now append
  let w := { w with journal }
  match completion with
  | .crashed => { w with server := none }
  | .threw => { w with server := some (server.setPhase h handler (.settling none)) }
  | .returned entries =>
    { w with server := some ({ server with entries }.setPhase h handler (.settling (some response))) }

def outcomeOf (server : Server) (dispatcher : Nat) : Option ActionResponse :=
  match server.handlers.get? dispatcher with
  | some handler => match handler.phase with
    | .finished (.outcome response) => some response
    | _ => none
  | none => none

def resume (w : World) (server : Server) (h : Nat) (handler : Handler) : Reply → Option World :=
  let goto (phase : Phase) : Option World :=
    some { w with server := some (server.setPhase h handler phase) }
  fun reply => match handler.phase, reply with
  | .verifying, .verified .answer => goto (.finished .stateless)
  | .verifying, .verified .credential => goto .gettingCredential
  | .verifying, .verified .prepare => goto .preparing
  | .gettingCredential, .credential ok => goto (if ok then .preparing else .finished .stateless)
  | .preparing, .prepared ok now append =>
    if ok then some (authorize w server h handler now append) else goto (.finished .stateless)
  | .joining entry sameRequest ownsSession, .released ok =>
    if !ok then if ownsSession then goto (.finished .exception) else none
    else match entry with
      | none => goto (.finished .stillExecuting)
      | some dispatch => goto (if sameRequest then .waiting dispatch else .finished .conflict)
  | .waiting _, .outcome false => goto (.finished .stillExecuting)
  | .waiting dispatch, .outcome true =>
    (outcomeOf server dispatch.dispatcher).bind fun response => goto (.finished (.outcome response))
  | .closingUnused code, .closed ok => goto (.finished (if ok then .rejected code else .exception))
  | .transmitting, .transmitted result => goto (.closing result)
  | .closing (some result), .closed true => goto (.signing (classifyDispatch result))
  | .closing _, .closed _ => goto (.settling none)
  | .signing _, .receipt none _ _ => goto (.settling none)
  | .signing classified, .receipt (some receipt) now append =>
    some (record w server h handler classified receipt now append)
  | .settling response, .settled =>
    let inFlight := server.inFlight.delete handler.submission.dispatchKey
    let answer := match response with
      | some response => .outcome response
      | none => .exception
    some { w with server := some ({ server with inFlight }.setPhase h handler (.finished answer)) }
  | _, _ => none

def step (w : World) : Event → Option World
  | .submit h submission wellFormed timely => w.server.bind fun server =>
    if server.handlers.has h then none
    else some { w with server := some (submit server h submission wellFormed timely) }
  | .resume h reply => w.server.bind fun server =>
    (server.handlers.get? h).bind fun handler => resume w server h handler reply
  | .crash => w.server.map fun _ => { w with server := none }
  | .restart now outcomes =>
    match w.server with
    | some _ => none
    | none =>
      let (journal, completion) := openLedger now outcomes w.journal
      match completion with
      | .returned entries => some { w with journal, server := some { entries } }
      | _ => some { w with journal }

end Mpas.AdapterServer
