import NestGateway.Core.Runs
import NestGateway.Gateway.AuthProxy
import NestGateway.Logger.EcsFormat

/-! # One id for a request

The middleware of the Nest services gives every request an id, the one that its
client sent or a new one, and keeps it in the store of the request. Whatever
runs for a request reads that store: the loggers, and the HTTP client that the
gateway calls the auth server with. The modules that call the log-streamers
have HTTP clients of their own, which read nothing.
-/

namespace NestGateway.Gateway

open Auth Logger GoJson Runs
open JsString (truthy)

def CORRELATION_HEADER : String := "x-correlation-id"

structure IncomingMessage where
  headers : IncomingHttpHeaders
  method : Option String := none
  url : Option String := none
  /-- `socket.remoteAddress` -/
  remoteAddress : Option String := none

/-- `headers[name] as string`: of these headers Node has one text, whatever it receives. -/
def textOf (headers : IncomingHttpHeaders) (name : String) : Option String :=
  match headers.get name with
  | some (.one text) => some text
  | _ => none

structure RequestStore where
  authToken : Option String
  correlationId : Option String
  acceptLanguage : Option String

/-- The request with its id, and the header that is set on the response. -/
def CorrelationIdMiddleware.use (randomUUID : String) (req : IncomingMessage) :
    IncomingMessage × (String × String) :=
  let correlationId := (truthy (textOf req.headers CORRELATION_HEADER)).getD randomUUID
  ({ req with headers := req.headers.set CORRELATION_HEADER (.one correlationId) },
    (CORRELATION_HEADER, correlationId))

/-- The store that everything after the middleware runs in. -/
def RequestContextMiddleware.use (req : IncomingMessage) : RequestStore where
  authToken := textOf req.headers "authorization"
  correlationId := textOf req.headers CORRELATION_HEADER
  acceptLanguage := textOf req.headers "accept-language"

inductive LogLevel where
  | error
  | warn
  | info
  | verbose
  | debug
  deriving Repr, DecidableEq

def LogLevel.name : LogLevel → String
  | error => "error"
  | warn => "warn"
  | info => "info"
  | verbose => "verbose"
  | debug => "debug"

/-- The levels of winston's `npm` scale. -/
def LogLevel.severity : LogLevel → Nat
  | error => 0
  | warn => 1
  | info => 2
  | verbose => 4
  | debug => 5

def getLogLevel (production : Bool) : LogLevel := if production then .info else .debug

/-- The format tokens of winston: `/%[scdjifoO%]/` -/
def formatToken : List Char → Bool
  | [] => false
  | [_] => false
  | c :: d :: rest => (c == '%' && "scdjifoO%".toList.contains d) || formatToken (d :: rest)

/-- winston finds a token of `util.format` in the message. -/
def HasFormatToken (message : String) : Prop := formatToken message.toList = true

instance (message : String) : Decidable (HasFormatToken message) :=
  inferInstanceAs (Decidable (_ = true))

/-- What winston makes of a message and the object that is given with it, for a logger without a
format that interpolates: the message stays as it is, and unless it has a token to format, the
record has the entries of the object. -/
structure Winston where
  log : Info → Info
  message_log : ∀ given, (log given).message = given.message
  merges : ∀ given, ¬ HasFormatToken given.message → log given = given

/-- With a token the object is kept for a format that this logger does not have. -/
def Winston.standard : Winston where
  log given :=
    if HasFormatToken given.message then { level := given.level, message := given.message }
    else given
  message_log given := by split <;> rfl
  merges _ h := if_neg h

theorem Winston.rest_log {winston : Winston} {given : Info}
    (h : ¬ HasFormatToken (winston.log given).message) : (winston.log given).rest = given.rest := by
  rw [winston.message_log] at h
  rw [winston.merges given h]

/-- What a caller adds to a record; it takes none of the keys that a record has itself. -/
structure LogMeta where
  entries : JsMap String (Option Json)
  apart : ∀ key ∈ entries.keys, key ∉ internalKeys

structure WinstonLoggerService where
  context : Option String := none

namespace WinstonLoggerService

def getRequestMeta (store : Option RequestStore) : JsMap String (Option Json) :=
  match truthy (store.bind (·.correlationId)) with
  | none => .empty
  | some correlationId => JsMap.empty.set "correlationId" (some (.str correlationId))

variable (this : WinstonLoggerService) (store : Option RequestStore)

/-- What the methods of Nest's logger give to winston: a message with a context, a trace and
more. -/
def record (level : LogLevel) (message : String) (context trace : Option String) : Info where
  level := level.name
  message := message
  context := (truthy context).or this.context
  trace := trace
  rest := getRequestMeta store

def log (message : String) (context : Option String) : Info :=
  this.record store .info message context none

def error (message : String) (trace context : Option String) : Info :=
  this.record store .error message context trace

def warn (message : String) (context : Option String) : Info :=
  this.record store .warn message context none

def debug (message : String) (context : Option String) : Info :=
  this.record store .debug message context none

def verbose (message : String) (context : Option String) : Info :=
  this.record store .verbose message context none

/-- `{ ...a, ...b }` -/
def spread (a b : JsMap String (Option Json)) : JsMap String (Option Json) :=
  b.entries.foldl (fun m entry => m.set entry.1 entry.2) a

def logWithMeta (level : LogLevel) (message : String) (added : LogMeta) (context : Option String) :
    Info where
  level := level.name
  message := message
  context := (truthy context).or this.context
  rest := spread (getRequestMeta store) added.entries

end WinstonLoggerService

/-- What `LoggerMiddleware.use` keeps of a request until its response is finished. -/
structure Access where
  method : String
  url : String
  userAgent : String
  correlationId : String
  accessChannel : Option String
  ip : String
  start : Int

namespace LoggerMiddleware

def logger : WinstonLoggerService := ⟨some "HTTP"⟩

def use (urls : UrlParser) (now : Int) (req : IncomingMessage) : Access where
  method := req.method.getD ""
  url := req.url.getD ""
  userAgent := (truthy (textOf req.headers "user-agent")).getD ""
  correlationId := (truthy (textOf req.headers CORRELATION_HEADER)).getD ""
  accessChannel := AccessChannel.resolveAccessChannelOrigin urls req.headers
  ip :=
    ((truthy ((textOf req.headers "x-forwarded-for").map fun value =>
      JsString.trim (beforeComma value))).or (truthy req.remoteAddress)).getD ""
  start := now

def logMessage (access : Access) (statusCode : Nat) (duration : Int) : String :=
  access.method ++ " " ++ access.url ++ " " ++ toString statusCode ++ " - " ++ access.ip ++ " " ++
    access.accessChannel.getD "-" ++ " " ++ access.userAgent ++ " +" ++ toString duration ++ "ms"

def logMeta (access : Access) (statusCode : Nat) (duration : Int) : LogMeta where
  entries :=
    ⟨[("correlationId", some (.str access.correlationId)),
      ("method", some (.str access.method)),
      ("url", some (.str access.url)),
      ("statusCode", some (.num (toString statusCode))),
      ("ip", some (.str access.ip)),
      ("accessChannel", some ((access.accessChannel.map Json.str).getD .null)),
      ("userAgent", some (.str access.userAgent)),
      ("duration", some (.num (toString duration)))],
      (by decide : ["correlationId", "method", "url", "statusCode", "ip", "accessChannel",
        "userAgent", "duration"].Nodup)⟩
  apart :=
    (by decide : ∀ key ∈ ["correlationId", "method", "url", "statusCode", "ip", "accessChannel",
      "userAgent", "duration"], key ∉ internalKeys)

/-- The listener of `finish`, in whatever store it is called. -/
def finish (access : Access) (store : Option RequestStore) (statusCode : Nat) (now : Int) : Info :=
  let duration := now - access.start
  logger.logWithMeta store (if 400 ≤ statusCode then .error else .info)
    (logMessage access statusCode duration) (logMeta access statusCode duration) none

end LoggerMiddleware

/-- The calls that the gateway makes of other services. -/
inductive Outgoing where
  | login (loginId password : String) (req : FastifyRequest)
  | verifyTwoFactor (totpCode : String) (req : FastifyRequest)
  | refreshToken (token : String)
  | changePassword (currentPassword newPassword : String) (req : FastifyRequest)
  | kioskAdmin
  | logStreamer

inductive Target where
  | auth
  | kioskAdmin
  | logStreamer
  deriving Repr, DecidableEq

def Outgoing.target : Outgoing → Target
  | kioskAdmin => .kioskAdmin
  | logStreamer => .logStreamer
  | _ => .auth

def Outgoing.headers (urls : UrlParser) : Outgoing → SentHeaders
  | login loginId password req => (AuthProxyResolver.login urls loginId password req).headers
  | verifyTwoFactor totpCode req => (AuthProxyResolver.verifyTwoFactor urls totpCode req).headers
  | refreshToken token => (AuthProxyService.refreshToken token).headers
  | changePassword currentPassword newPassword req =>
      (AuthProxyResolver.changePassword currentPassword newPassword req).headers
  | kioskAdmin => .empty
  | logStreamer => .empty

def GlobalHttpModule.intercept (store : Option RequestStore) (headers : SentHeaders) :
    SentHeaders :=
  let headers := setIfTruthy headers "Authorization" (store.bind (·.authToken))
  let headers := setIfTruthy headers CORRELATION_HEADER (store.bind (·.correlationId))
  setIfTruthy headers "accept-language" (store.bind (·.acceptLanguage))

/-- What is sent: the modules that call the log-streamers register clients of their own, which
have no interceptor. -/
def Outgoing.sent (urls : UrlParser) (store : Option RequestStore) (call : Outgoing) :
    SentHeaders :=
  match call.target with
  | .logStreamer => call.headers urls
  | _ => GlobalHttpModule.intercept store (call.headers urls)

structure GoRequest where
  method : String
  /-- The fields of the header, in the order in which they were received. -/
  header : List (String × String)

/-- `r.Header.Get(name)` -/
def GoRequest.headerGet (r : GoRequest) (name : String) : String :=
  ((r.header.find? fun field => toLowerCase field.1 = toLowerCase name).map Prod.snd).getD ""

/-- The id that the response names and the one that the access log names; `CORS` answers a
preflight request itself. -/
def GoRequest.serve (r : GoRequest) (uuid : String) : Option (String × String) :=
  if r.method = "OPTIONS" then none
  else
    let correlationID := r.headerGet "X-Correlation-ID"
    some (if correlationID = "" then uuid else correlationID,
      if correlationID = "" then "-" else correlationID)

end NestGateway.Gateway
