import NestGateway.Auth.Headers
import NestGateway.Gateway.DownstreamError

/-! # Calls of the auth server

The four operations the gateway passes on to the auth server, the checks the
server makes of their bodies, and its two ways of refusing one: the pipe that
validates a body, and the filter for the errors of the service.
-/

namespace NestGateway.Gateway

open GoJson Auth
open JsString (truthy)

abbrev SentHeaders := JsMap String String

/-- `if (value) headers[name] = value` -/
def setIfTruthy (headers : SentHeaders) (name : String) (value : Option String) : SentHeaders :=
  match truthy value with
  | none => headers
  | some text => headers.set name text

structure PostRequest where
  path : String
  data : List (String × String)
  headers : SentHeaders

namespace AuthProxyService

def login (loginId password userType : String) (metaHeaders : SentHeaders) : PostRequest :=
  ⟨"/auth/login", [("loginId", loginId), ("password", password)],
    metaHeaders.set "X-User-Type" userType⟩

def verifyTwoFactor (twoFactorToken totpCode : String) (metaHeaders : SentHeaders) : PostRequest :=
  ⟨"/auth/2fa/verify", [("totpCode", totpCode)], metaHeaders.set "X-2FA-Token" twoFactorToken⟩

def refreshToken (token : String) : PostRequest :=
  ⟨"/auth/refresh", [("refreshToken", token)], .empty⟩

def changePassword (currentPassword newPassword : String) (authHeaders : SentHeaders) :
    PostRequest :=
  ⟨"/auth/password", [("currentPassword", currentPassword), ("newPassword", newPassword)],
    authHeaders⟩

end AuthProxyService

namespace AuthProxyResolver

def headerValue (req : FastifyRequest) (name : String) : Option String :=
  (req.headers.get name).bind HeaderValue.first

def authMetaHeaders (urls : UrlParser) (req : FastifyRequest) : SentHeaders :=
  let forwardedFor := headerValue req "x-forwarded-for"
  let forwardedHost := headerValue req "x-forwarded-host"
  let forwardedProto := headerValue req "x-forwarded-proto"
  let realIp := headerValue req "x-real-ip"
  let accessChannel := AccessChannel.resolveAccessChannelOrigin urls req.headers
  let headers := setIfTruthy .empty "X-Forwarded-For" ((truthy forwardedFor).or (some req.ip))
  let headers := setIfTruthy headers "X-Forwarded-Host" forwardedHost
  let headers := setIfTruthy headers "X-Forwarded-Proto" forwardedProto
  let headers := setIfTruthy headers "X-Real-IP" realIp
  setIfTruthy headers "X-Access-Channel" accessChannel

def authPasswordHeaders (req : FastifyRequest) : SentHeaders :=
  setIfTruthy (setIfTruthy .empty "Authorization" (headerValue req "authorization"))
    "X-Password-Change-Token" (headerValue req "x-password-change-token")

def login (urls : UrlParser) (loginId password : String) (req : FastifyRequest) : PostRequest :=
  AuthProxyService.login loginId password ((headerValue req "x-user-type").getD "")
    (authMetaHeaders urls req)

def verifyTwoFactor (urls : UrlParser) (totpCode : String) (req : FastifyRequest) : PostRequest :=
  AuthProxyService.verifyTwoFactor ((headerValue req "x-2fa-token").getD "") totpCode
    (authMetaHeaders urls req)

def changePassword (currentPassword newPassword : String) (req : FastifyRequest) : PostRequest :=
  AuthProxyService.changePassword currentPassword newPassword (authPasswordHeaders req)

end AuthProxyResolver

/-- The checks of `z.string()` that the schemas make. -/
inductive StringCheck where
  | min (n : Nat)
  | max (n : Nat)
  | length (n : Nat)
  | regex (test : String → Bool) (message : Option String := none)

def StringCheck.passes (value : String) : StringCheck → Bool
  | min n => n ≤ JsString.length value
  | max n => JsString.length value ≤ n
  | length n => JsString.length value = n
  | regex test _ => test value

/-- The fields of `z.object`, each a `z.string()`. -/
abbrev Schema := List (String × List StringCheck)

/-- `/^\d+$/` -/
def digitsOnly (value : String) : Bool := value ≠ "" && value.toList.all Text.isDigit

def isLineTerminator (c : Char) : Bool := c ∈ ['\n', '\r', Char.ofNat 0x2028, Char.ofNat 0x2029]

/-- `(?=.*[…])` at the start of a text. -/
def ahead (p : Char → Bool) (value : String) : Bool :=
  let line := value.toList.takeWhile (!isLineTerminator ·)
  (value.toList.take (line.length + 1)).any p

/-- `[A-Za-z]` -/
def isLetter (c : Char) : Bool := c.isAlpha

/-- `[\W_]` -/
def isSpecial (c : Char) : Bool := !c.isAlphanum

/-- `PASSWORD_POLICY_REGEX.test`. The class that makes up the text has every character. -/
def PASSWORD_POLICY_REGEX (value : String) : Bool :=
  let letter := ahead isLetter value
  let digit := ahead Text.isDigit value
  let special := ahead isSpecial value
  (letter && digit && special && 8 ≤ JsString.length value) ||
    ((letter && digit || digit && special || special && letter) && 10 ≤ JsString.length value)

def LoginSchema : Schema :=
  [("loginId", [.min 1, .max 255]), ("password", [.min 1, .max 255])]

def TotpVerifySchema : Schema := [("totpCode", [.length 6, .regex digitsOnly])]

def RefreshTokenSchema : Schema := [("refreshToken", [.min 1])]

def ChangePasswordSchema : Schema :=
  [("currentPassword", [.min 1]),
    ("newPassword", [.min 8, .max 255,
      .regex PASSWORD_POLICY_REGEX (some "올바른 패스워드 형식이 아닙니다.")])]

structure Issue where
  path : List String
  message : String

/-- The texts that Zod has for a field that is missing and for a check that fails. -/
structure Zod where
  required : String
  failed : StringCheck → String

def Zod.message (zod : Zod) : StringCheck → String
  | .regex _ (some message) => message
  | check => zod.failed check

/-- The issues of `schema.safeParse(value)`. -/
def Zod.issues (zod : Zod) (schema : Schema) (value : List (String × String)) : List Issue :=
  schema.flatMap fun field =>
    match value.lookup field.1 with
    | none => [⟨[field.1], zod.required⟩]
    | some text =>
        (field.2.filter fun check => !check.passes text).map fun check =>
          ⟨[field.1], zod.message check⟩

def Schema.Accepts (schema : Schema) (value : List (String × String)) : Prop :=
  ∀ field ∈ schema, ∃ text, value.lookup field.1 = some text ∧
    ∀ check ∈ field.2, check.passes text = true

/-- `ZodValidationPipe.transform`; the error is the text of the `BadRequestException`. -/
def ZodValidationPipe.transform (zod : Zod) (schema : Schema) (value : List (String × String)) :
    Except String (List (String × String)) :=
  match zod.issues schema value with
  | [] => .ok (schema.filterMap fun field => (value.lookup field.1).map (field.1, ·))
  | errors =>
      .error (", ".intercalate (errors.map fun e => ".".intercalate e.path ++ ": " ++ e.message))

/-- The body Nest answers a `BadRequestException` with: no more than the text of the exception
and what its status is. -/
structure BadRequestBody where
  fields : String → List (String × Json)
  others : ∀ message key, key ∉ ["message", "error", "statusCode"] →
    (fields message).lookup key = none

def AuthErrorFilter.catch (exception : AuthError String) (timestamp : String) : Response where
  status := exception.status
  data := some (.obj ([("code", .str exception.code), ("message", .str exception.message)] ++
    exception.passwordChangeToken.toList.map (fun token => ("passwordChangeToken", .str token)) ++
    [("timestamp", .str timestamp)]))

inductive Outcome where
  | success (data : Json)
  | refused (key : AuthErrorKey) (passwordChangeToken : Option String) (timestamp : String)

/-- `res.data`, or the response that Axios rejects. -/
abbrev Answer := Except Response (Option Json)

section Server

variable (zod : Zod) (nest : BadRequestBody)

/-- A route of `AuthController`: the pipe, then the service, whose errors the filter answers. -/
def AuthController.handle (schema : Schema) (data : List (String × String)) (outcome : Outcome) :
    Answer :=
  match ZodValidationPipe.transform zod schema data with
  | .error message => .error { status := 400, data := some (.obj (nest.fields message)) }
  | .ok _ =>
      match outcome with
      | .success data => .ok (some data)
      | .refused key passwordChangeToken timestamp =>
          .error (AuthErrorFilter.catch { (key.error : AuthError String) with passwordChangeToken }
            timestamp)

theorem issues_eq_nil {schema : Schema} {value : List (String × String)} :
    zod.issues schema value = [] ↔ schema.Accepts value := by
  rw [Zod.issues, List.flatMap_eq_nil_iff, Schema.Accepts]
  refine forall₂_congr fun field _ => ?_
  cases value.lookup field.1 with
  | none => simp
  | some text => simp [List.filter_eq_nil_iff]

theorem transform_accepted {schema : Schema} {value : List (String × String)}
    (h : schema.Accepts value) :
    ∃ data, ZodValidationPipe.transform zod schema value = .ok data := by
  rw [ZodValidationPipe.transform, (issues_eq_nil zod).mpr h]
  exact ⟨_, rfl⟩

theorem transform_rejected {schema : Schema} {value : List (String × String)}
    (h : ¬ schema.Accepts value) :
    ∃ message, ZodValidationPipe.transform zod schema value = .error message := by
  rw [← issues_eq_nil zod] at h
  rw [ZodValidationPipe.transform]
  split
  next hnil => exact absurd hnil h
  next => exact ⟨_, rfl⟩

end Server

end NestGateway.Gateway
