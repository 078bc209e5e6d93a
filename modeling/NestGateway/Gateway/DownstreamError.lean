import NestGateway.Core.GoJson
import NestGateway.Core.JsString

/-! # Errors of downstream services

What the circuit breaker and the exception filter of the gateway make of an error
that Axios throws. Each looks for the first response along the chain of causes
and decodes its body, which may be a JSON text of a JSON text.
-/

namespace NestGateway.Gateway

open GoJson
open JsString (truthy isSome_truthy)

/-- `AxiosError.response`; a body that is undefined is none. -/
structure Response where
  status : Nat
  data : Option Json
  /-- `response.config?.url` -/
  url : Option String := none

/-- An `AxiosError` without its cause. -/
structure AxiosError where
  response : Option Response
  status : Option Nat := none
  code : Option String := none
  /-- `config?.url` -/
  url : Option String := none

/-- What is thrown: an `AxiosError` with its cause, or anything else. -/
inductive Thrown where
  | axios (error : AxiosError) (cause : Thrown)
  | other

/-- `JSON.parse`, none when it throws. A string literal is longer than the string it denotes. -/
structure JsonParser where
  parse : String → Option Json
  shorter : ∀ text s, parse text = some (.str s) → s.length < text.length

/-- The field of an object if it is a string. An array has none of the fields that are read. -/
def textField (record : List (String × Json)) (key : String) : Option String :=
  match record.lookup key with
  | some (.str s) => some s
  | _ => none

/-- `typeof record.errorCode === 'string' ? … : typeof record.code === 'string' ? … : undefined` -/
def codeField (record : List (String × Json)) : Option String :=
  (textField record "errorCode").or (textField record "code")

/-- How far a body can still be decoded. -/
def decodable : Option Json → Nat
  | some (.str s) => s.length + 1
  | _ => 0

theorem decodable_parse (p : JsonParser) {s : String} {v : Json} (h : p.parse s = some v) :
    decodable (some v) < decodable (some (.str s)) := by
  cases v with
  | str t => exact Nat.succ_lt_succ (p.shorter s t h)
  | _ => exact Nat.succ_pos _

namespace CircuitBreakerService

/-- The loop of `findAxiosErrorWithResponse`. -/
def findLoop : Thrown → Option AxiosError → Option AxiosError
  | .other, fallback => fallback
  | .axios current cause, _ =>
      if current.response.isSome then some current else findLoop cause (some current)

def findAxiosErrorWithResponse (error : Thrown) : Option AxiosError := findLoop error none

structure ErrorData where
  code : Option String := none
  message : Option String := none

def parseErrorData (p : JsonParser) (data : Option Json) : ErrorData :=
  match data with
  | some (.str s) =>
      match _h : p.parse s with
      | some v => parseErrorData p (some v)
      | none => {}
  | some (.obj record) => { code := codeField record, message := textField record "message" }
  | _ => {}
termination_by decodable data
decreasing_by exact decodable_parse p _h

def isStructuredDownstreamError (p : JsonParser) (error : Thrown) : Bool :=
  match findAxiosErrorWithResponse error with
  | none => false
  | some axiosError =>
      let data := parseErrorData p (axiosError.response.bind Response.data)
      (truthy data.code).isSome && (truthy data.message).isSome

end CircuitBreakerService

/-! ## `HttpExceptionFilter` -/

structure ParsedDownstreamError where
  message : Option String := none
  errorCode : Option String := none
  rawMessage : Option String := none
  timestamp : Option String := none
  passwordChangeToken : Option String := none

def parseDownstreamErrorData (p : JsonParser) (data : Option Json) : ParsedDownstreamError :=
  match data with
  | some (.str s) =>
      match _h : p.parse s with
      | some v => parseDownstreamErrorData p (some v)
      | none => { rawMessage := some s }
  | some (.obj record) =>
      { message := textField record "message"
        errorCode := codeField record
        timestamp := textField record "timestamp"
        passwordChangeToken := textField record "passwordChangeToken" }
  | _ => {}
termination_by decodable data
decreasing_by exact decodable_parse p _h

def inferDownstreamService (url : String) : Option String :=
  if Text.contains url "/auth/" then some "auth"
  else if Text.contains url "/api/logs" ∨ Text.contains url "/api/containers" ∨
      Text.contains url "/api/stats" then some "log-streamer"
  else none

def findAxiosErrorFrom : Thrown → AxiosError → AxiosError
  | .other, fallback => fallback
  | .axios current cause, _ =>
      if current.response.isSome then current else findAxiosErrorFrom cause current

def findAxiosErrorWithResponse (error : AxiosError) (cause : Thrown) : AxiosError :=
  findAxiosErrorFrom (.axios error cause) error

def HTTP_STATUS_TO_ERROR_CODE : Nat → Option String
  | 400 => some "BAD_REQUEST"
  | 401 => some "UNAUTHENTICATED"
  | 403 => some "FORBIDDEN"
  | 404 => some "NOT_FOUND"
  | 408 => some "GATEWAY_TIMEOUT"
  | 429 => some "TOO_MANY_REQUESTS"
  | 502 => some "BAD_GATEWAY"
  | 503 => some "BAD_GATEWAY"
  | 504 => some "GATEWAY_TIMEOUT"
  | _ => none

/-- The extensions of a `GraphQLError`, none where there is no such key. -/
structure Extensions where
  code : String
  statusCode : Nat
  errorCode : Option String := none
  timestamp : Option String := none
  passwordChangeToken : Option String := none
  downstreamService : Option String := none

structure GraphQLError where
  message : String
  extensions : Extensions

section Filter

variable (p : JsonParser) (exception : AxiosError) (cause : Thrown)

def responseError : AxiosError := findAxiosErrorWithResponse exception cause

/-- `status`, none when it is falsy. -/
def errorStatus : Option Nat :=
  let error := responseError exception cause
  ((error.response.map Response.status).or error.status).filter (· ≠ 0)

def errorCode : Option String := exception.code.or (responseError exception cause).code

def errorUrl : String :=
  let error := responseError exception cause
  (((error.response.bind Response.url).or error.url).or exception.url).getD "unknown"

def timedOut : Prop :=
  errorCode exception cause = some "ECONNABORTED" ∨ errorCode exception cause = some "ETIMEDOUT"

instance instDecidableTimedOut : Decidable (timedOut exception cause) :=
  inferInstanceAs (Decidable (_ ∨ _))

def toAxiosGraphQLError : GraphQLError :=
  let downstreamService := inferDownstreamService (errorUrl exception cause)
  if timedOut exception cause then
    { message :=
        if downstreamService = some "auth" then "인증 서버 응답이 지연되고 있습니다."
        else "Backend service timeout"
      extensions := { code := "GATEWAY_TIMEOUT", statusCode := 504, downstreamService } }
  else
    match errorStatus exception cause with
    | none =>
        { message :=
            if downstreamService = some "auth" then "인증 서버에 연결할 수 없습니다."
            else "Backend service unavailable"
          extensions := { code := "BAD_GATEWAY", statusCode := 502, downstreamService } }
    | some status =>
        let data := parseDownstreamErrorData p
          ((responseError exception cause).response.bind Response.data)
        { message := (data.message.or data.rawMessage).getD
            ("Backend service error (" ++ Nat.repr status ++ ")")
          extensions :=
            { code := (HTTP_STATUS_TO_ERROR_CODE status).getD "BAD_GATEWAY"
              statusCode := status
              errorCode := truthy data.errorCode
              timestamp := truthy data.timestamp
              passwordChangeToken := truthy data.passwordChangeToken
              downstreamService } }

end Filter

/-! ## Bodies -/

/-- What is left of a body once no text in it can be decoded further. -/
inductive Unwraps (p : JsonParser) : Json → Json → Prop where
  | text {s : String} {v w : Json} (parsed : p.parse s = some v) (rest : Unwraps p v w) :
      Unwraps p (.str s) w
  | plain {s : String} (failed : p.parse s = none) : Unwraps p (.str s) (.str s)
  | value {v : Json} (other : ∀ s, v ≠ .str s) : Unwraps p v v

/-- The body is, decoded, an object with this message. -/
def MessageIn (p : JsonParser) (body : Option Json) (message : String) : Prop :=
  ∃ v record, body = some v ∧ Unwraps p v (.obj record) ∧
    record.lookup "message" = some (.str message)

section Bodies

variable (p : JsonParser)

/-- The decoding of a body ends. -/
theorem exists_unwraps (v : Json) : ∃ w, Unwraps p v w := by
  induction hn : decodable (some v) using Nat.strong_induction_on generalizing v with
  | _ n ih =>
      by_cases hstr : ∃ s, v = .str s
      · obtain ⟨s, rfl⟩ := hstr
        cases hparse : p.parse s with
        | none => exact ⟨.str s, .plain hparse⟩
        | some w =>
            obtain ⟨u, hu⟩ := ih _ (hn ▸ decodable_parse p hparse) w rfl
            exact ⟨u, .text hparse hu⟩
      · exact ⟨v, .value fun s hs => hstr ⟨s, hs⟩⟩

theorem textField_eq_some {record : List (String × Json)} {key text : String} :
    textField record key = some text ↔ record.lookup key = some (.str text) := by
  rw [textField]
  split
  next s hs => rw [hs, Option.some.injEq, Option.some.injEq, Json.str.injEq]
  next hother =>
    refine iff_of_false nofun fun h => ?_
    exact hother text h

section Texts

variable {p} {s : String}

theorem parseErrorData_text {v : Json} (h : p.parse s = some v) :
    CircuitBreakerService.parseErrorData p (some (.str s)) =
      CircuitBreakerService.parseErrorData p (some v) := by
  rw [CircuitBreakerService.parseErrorData.eq_def]
  split
  next t hs =>
    cases hs
    split
    next w hw => rw [Option.some.inj (h.symm.trans hw)]
    next hw => exact absurd (h.symm.trans hw) nofun
  next _ hs => cases hs
  next hother _ => exact absurd rfl (hother s)

theorem parseDownstreamErrorData_text {v : Json} (h : p.parse s = some v) :
    parseDownstreamErrorData p (some (.str s)) = parseDownstreamErrorData p (some v) := by
  rw [parseDownstreamErrorData.eq_def]
  split
  next t hs =>
    cases hs
    split
    next w hw => rw [Option.some.inj (h.symm.trans hw)]
    next hw => exact absurd (h.symm.trans hw) nofun
  next _ hs => cases hs
  next hother _ => exact absurd rfl (hother s)

theorem parseErrorData_plain (h : p.parse s = none) :
    CircuitBreakerService.parseErrorData p (some (.str s)) = {} := by
  rw [CircuitBreakerService.parseErrorData.eq_def]
  split
  next t hs =>
    cases hs
    split
    next w hw => exact absurd (h.symm.trans hw) nofun
    next => rfl
  next _ hs => cases hs
  next hother _ => exact absurd rfl (hother s)

theorem parseDownstreamErrorData_plain (h : p.parse s = none) :
    parseDownstreamErrorData p (some (.str s)) = { rawMessage := some s } := by
  rw [parseDownstreamErrorData.eq_def]
  split
  next t hs =>
    cases hs
    split
    next w hw => exact absurd (h.symm.trans hw) nofun
    next => rfl
  next _ hs => cases hs
  next hother _ => exact absurd rfl (hother s)

end Texts

/-- Both parsers find the same code and the same message. -/
theorem parseErrorData_eq (data : Option Json) :
    (CircuitBreakerService.parseErrorData p data).code =
        (parseDownstreamErrorData p data).errorCode ∧
      (CircuitBreakerService.parseErrorData p data).message =
        (parseDownstreamErrorData p data).message := by
  induction hn : decodable data using Nat.strong_induction_on generalizing data with
  | _ n ih =>
      match data with
      | none => simp [CircuitBreakerService.parseErrorData, parseDownstreamErrorData]
      | some (.str s) =>
          cases hparse : p.parse s with
          | none =>
              rw [parseErrorData_plain hparse, parseDownstreamErrorData_plain hparse]
              exact ⟨rfl, rfl⟩
          | some v =>
              rw [parseErrorData_text hparse, parseDownstreamErrorData_text hparse]
              exact ih _ (hn ▸ decodable_parse p hparse) (some v) rfl
      | some (.obj record) =>
          simp [CircuitBreakerService.parseErrorData, parseDownstreamErrorData]
      | some .null | some (.bool _) | some (.num _) | some (.arr _) =>
          simp [CircuitBreakerService.parseErrorData, parseDownstreamErrorData]

theorem message_eq_some {body : Option Json} {message : String} :
    (parseDownstreamErrorData p body).message = some message ↔ MessageIn p body message := by
  constructor
  · intro h
    induction hn : decodable body using Nat.strong_induction_on generalizing body with
    | _ n ih =>
        match body, h with
        | some (.str s), h =>
            cases hparse : p.parse s with
            | none =>
                rw [parseDownstreamErrorData_plain hparse] at h
                cases h
            | some v =>
                rw [parseDownstreamErrorData_text hparse] at h
                obtain ⟨w, record, hw, hunwraps, hlookup⟩ :=
                  ih _ (hn ▸ decodable_parse p hparse) h rfl
                obtain rfl := Option.some.inj hw
                exact ⟨.str s, record, rfl, .text hparse hunwraps, hlookup⟩
        | some (.obj record), h =>
            rw [parseDownstreamErrorData] at h
            exact ⟨.obj record, record, rfl, .value nofun, textField_eq_some.mp h⟩
        | none, h | some .null, h | some (.bool _), h | some (.num _), h | some (.arr _), h =>
            simp [parseDownstreamErrorData] at h
  · rintro ⟨v, record, rfl, hunwraps, hlookup⟩
    generalize hw : Json.obj record = w at hunwraps
    induction hunwraps with
    | text hparse _ ih =>
        rw [parseDownstreamErrorData_text hparse]
        exact ih hw
    | plain => cases hw
    | value =>
        rw [← hw, parseDownstreamErrorData]
        exact textField_eq_some.mpr hlookup

end Bodies

/-- Both searches along the chain end at the same error. -/
theorem findLoop_eq (error : Thrown) (fallback : AxiosError) :
    CircuitBreakerService.findLoop error (some fallback) =
      some (findAxiosErrorFrom error fallback) := by
  induction error generalizing fallback with
  | other => rfl
  | axios current cause ih =>
      rw [CircuitBreakerService.findLoop, findAxiosErrorFrom]
      split
      · rfl
      · exact ih current

theorem findAxiosErrorWithResponse_eq (exception : AxiosError) (cause : Thrown) :
    CircuitBreakerService.findAxiosErrorWithResponse (.axios exception cause) =
      some (responseError exception cause) := by
  rw [CircuitBreakerService.findAxiosErrorWithResponse, responseError, findAxiosErrorWithResponse,
    ← findLoop_eq]
  rfl

def downstreamBody (exception : AxiosError) (cause : Thrown) : Option Json :=
  (responseError exception cause).response.bind Response.data

section Structured

variable (p : JsonParser) {exception : AxiosError} {cause : Thrown}
  (hcode : ¬ timedOut exception cause) {status : Nat}
  (hstatus : errorStatus exception cause = some status)
include hcode hstatus

/-- The breaker takes an error for structured exactly if the filter passes on a code of the
service and a message that is in the body, and both decode the body to its end. -/
theorem isStructuredDownstreamError_iff :
    (CircuitBreakerService.isStructuredDownstreamError p (.axios exception cause) = true ↔
        (toAxiosGraphQLError p exception cause).extensions.errorCode.isSome = true ∧
          (toAxiosGraphQLError p exception cause).message ≠ "" ∧
          MessageIn p (downstreamBody exception cause)
            (toAxiosGraphQLError p exception cause).message) ∧
      ∀ body, ∃ decoded, Unwraps p body decoded := by
  refine ⟨?_, exists_unwraps p⟩
  obtain ⟨hcodes, hmessages⟩ := parseErrorData_eq p (downstreamBody exception cause)
  rw [CircuitBreakerService.isStructuredDownstreamError, findAxiosErrorWithResponse_eq,
    toAxiosGraphQLError, if_neg hcode, hstatus]
  dsimp only
  rw [← downstreamBody, hcodes, hmessages, Bool.and_eq_true]
  refine and_congr_right fun _ => ?_
  rw [isSome_truthy]
  constructor
  · rintro ⟨text, htext, hne⟩
    rw [htext, Option.some_or, Option.getD_some]
    exact ⟨hne, (message_eq_some p).mp htext⟩
  · rintro ⟨hne, hin⟩
    exact ⟨_, (message_eq_some p).mpr hin, hne⟩

end Structured

def innerText : String := "\x7b\"code\":\"11010\",\"message\":\"no\"\x7d"

def outerText : String := "\"\x7b\\\"code\\\":\\\"11010\\\",\\\"message\\\":\\\"no\\\"\x7d\""

def sampleParser : JsonParser where
  parse text :=
    if text = outerText then some (.str innerText)
    else if text = innerText then some (.obj [("code", .str "11010"), ("message", .str "no")])
    else none
  shorter := by
    intro text s h
    split at h
    next hout =>
      cases h
      rw [hout]
      decide
    next =>
      split at h
      next => cases h
      next => cases h

def sampleCause : Thrown := .axios { response := some ⟨401, some (.str outerText), none⟩ } .other

def sampleError : AxiosError where
  response := none
  code := some "ERR_BAD_REQUEST"

theorem isStructuredDownstreamError_iff_sample :
    CircuitBreakerService.isStructuredDownstreamError sampleParser
        (.axios sampleError sampleCause) = true ↔
      (toAxiosGraphQLError sampleParser sampleError sampleCause).extensions.errorCode.isSome =
          true ∧
        (toAxiosGraphQLError sampleParser sampleError sampleCause).message ≠ "" ∧
        MessageIn sampleParser (downstreamBody sampleError sampleCause)
          (toAxiosGraphQLError sampleParser sampleError sampleCause).message :=
  (@isStructuredDownstreamError_iff sampleParser sampleError sampleCause (by decide) 401 rfl).1

end NestGateway.Gateway
