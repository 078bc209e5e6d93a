import NestGateway.Gateway.AuthProxy
import NestGateway.LogHistory.Breaker

/-! # The breaker of the auth server

The calls of `AuthProxyService` go through the breaker `auth-server`, for which
an error with a code and a message is no failure. The errors of the auth service
have both. What the validation of a body answers has no code: it counts.
-/

namespace NestGateway.Gateway

open GoJson Auth Runs LogHistory
open JsString (truthy)

/-- What is thrown carries the response, perhaps further down the chain of causes. -/
inductive Carries (response : Response) : Thrown → Prop where
  | here {error : AxiosError} {cause : Thrown} (has : error.response = some response) :
      Carries response (.axios error cause)
  | cause {error : AxiosError} {cause : Thrown} (has : error.response = none)
      (rest : Carries response cause) : Carries response (.axios error cause)

/-- What Axios throws for a response to a request to this URL. -/
structure Axios where
  reject : String → Response → Thrown
  carries : ∀ url response, Carries response (reject url response)

inductive AuthCall where
  | login (loginId password userType : String) (metaHeaders : SentHeaders)
  | verifyTwoFactor (twoFactorToken totpCode : String) (metaHeaders : SentHeaders)
  | refreshToken (token : String)
  | changePassword (currentPassword newPassword : String) (authHeaders : SentHeaders)

namespace AuthCall

def request : AuthCall → PostRequest
  | login loginId password userType metaHeaders =>
      AuthProxyService.login loginId password userType metaHeaders
  | verifyTwoFactor twoFactorToken totpCode metaHeaders =>
      AuthProxyService.verifyTwoFactor twoFactorToken totpCode metaHeaders
  | refreshToken token => AuthProxyService.refreshToken token
  | changePassword currentPassword newPassword authHeaders =>
      AuthProxyService.changePassword currentPassword newPassword authHeaders

def schema : AuthCall → Schema
  | login .. => LoginSchema
  | verifyTwoFactor .. => TotpVerifySchema
  | refreshToken .. => RefreshTokenSchema
  | changePassword .. => ChangePasswordSchema

/-- The body of the call keeps to its schema. -/
def WellFormed (call : AuthCall) : Prop := call.schema.Accepts call.request.data

end AuthCall

/-- `AuthProxyService.post`, behind the breaker. -/
def AuthProxyService.post (axios : Axios) (authBaseUrl : String) (request : PostRequest)
    (answer : Answer) : Except Thrown Json :=
  match answer with
  | .error response => .error (axios.reject (authBaseUrl ++ request.path) response)
  -- the `BadGatewayException`
  | .ok none => .error .other
  | .ok (some data) => .ok data

/-! ## The breaker -/

/-- `rollingCountBuckets`, the number of the parts of the window, by default. -/
def rollingCountBuckets : Nat := 10

/-- The call, as the window counts it. -/
def countFire (b : Breaker) (id : Nat) : Breaker :=
  { b with
    window := b.window.map fun bucket =>
      if bucket.id = id then { bucket with fired := bucket.fired + 1 } else bucket }

structure AuthBreaker where
  breaker : Breaker
  /-- The bucket of the window that counts what happens now. -/
  bucket : Nat
  /-- The calls that were let through and have not settled. -/
  pending : List AuthCall

def AuthBreaker.start : AuthBreaker where
  breaker := ⟨.closed, (List.range rollingCountBuckets).map fun id => ⟨id, 0, 0⟩⟩
  bucket := rollingCountBuckets - 1
  pending := []

inductive AuthEvent where
  | fired (call : AuthCall)
  /-- The auth server answers a call, with this outcome if the call gets past the pipe. -/
  | settled (i : Nat) (outcome : Outcome)
  /-- A new bucket begins, and the oldest leaves the window. -/
  | rotated
  | resetTimedOut

namespace AuthBreaker

section Steps

variable (p : JsonParser) (zod : Zod) (nest : BadRequestBody) (axios : Axios)
  (authBaseUrl : String)

/-- What the call throws or returns to the breaker. -/
def result (call : AuthCall) (outcome : Outcome) : Except Thrown Json :=
  AuthProxyService.post axios authBaseUrl call.request
    (AuthController.handle zod nest call.schema call.request.data outcome)

def fire (s : AuthBreaker) (call : AuthCall) : AuthBreaker where
  breaker := { countFire s.breaker s.bucket with state := s.breaker.state.admit.2 }
  bucket := s.bucket
  pending := if s.breaker.state.admit.1 then s.pending ++ [call] else s.pending

/-- A call that rejects is a failure if `errorFilter` does not hold of its error. -/
def settle (s : AuthBreaker) (call : AuthCall) (outcome : Outcome) : Breaker :=
  match result zod nest axios authBaseUrl call outcome with
  | .ok _ => s.breaker.succeed
  | .error error =>
      if CircuitBreakerService.isStructuredDownstreamError p error then s.breaker.succeed
      else s.breaker.fail s.bucket

def rotate (s : AuthBreaker) : AuthBreaker :=
  { s with
    breaker := { s.breaker with window := s.breaker.window.tail ++ [⟨s.bucket + 1, 0, 0⟩] }
    bucket := s.bucket + 1 }

def step (s : AuthBreaker) : AuthEvent → Option AuthBreaker
  | .fired call => some (s.fire call)
  | .settled i outcome =>
      match s.pending[i]? with
      | none => none
      | some call =>
          some
            { s with
              breaker := s.settle p zod nest axios authBaseUrl call outcome
              pending := s.pending.eraseIdx i }
  | .rotated => some s.rotate
  | .resetTimedOut =>
      match s.breaker.state with
      | .opened => some { s with breaker := { s.breaker with state := .halfOpen true } }
      | _ => none

end Steps

/-- One failure more, counted now, does not open the breaker. -/
def Bears (s : AuthBreaker) : Prop := ¬ (s.breaker.countFailure s.bucket).Overloaded

/-- If a call settles whose body does not keep to its schema, the window bears it. -/
def MalformedBorne (s : AuthBreaker) : AuthEvent → Prop
  | .settled i _ => ∀ call ∈ s.pending[i]?, ¬ call.WellFormed → s.Bears
  | _ => True

end AuthBreaker

/-! ## Which errors count -/

theorem Carries.found {response : Response} {error : Thrown} (h : Carries response error)
    (fallback : Option AxiosError) :
    ∃ found, CircuitBreakerService.findLoop error fallback = some found ∧
      found.response = some response := by
  induction h generalizing fallback with
  | @here error cause has =>
      refine ⟨error, ?_, has⟩
      rw [CircuitBreakerService.findLoop, if_pos (by rw [has]; rfl)]
  | @cause error cause has rest ih =>
      obtain ⟨found, hfound, hresponse⟩ := ih (some error)
      refine ⟨found, ?_, hresponse⟩
      rw [CircuitBreakerService.findLoop, if_neg (by rw [has]; decide), hfound]

/-- Whether an error is structured depends on the code and the message of the body alone. -/
theorem Carries.structured (p : JsonParser) {response : Response} {error : Thrown}
    (h : Carries response error) {record : List (String × Json)}
    (hdata : response.data = some (.obj record)) :
    CircuitBreakerService.isStructuredDownstreamError p error =
      ((truthy (codeField record)).isSome && (truthy (textField record "message")).isSome) := by
  obtain ⟨found, hfound, hresponse⟩ := h.found none
  rw [CircuitBreakerService.isStructuredDownstreamError,
    CircuitBreakerService.findAxiosErrorWithResponse, hfound]
  dsimp only
  rw [hresponse, Option.bind_some, hdata, CircuitBreakerService.parseErrorData]

theorem authError_texts (key : AuthErrorKey) :
    (key.error : AuthError String).code ≠ "" ∧ (key.error : AuthError String).message ≠ "" := by
  cases key <;> exact ⟨by decide, by decide⟩

theorem structured_authError (p : JsonParser) {error : Thrown} {key : AuthErrorKey}
    {passwordChangeToken : Option String} {timestamp : String}
    (h : Carries (AuthErrorFilter.catch
      { (key.error : AuthError String) with passwordChangeToken } timestamp) error) :
    CircuitBreakerService.isStructuredDownstreamError p error = true := by
  obtain ⟨hcode, hmessage⟩ := authError_texts key
  rw [h.structured p rfl]
  cases passwordChangeToken <;>
    simp [codeField, textField, truthy, List.lookup_cons, hcode, hmessage, Option.filter]

theorem not_structured_badRequest (p : JsonParser) (nest : BadRequestBody) {error : Thrown}
    {message : String} {status : Nat}
    (h : Carries { status, data := some (.obj (nest.fields message)) } error) :
    CircuitBreakerService.isStructuredDownstreamError p error = false := by
  rw [h.structured p rfl, codeField, textField, textField,
    nest.others message "errorCode" (by decide), nest.others message "code" (by decide)]
  rfl

namespace AuthBreaker

section Steps

variable (p : JsonParser) (zod : Zod) (nest : BadRequestBody) (axios : Axios)
  (authBaseUrl : String)

variable {call : AuthCall} (s : AuthBreaker) (outcome : Outcome)

theorem settle_wellFormed (h : call.WellFormed) :
    s.settle p zod nest axios authBaseUrl call outcome = s.breaker.succeed := by
  obtain ⟨data, hdata⟩ := transform_accepted zod h
  rw [settle, result, AuthController.handle.eq_def, hdata]
  cases outcome with
  | success data => rfl
  | refused key passwordChangeToken timestamp =>
      dsimp only
      rw [AuthProxyService.post]
      dsimp only
      rw [structured_authError p (axios.carries _ _), if_pos rfl]

theorem settle_malformed (h : ¬ call.WellFormed) :
    s.settle p zod nest axios authBaseUrl call outcome = s.breaker.fail s.bucket := by
  obtain ⟨message, hmessage⟩ := transform_rejected zod h
  rw [settle, result, AuthController.handle.eq_def, hmessage, AuthProxyService.post]
  dsimp only
  rw [not_structured_badRequest p nest (axios.carries _ _), if_neg Bool.false_ne_true]

end Steps

/-! ## Runs -/

theorem succeed_of_closed {b : Breaker} (h : b.state = .closed) : b.succeed = b := by
  rw [Breaker.succeed, h]

/-- A failure opens a closed breaker exactly if the window does not bear it. -/
theorem fail_of_closed {b : Breaker} {id : Nat} (h : b.state = .closed) :
    (b.fail id).state = if (b.countFailure id).Overloaded then .opened else .closed := by
  have hstate : (b.countFailure id).state = .closed := h
  rw [Breaker.fail, hstate]
  dsimp only
  split
  · rfl
  · exact hstate

section Runs

variable (p : JsonParser) (zod : Zod) (nest : BadRequestBody) (axios : Axios)
  (authBaseUrl : String)

theorem step_borne {s s' : AuthBreaker} {e : AuthEvent} (hclosed : s.breaker.state = .closed)
    (hborne : s.MalformedBorne e) (h : step p zod nest axios authBaseUrl s e = some s') :
    s'.breaker.state = .closed := by
  cases e with
  | fired call =>
      cases h
      change s.breaker.state.admit.2 = .closed
      rw [hclosed]
      rfl
  | settled i outcome =>
      rw [step] at h
      split at h
      next => cases h
      next call hcall =>
        cases h
        by_cases hform : call.WellFormed
        · dsimp only
          rw [settle_wellFormed p zod nest axios authBaseUrl s outcome hform,
            succeed_of_closed hclosed, hclosed]
        · dsimp only
          rw [settle_malformed p zod nest axios authBaseUrl s outcome hform,
            fail_of_closed hclosed, if_neg (hborne call hcall hform)]
  | rotated =>
      cases h
      exact hclosed
  | resetTimedOut =>
      rw [step, hclosed] at h
      cases h

/-- A step that settles a malformed call which is not borne opens the breaker. -/
theorem step_not_borne {s s' : AuthBreaker} {e : AuthEvent} (hclosed : s.breaker.state = .closed)
    (hborne : ¬ s.MalformedBorne e) (h : step p zod nest axios authBaseUrl s e = some s') :
    s'.breaker.state = .opened := by
  cases e with
  | settled i outcome =>
      rw [MalformedBorne] at hborne
      push Not at hborne
      obtain ⟨call, hcall, hform, hbears⟩ := hborne
      rw [step, hcall] at h
      cases h
      dsimp only
      rw [settle_malformed p zod nest axios authBaseUrl s outcome hform, fail_of_closed hclosed,
        if_pos (not_not.mp hbears)]
  | fired | rotated | resetTimedOut => exact absurd trivial hborne

/-- The breaker never opens exactly if the window bears each malformed call that is answered. -/
theorem never_opens_iff (events : List AuthEvent) :
    EachStep (step p zod nest axios authBaseUrl) (fun _ _ s' => s'.breaker.state ≠ .opened) start
        events ↔
      EachStep (step p zod nest axios authBaseUrl) (fun s e _ => s.MalformedBorne e) start
        events := by
  refine eachStep_iff (I := fun s => s.breaker.state = .closed) (fun s e s' hclosed hborne h => ?_)
    (fun s e s' hclosed hopen h => ?_) rfl
  · have hstays := step_borne p zod nest axios authBaseUrl hclosed hborne h
    exact ⟨hstays, by rw [hstays]; exact BreakerState.noConfusion⟩
  · by_contra hborne
    exact hopen (step_not_borne p zod nest axios authBaseUrl hclosed hborne h)

end Runs

def plainParser : JsonParser where
  parse _ := none
  shorter := by
    intro _ _ h
    cases h

def sampleZod : Zod where
  required := "Required"
  failed
    | .min _ => "String must contain at least 1 character(s)"
    | _ => "Invalid"

def sampleBody : BadRequestBody where
  fields message :=
    [("message", .str message), ("error", .str "Bad Request"), ("statusCode", .num "400")]
  others := by
    intro message key hkey
    simp only [List.mem_cons, List.not_mem_nil, or_false, not_or] at hkey
    simp [List.lookup_cons, beq_eq_false_iff_ne.mpr hkey.1, beq_eq_false_iff_ne.mpr hkey.2.1,
      beq_eq_false_iff_ne.mpr hkey.2.2]

def sampleAxios : Axios where
  reject url response :=
    .axios
      { response := some response, status := some response.status,
        code := some "ERR_BAD_REQUEST", url := some url } .other
  carries _ _ := .here rfl

def anonymousLogin : AuthCall := .login "" "password" "USER" .empty

def anonymousRound : List AuthEvent :=
  [.fired anonymousLogin, .settled 0 (.refused .invalidCredentials none "2026-03-02 09:00:00")]

theorem anonymous_logins_open :
    ¬ EachStep (step plainParser sampleZod sampleBody sampleAxios "http://auth:4001")
        (fun _ _ s' => s'.breaker.state ≠ .opened) start
        (anonymousRound ++ anonymousRound ++ anonymousRound ++ anonymousRound ++
          anonymousRound) := by
  decide +kernel

end AuthBreaker

end NestGateway.Gateway
