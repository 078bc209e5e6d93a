import NestGateway.Auth.Service
import NestGateway.Core.Runs

/-! # Runs of the auth service

A run is a sequence of requests to the four operations, with the clock moving
and an administrator writing statuses between them. The run keeps every call: the
request, what it found and how it was answered.
-/

namespace NestGateway.Auth

inductive Request (Token : Type) where
  | login (loginId password userType : String) (m : LoginRequestMeta)
  | verifyTwoFactor (twoFactorToken : Token) (totpCode : String) (m : LoginRequestMeta)
  | refreshTokens (refreshToken : Token)
  | changePassword (credential : ChangePasswordCredential Token)
      (currentPassword newPassword : String)

inductive Response (Token : Type) where
  | login (response : AuthResponse Token)
  | tokens (tokens : AuthTokens Token)
  | success (changed : Bool)
  deriving Repr, DecidableEq

variable {Token : Type}

def AuthResponse.issued : AuthResponse Token → Option (AuthTokens Token)
  | .requiresTwoFactor .. => none
  | .authenticated tokens => some tokens

def issuedTokens : Except (AuthError Token) (Response Token) → Option (AuthTokens Token)
  | .ok (.login response) => response.issued
  | .ok (.tokens tokens) => some tokens
  | .ok (.success _) => none
  | .error _ => none

namespace Request

def program : Request Token → Service Token (Response Token)
  | .login loginId password userType m => do
      let response ← Auth.login loginId password userType m
      return .login response
  | .verifyTwoFactor twoFactorToken totpCode m => do
      let tokens ← Auth.verifyTwoFactor twoFactorToken totpCode m
      return .tokens tokens
  | .refreshTokens refreshToken => do
      let tokens ← Auth.refreshTokens refreshToken
      return .tokens tokens
  | .changePassword credential currentPassword newPassword => do
      let changed ← Auth.changePassword credential currentPassword newPassword
      return .success changed

def presented : Request Token → List Token
  | .login .. => []
  | .verifyTwoFactor twoFactorToken .. => [twoFactorToken]
  | .refreshTokens refreshToken => [refreshToken]
  | .changePassword credential .. =>
      credential.accessToken.toList ++ credential.passwordChangeToken.toList

end Request

structure Call (Token : Type) where
  request : Request Token
  now : Nat
  before : AccountTable
  result : Except (AuthError Token) (Response Token)

structure World (Token : Type) where
  server : Server
  calls : List (Call Token)

/-- A server that signed nothing and was not called. -/
def World.start (accounts : AccountTable) (now : Nat) : World Token :=
  ⟨⟨accounts, [], now, 0, []⟩, []⟩

inductive Event (Token : Type) where
  | requested (request : Request Token)
  | statusWritten (id : Nat) (status : Option String)
  | clockMoved (now : Nat)

variable (env : Env Token)

def World.call (w : World Token) (request : Request Token) : Call Token :=
  ⟨request, w.server.now, w.server.accounts, (request.program.exec (answer env) w.server).1⟩

def World.serve (w : World Token) (request : Request Token) : World Token :=
  ⟨(request.program.exec (answer env) w.server).2, w.calls ++ [w.call env request]⟩

def World.step (w : World Token) : Event Token → Option (World Token)
  | .requested request => some (w.serve env request)
  | .statusWritten id status =>
      some { w with server := w.server.updateAccount id fun a => { a with status := status } }
  | .clockMoved now => some { w with server := { w.server with now := now } }

/-- The call returned tokens for the account, as the call found it. -/
def Call.TokensFor (call : Call Token) (a : Account) : Prop :=
  call.before.findById (some a.id) = some a ∧
    ∃ tokens claims, issuedTokens call.result = some tokens ∧
      env.jwtVerify call.now tokens.accessToken = some claims ∧ claims.sub = Nat.repr a.id

/-- Packages on plain values: a token is its claims, a hash is the password, a code the secret, and
types compare without case. -/
def Env.plain : Env SignedClaims where
  production := true
  sameUserType s t := s.toList.map Char.toLower == t.toList.map Char.toLower
  sign claims := claims
  jwtVerify now claims :=
    if now / 1000 < claims.exp ∧ claims.iss = JWT_ISSUER then some claims else none
  compare plain hash := plain == hash
  hashSync _ plain := plain
  randomUUID n := Nat.repr n
  generateSecret n := Nat.repr n
  keyuri accountName issuer secret := issuer ++ accountName ++ secret
  totpVerify _ code secret := code == secret
  jwtVerify_sign _ _ := rfl
  randomUUID_nonblank n := by
    rw [JsString.trim_repr]
    exact JsString.repr_ne_empty n

def Account.LockedOut (a : Account) : Prop :=
  a.status = some AccountStatus.locked.value ∨ MAX_FAIL_COUNT ≤ a.failCount.getD 0

def Account.PasswordExpired (a : Account) (now : Nat) : Prop :=
  ∃ lastChanged, a.lastPasswordChangedAt = some lastChanged ∧
    PASSWORD_EXPIRY_DAYS ≤ daysSince now lastChanged

/-- The claims that may not be blank are not. -/
def Account.Complete (a : Account) : Prop :=
  JsString.trim a.loginId ≠ "" ∧ (∃ name, a.name = some name ∧ JsString.trim name ≠ "") ∧
    JsString.trim a.userType ≠ ""

def Env.passwordMatches (plain : String) (stored : Option String) : Bool :=
  match stored with
  | none => false
  | some stored => if stored = "" then false else env.compare plain (bcryptHash stored)

/-- Outside production every code is accepted. -/
def Env.acceptsCode (now : Nat) (code secret : String) : Bool :=
  !env.production || env.totpVerify now code secret

def Env.CodeMatches (now : Nat) (a : Account) (code : String) : Prop :=
  ∃ secret, a.otpSecretKey = some secret ∧ secret ≠ "" ∧ env.acceptsCode now code secret = true

/-- The request passes every check of its operation with the account it reads. -/
def Request.Passes (s : Server) : Request Token → Account → Prop
  | .login loginId password userType _, a =>
      s.accounts.findByLoginIdAndUserType env.sameUserType loginId userType = some a ∧
        ¬ a.LockedOut ∧ statusError a.status = none ∧
        env.passwordMatches password a.password = true ∧ ¬ a.PasswordExpired s.now ∧
        userType ∉ twoFactorRequiredTypes ∧ a.Complete
  | .verifyTwoFactor twoFactorToken totpCode _, a =>
      ∃ claims, env.jwtVerify s.now twoFactorToken = some claims ∧ claims.type = some "2fa" ∧
        s.accounts.findById (JsString.number claims.sub) = some a ∧
        env.CodeMatches s.now a totpCode ∧ a.Complete
  | .refreshTokens refreshToken, a =>
      ∃ claims, env.jwtVerify s.now refreshToken = some claims ∧
        s.accounts.findById (JsString.number claims.sub) = some a ∧ a.Complete
  | .changePassword .., _ => False

end NestGateway.Auth
