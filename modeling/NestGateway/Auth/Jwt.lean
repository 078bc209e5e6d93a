import NestGateway.Auth.Effects

/-! # The token and TOTP services

The four kinds of tokens carry one issuer and one key and differ in their claims
and their lifetime. A rejected promise of a verification is `none`.
-/

namespace NestGateway.Auth

/-- An exception of the auth service: the entry of `AUTH_ERROR` and the extensions. -/
structure AuthError (Token : Type) where
  code : String
  message : String
  status : Nat
  passwordChangeToken : Option Token := none
  deriving Repr, DecidableEq

/-- Programs of the auth service. -/
abbrev Service (Token α : Type) : Type := Prog (Effect Token) Effect.Reply (AuthError Token) α

abbrev ask {Token : Type} (e : Effect Token) : Service Token e.Reply := Prog.call e

structure AccessTokenPayload where
  sub : String
  loginId : String
  name : String
  userType : String
  customerNo : String
  roleType : Option String
  deriving Repr, DecidableEq

variable {Token : Type}

/-- `{ ...payload, jti }`. -/
def AccessTokenPayload.withJti (payload : AccessTokenPayload) (jti : String) : Payload where
  sub := payload.sub
  userType := payload.userType
  loginId := some payload.loginId
  name := some payload.name
  customerNo := some payload.customerNo
  roleType := payload.roleType
  jti := some jti

def signAccessToken (payload : AccessTokenPayload) : Service Token (Token × String) := do
  let jti ← ask .randomUUID
  let token ← ask (.sign (payload.withJti jti) ACCESS_TOKEN_EXPIRY_SECONDS)
  return (token, jti)

def signRefreshToken (sub userType : String) : Service Token (Token × String) := do
  let jti ← ask .randomUUID
  let token ← ask (.sign { sub, userType, jti := some jti } REFRESH_TOKEN_EXPIRY_SECONDS)
  return (token, jti)

def signTwoFactorToken (sub userType : String) : Service Token Token :=
  ask (.sign { sub, userType, type := some "2fa" } TWO_FACTOR_TOKEN_EXPIRY_SECONDS)

def signPasswordChangeToken (sub userType : String) : Service Token Token :=
  ask (.sign { sub, userType, type := some "password_change" } TWO_FACTOR_TOKEN_EXPIRY_SECONDS)

def verifyToken (token : Token) : Service Token (Option SignedClaims) :=
  ask (.jwtVerify token)

/-- The verified claims, if they are of the given type. -/
def verifyTokenOfType (type : String) (token : Token) : Service Token (Option SignedClaims) := do
  let claims ← verifyToken token
  return claims.filter (·.type = some type)

def verifyTwoFactorToken (token : Token) : Service Token (Option SignedClaims) :=
  verifyTokenOfType "2fa" token

def verifyPasswordChangeToken (token : Token) : Service Token (Option SignedClaims) :=
  verifyTokenOfType "password_change" token

def generateSecret : Service Token String := ask .generateSecret

def generateKeyUri (username secret : String) : Service Token String :=
  ask (.keyuri username "MX_ADMIN" secret)

def verifyTotp (code secret : String) : Service Token Bool := ask (.totpVerify code secret)

end NestGateway.Auth
