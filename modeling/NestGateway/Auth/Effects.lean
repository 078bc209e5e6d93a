import NestGateway.Auth.Accounts
import NestGateway.Core.JsString
import NestGateway.Core.Prog

/-! # The surroundings of the auth service

What `AuthService` asks of the database, of the clock and of the packages jose,
bcryptjs and otplib. Each database statement is one effect, so that statements of
several requests can interleave; statements succeed.
-/

namespace NestGateway.Auth

def JWT_ISSUER : String := "auth-server"

def ACCESS_TOKEN_EXPIRY_SECONDS : Nat := 3600

def REFRESH_TOKEN_EXPIRY_SECONDS : Nat := 14400

def TWO_FACTOR_TOKEN_EXPIRY_SECONDS : Nat := 300

def PASSWORD_EXPIRY_DAYS : Int := 90

def MAX_FAIL_COUNT : Int := 5

/-- The claims a token is signed with. -/
structure Payload where
  sub : String
  userType : String
  type : Option String := none
  loginId : Option String := none
  name : Option String := none
  customerNo : Option String := none
  roleType : Option String := none
  jti : Option String := none
  deriving Repr, DecidableEq

structure SignedClaims extends Payload where
  iss : String
  iat : Nat
  exp : Nat
  deriving Repr, DecidableEq

/-- The packages and the configuration, with what their documentation promises: a signed token
verifies to its claims until it expires, and a random UUID is not blank. Times are milliseconds. -/
structure Env (Token : Type) where
  production : Bool
  /-- Equality in the collation of the column `user_type`. -/
  sameUserType : String → String → Bool
  sign : SignedClaims → Token
  jwtVerify : Nat → Token → Option SignedClaims
  compare : String → String → Bool
  hashSync : Nat → String → String
  randomUUID : Nat → String
  generateSecret : Nat → String
  keyuri : String → String → String → String
  totpVerify : Nat → String → String → Bool
  jwtVerify_sign : ∀ now claims, jwtVerify now (sign claims) =
    if now / 1000 < claims.exp ∧ claims.iss = JWT_ISSUER then some claims else none
  randomUUID_nonblank : ∀ n, JsString.trim (randomUUID n) ≠ ""

inductive Effect (Token : Type) where
  | findByLoginIdAndUserType (loginId userType : String)
  | findById (id : Option Nat)
  | incrementFailCount (id : Nat)
  | lockAccount (id : Nat)
  | resetFailCount (id : Nat)
  | updateOtpSecretKey (id : Nat) (otpSecretKey : String)
  | updatePassword (id : Nat) (hashedPassword : String)
  | recordSuccess (id : Nat) (loginAt : Nat) (row : HistoryRow)
  | recordFailure (row : HistoryRow)
  | dateNow
  | randomUUID
  | generateSecret
  | hashSync (plain : String)
  | compare (plain hash : String)
  | totpVerify (code secret : String)
  | keyuri (accountName issuer secret : String)
  | nodeEnvIsProduction
  | sign (payload : Payload) (expirySeconds : Nat)
  | jwtVerify (token : Token)

abbrev Effect.Reply {Token : Type} : Effect Token → Type
  | .findByLoginIdAndUserType .. | .findById _ => Option Account
  | .incrementFailCount _ | .lockAccount _ | .resetFailCount _ | .updateOtpSecretKey .. => Unit
  | .updatePassword .. | .recordSuccess .. | .recordFailure _ => Unit
  | .dateNow => Nat
  | .randomUUID | .generateSecret | .hashSync _ | .keyuri .. => String
  | .compare .. | .totpVerify .. | .nodeEnvIsProduction => Bool
  | .sign .. => Token
  | .jwtVerify _ => Option SignedClaims

structure Server where
  accounts : AccountTable
  history : List HistoryRow
  now : Nat
  /-- How many random values were drawn. -/
  drawn : Nat
  /-- The claims of the tokens signed so far. -/
  minted : List SignedClaims

variable {Token : Type} (env : Env Token)

/-- The claims of a token signed now. -/
def signedAt (now : Nat) (payload : Payload) (expirySeconds : Nat) : SignedClaims :=
  { payload with
    iss := JWT_ISSUER
    iat := now / 1000
    exp := now / 1000 + expirySeconds }

def Server.updateAccount (s : Server) (id : Nat) (set : Account → Account) : Server :=
  { s with accounts := s.accounts.update id set }

/-- How the surroundings answer an effect. -/
def answer : (e : Effect Token) → Server → e.Reply × Server
  | .findByLoginIdAndUserType loginId userType, s =>
      (s.accounts.findByLoginIdAndUserType env.sameUserType loginId userType, s)
  | .findById id, s => (s.accounts.findById id, s)
  -- in SQL `NULL + 1` is `NULL`
  | .incrementFailCount id, s =>
      ((), s.updateAccount id fun a => { a with failCount := a.failCount.map (· + 1) })
  | .lockAccount id, s =>
      ((), s.updateAccount id fun a => { a with status := some AccountStatus.locked.value })
  | .resetFailCount id, s => ((), s.updateAccount id fun a => { a with failCount := some 0 })
  | .updateOtpSecretKey id otpSecretKey, s =>
      ((), s.updateAccount id fun a => { a with otpSecretKey := some otpSecretKey })
  | .updatePassword id hashedPassword, s =>
      ((), s.updateAccount id fun a => { a with
        password := some hashedPassword
        lastPasswordChangedAt := some s.now })
  -- one transaction
  | .recordSuccess id loginAt row, s =>
      let s := s.updateAccount id fun a => { a with
        failCount := some 0
        lastLoginAt := some loginAt }
      ((), { s with history := s.history ++ [row] })
  | .recordFailure row, s => ((), { s with history := s.history ++ [row] })
  | .dateNow, s => (s.now, s)
  | .randomUUID, s => (env.randomUUID s.drawn, { s with drawn := s.drawn + 1 })
  | .generateSecret, s => (env.generateSecret s.drawn, { s with drawn := s.drawn + 1 })
  | .hashSync plain, s => (env.hashSync s.drawn plain, { s with drawn := s.drawn + 1 })
  | .compare plain hash, s => (env.compare plain hash, s)
  | .totpVerify code secret, s => (env.totpVerify s.now code secret, s)
  | .keyuri accountName issuer secret, s => (env.keyuri accountName issuer secret, s)
  | .nodeEnvIsProduction, s => (env.production, s)
  | .sign payload expirySeconds, s =>
      let claims := signedAt s.now payload expirySeconds
      (env.sign claims, { s with minted := s.minted ++ [claims] })
  | .jwtVerify token, s => (env.jwtVerify s.now token, s)

/-- No statement of the service changes the id or the user type of a row. -/
theorem kinds_answer (e : Effect Token) (s : Server) :
    (answer env e s).2.accounts.kinds = s.accounts.kinds := by
  cases e with
  | incrementFailCount id => exact AccountTable.kinds_update fun _ => rfl
  | lockAccount id => exact AccountTable.kinds_update fun _ => rfl
  | resetFailCount id => exact AccountTable.kinds_update fun _ => rfl
  | updateOtpSecretKey id otpSecretKey => exact AccountTable.kinds_update fun _ => rfl
  | updatePassword id hashedPassword => exact AccountTable.kinds_update fun _ => rfl
  | recordSuccess id loginAt row => exact AccountTable.kinds_update fun _ => rfl
  | _ => rfl

end NestGateway.Auth
