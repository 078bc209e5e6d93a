import NestGateway.Auth.Jwt

/-! # The auth service

The four operations of `AuthService` and its private methods, with the login
history they record. A text is falsy when it is absent or empty.
-/

namespace NestGateway.Auth

variable {Token : Type}

inductive AuthErrorKey where
  | accountPending
  | accountInactive
  | accountDeleted
  | passwordExpired
  | accountLocked
  | invalidCredentials
  | invalidOtp
  | tokenExpired
  | invalidTokenClaims

def AuthErrorKey.error : AuthErrorKey → AuthError Token
  | accountPending => ⟨"11001", "승인이 필요한 계정입니다. 관리자에게 문의하세요.", 400, none⟩
  | accountInactive => ⟨"11002", "일시적으로 사용할 수 없는 계정입니다. 관리자에게 문의하세요.", 400, none⟩
  | accountDeleted => ⟨"11003", "아이디와 패스워드를 확인해주세요.", 401, none⟩
  | passwordExpired =>
      ⟨"11004", "마지막 패스워드 변경 후 90일이 지났습니다. 패스워드를 변경해주세요.", 400, none⟩
  | accountLocked =>
      ⟨"11005", "5회 이상 로그인이 실패하여 계정이 잠겼습니다. 관리자에게 문의하세요.", 403, none⟩
  | invalidCredentials => ⟨"11010", "아이디와 패스워드를 확인해주세요.", 401, none⟩
  | invalidOtp => ⟨"11011", "OTP 코드가 올바르지 않습니다.", 401, none⟩
  | tokenExpired => ⟨"11012", "인증 토큰이 만료되었습니다.", 401, none⟩
  | invalidTokenClaims =>
      ⟨"11013", "계정 인증 정보가 올바르지 않습니다. 관리자에게 문의하세요.", 500, none⟩

def throwAuthError {α : Type} (key : AuthErrorKey) (passwordChangeToken : Option Token := none) :
    Service Token α :=
  .throw { (key.error : AuthError Token) with passwordChangeToken }

structure LoginRequestMeta where
  clientIp : String
  accessChannel : Option String

def normalizeClientIp (clientIp : String) : String :=
  if JsString.trim clientIp = "" then "unknown" else JsString.trim clientIp

def recordSuccess (account : Account) (m : LoginRequestMeta) : Service Token Unit := do
  let loginAt ← ask .dateNow
  ask (.recordSuccess account.id loginAt
    { loginId := account.loginId
      accountId := account.id
      addrIp := normalizeClientIp m.clientIp
      failCount := 0
      status := account.status
      accessChannel := m.accessChannel
      loginAt := some loginAt
      failedAt := none })

def recordFailure (account : Account) (m : LoginRequestMeta) (failCount : Int)
    (status : Option String) : Service Token Unit := do
  let failedAt ← ask .dateNow
  ask (.recordFailure
    { loginId := account.loginId
      accountId := account.id
      addrIp := normalizeClientIp m.clientIp
      failCount
      status
      accessChannel := m.accessChannel
      loginAt := none
      failedAt := some failedAt })

/-- The trimmed text, if it is not blank. -/
def requireNonBlank (value : Option String) : Except (AuthError Token) String :=
  match value with
  | none => .error AuthErrorKey.invalidTokenClaims.error
  | some text =>
      if JsString.trim text = "" then .error AuthErrorKey.invalidTokenClaims.error
      else .ok (JsString.trim text)

def normalizeOptionalClaim (value : Option String) : String :=
  match value with
  | none => ""
  | some text => JsString.trim text

def SPRING_COMPATIBLE_ROLE_TYPES : List String := ["SUPER_ADMIN", "ADMIN", "MEMBER"]

def normalizeRoleTypeClaim (value : Option String) : Option String :=
  match value with
  | none => none
  | some text =>
      if JsString.trim text ∈ SPRING_COMPATIBLE_ROLE_TYPES then some (JsString.trim text) else none

def buildAccessTokenPayload (account : Account) :
    Except (AuthError Token) AccessTokenPayload := do
  let sub ← requireNonBlank (some (Nat.repr account.id))
  let loginId ← requireNonBlank (some account.loginId)
  let name ← requireNonBlank account.name
  let userType ← requireNonBlank (some account.userType)
  return {
    sub, loginId, name, userType
    customerNo := normalizeOptionalClaim account.customerNo
    roleType := normalizeRoleTypeClaim account.roleType }

structure AuthTokens (Token : Type) where
  accessToken : Token
  refreshToken : Token
  expiresIn : Nat
  deriving Repr, DecidableEq

def issueTokens (account : Account) : Service Token (AuthTokens Token) := do
  let payload ← Prog.ofExcept (buildAccessTokenPayload account)
  let access ← signAccessToken payload
  let refresh ← signRefreshToken payload.sub payload.userType
  if JsString.trim access.2 = "" ∨ JsString.trim refresh.2 = "" then
    throwAuthError .invalidTokenClaims
  else
    return {
      accessToken := access.1
      refreshToken := refresh.1
      expiresIn := ACCESS_TOKEN_EXPIRY_SECONDS }

/-- The hash behind the marker the stored password may start with. -/
def bcryptHash (stored : String) : String :=
  if Text.startsWith stored "{bcrypt}" then String.ofList (stored.toList.drop 8) else stored

def verifyPassword (plain : String) (stored : Option String) : Service Token Bool :=
  match stored with
  | none => return false
  | some stored =>
      if stored = "" then return false
      else ask (.compare plain (bcryptHash stored))

def hashPassword (plain : String) : Service Token String := do
  let hash ← ask (.hashSync plain)
  return "{bcrypt}" ++ hash

/-- The error for a status that refuses a login; a status that is none of these passes. -/
def statusError (status : Option String) : Option AuthErrorKey :=
  if status = some AccountStatus.pending.value then some .accountPending
  else if status = some AccountStatus.inActive.value then some .accountInactive
  else if status = some AccountStatus.delete.value then some .accountDeleted
  else if status = some AccountStatus.locked.value then some .accountLocked
  else none

def validateAccountStatus (status : Option String) : Service Token Unit :=
  match statusError status with
  | none => return ()
  | some key => throwAuthError key

/-- Whole days from one time to another. -/
def daysSince (now : Nat) (lastChanged : Int) : Int :=
  ((now : Int) - lastChanged) / (1000 * 60 * 60 * 24)

def validatePasswordExpiry (account : Account) : Service Token Unit :=
  match account.lastPasswordChangedAt with
  | none => return ()
  | some lastChanged => do
      let now ← ask .dateNow
      if PASSWORD_EXPIRY_DAYS ≤ daysSince now lastChanged then
        let passwordChangeToken ←
          signPasswordChangeToken (Nat.repr account.id) account.userType
        throwAuthError .passwordExpired (some passwordChangeToken)
      else
        return ()

def handleFailedLogin (account : Account) (m : LoginRequestMeta) (newFailCount : Int) :
    Service Token Unit := do
  ask (.incrementFailCount account.id)
  if MAX_FAIL_COUNT ≤ newFailCount then
    ask (.lockAccount account.id)
    recordFailure account m newFailCount (some AccountStatus.locked.value)
  else
    recordFailure account m newFailCount account.status

def handleLockedLogin (account : Account) (m : LoginRequestMeta) : Service Token Unit := do
  if account.status ≠ some AccountStatus.locked.value then
    ask (.lockAccount account.id)
  recordFailure account m (account.failCount.getD MAX_FAIL_COUNT)
    (some AccountStatus.locked.value)

def normalizeTotpAccountName (account : Account) : Except (AuthError Token) String :=
  match account.name with
  | none => requireNonBlank (some account.loginId)
  | some name =>
      if JsString.trim name = "" then requireNonBlank (some account.loginId)
      else .ok (JsString.trim name)

/-- A new secret and its registration link, until a login with the secret was confirmed. -/
def createTotpRegistrationUrlIfRequired (account : Account) : Service Token (Option String) := do
  if account.otpSecretKey.isSome ∧ account.lastLoginAt.isSome then
    return none
  else
    let otpSecretKey ← generateSecret
    ask (.updateOtpSecretKey account.id otpSecretKey)
    let accountName ← Prog.ofExcept (normalizeTotpAccountName account)
    let url ← generateKeyUri accountName otpSecretKey
    return some url

/-! ## Operations -/

inductive AuthResponse (Token : Type) where
  | requiresTwoFactor (twoFactorToken : Token) (tOtpUrl : Option String)
  | authenticated (tokens : AuthTokens Token)
  deriving Repr, DecidableEq

def login (loginId password userType : String) (m : LoginRequestMeta) :
    Service Token (AuthResponse Token) := do
  match ← ask (.findByLoginIdAndUserType loginId userType) with
  | none => throwAuthError .invalidCredentials
  | some account =>
      if account.status = some AccountStatus.locked.value ∨
          MAX_FAIL_COUNT ≤ account.failCount.getD 0 then
        handleLockedLogin account m
        throwAuthError .accountLocked
      else
        validateAccountStatus account.status
        let isPasswordValid ← verifyPassword password account.password
        if isPasswordValid then
          validatePasswordExpiry account
          -- the type of the request decides, not the type of the row
          if userType ∈ twoFactorRequiredTypes then
            ask (.resetFailCount account.id)
            let twoFactorToken ← signTwoFactorToken (Nat.repr account.id) userType
            let tOtpUrl ← createTotpRegistrationUrlIfRequired account
            return .requiresTwoFactor twoFactorToken tOtpUrl
          else
            let tokens ← issueTokens account
            recordSuccess account m
            return .authenticated tokens
        else
          handleFailedLogin account m (account.failCount.getD 0 + 1)
          throwAuthError .invalidCredentials

/-- Outside production no code is asked for. -/
def acceptsCode (code secret : String) : Service Token Bool := do
  if ← ask .nodeEnvIsProduction then verifyTotp code secret else return true

def verifyTwoFactor (twoFactorToken : Token) (totpCode : String) (m : LoginRequestMeta) :
    Service Token (AuthTokens Token) := do
  match ← verifyTwoFactorToken twoFactorToken with
  | none => throwAuthError .tokenExpired
  | some claims =>
      match ← ask (.findById (JsString.number claims.sub)) with
      | none => throwAuthError .invalidCredentials
      | some account =>
          match account.otpSecretKey with
          | none => throwAuthError .invalidCredentials
          | some otpSecretKey =>
              if otpSecretKey = "" then
                throwAuthError .invalidCredentials
              else
                let accepted ← acceptsCode totpCode otpSecretKey
                if accepted then
                  let tokens ← issueTokens account
                  recordSuccess account m
                  return tokens
                else
                  throwAuthError .invalidOtp

/-- The token may be of any kind, and the status of the account is not looked at. -/
def refreshTokens (refreshToken : Token) : Service Token (AuthTokens Token) := do
  match ← verifyToken refreshToken with
  | none => throwAuthError .tokenExpired
  | some claims =>
      match ← ask (.findById (JsString.number claims.sub)) with
      | none => throwAuthError .invalidCredentials
      | some account => issueTokens account

structure ChangePasswordCredential (Token : Type) where
  accessToken : Option Token
  passwordChangeToken : Option Token

def resolveChangePasswordAccountId (credential : ChangePasswordCredential Token) :
    Service Token (Option Nat) := do
  match credential.passwordChangeToken with
  | some passwordChangeToken =>
      match ← verifyPasswordChangeToken passwordChangeToken with
      | none => throwAuthError .tokenExpired
      | some claims => return JsString.number claims.sub
  | none =>
      match credential.accessToken with
      | none => throwAuthError .tokenExpired
      | some accessToken =>
          match ← verifyToken accessToken with
          | none => throwAuthError .tokenExpired
          | some claims =>
              if claims.type.getD "" = "" then
                return JsString.number claims.sub
              else
                throwAuthError .tokenExpired

def changePassword (credential : ChangePasswordCredential Token)
    (currentPassword newPassword : String) : Service Token Bool := do
  let accountId ← resolveChangePasswordAccountId credential
  match ← ask (.findById accountId) with
  | none => throwAuthError .invalidCredentials
  | some account =>
      let isCurrentValid ← verifyPassword currentPassword account.password
      if isCurrentValid then
        let hashedPassword ← hashPassword newPassword
        ask (.updatePassword account.id hashedPassword)
        return true
      else
        throwAuthError .invalidCredentials

end NestGateway.Auth
