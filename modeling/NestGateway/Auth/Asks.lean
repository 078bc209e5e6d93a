import NestGateway.Auth.Outcomes

/-! # What the operations ask for

The four purposes a token can be signed for, and which effects each part of the
service can come to ask for. Behind its checks an operation only signs tokens of
these purposes and writes what it decided.
-/

namespace NestGateway.Auth

open Prog

variable {Token : Type}

inductive Purpose where
  | access
  | refresh
  | twoFactor
  | passwordChange

/-- The payloads and lifetimes the four functions of `JwtTokenService` sign. -/
def Purpose.Signs : Purpose → Payload → Nat → Prop
  | .access, payload, seconds =>
      (∃ p : AccessTokenPayload, ∃ jti, payload = p.withJti jti) ∧
        seconds = ACCESS_TOKEN_EXPIRY_SECONDS
  | .refresh, payload, seconds =>
      (∃ sub userType jti, payload = refreshPayload sub userType jti) ∧
        seconds = REFRESH_TOKEN_EXPIRY_SECONDS
  | .twoFactor, payload, seconds =>
      (∃ sub userType, payload = { sub, userType, type := some "2fa" }) ∧
        seconds = TWO_FACTOR_TOKEN_EXPIRY_SECONDS
  | .passwordChange, payload, seconds =>
      (∃ sub userType, payload = { sub, userType, type := some "password_change" }) ∧
        seconds = TWO_FACTOR_TOKEN_EXPIRY_SECONDS

/-- The claims of a token one of the functions signed, at some time. -/
def SignedClaims.MintedBy (claims : SignedClaims) (purpose : Purpose) : Prop :=
  ∃ now payload seconds, purpose.Signs payload seconds ∧ claims = signedAt now payload seconds

/-- The type and whether there is a login id tell the purposes apart. -/
def Purpose.marks : Purpose → Option String × Bool
  | .access => (none, true)
  | .refresh => (none, false)
  | .twoFactor => (some "2fa", false)
  | .passwordChange => (some "password_change", false)

theorem SignedClaims.MintedBy.marks {claims : SignedClaims} {purpose : Purpose}
    (h : claims.MintedBy purpose) : (claims.type, claims.loginId.isSome) = purpose.marks := by
  obtain ⟨now, payload, seconds, hsigns, rfl⟩ := h
  cases purpose with
  | access =>
      obtain ⟨⟨p, jti, rfl⟩, _⟩ := hsigns
      rfl
  | refresh =>
      obtain ⟨⟨sub, userType, jti, rfl⟩, _⟩ := hsigns
      rfl
  | twoFactor =>
      obtain ⟨⟨sub, userType, rfl⟩, _⟩ := hsigns
      rfl
  | passwordChange =>
      obtain ⟨⟨sub, userType, rfl⟩, _⟩ := hsigns
      rfl

theorem SignedClaims.MintedBy.of_marks {claims : SignedClaims} {purpose purpose' : Purpose}
    (h : claims.MintedBy purpose) (hmarks : (claims.type, claims.loginId.isSome) = purpose'.marks) :
    claims.MintedBy purpose' := by
  have hsame : purpose.marks = purpose'.marks := h.marks.symm.trans hmarks
  have heq : purpose = purpose' := by
    cases purpose <;> cases purpose' <;> first | rfl | exact absurd hsame (by decide)
  exact heq ▸ h

/-! ## Effects behind the checks -/

/-- The effects behind the checks: no row is read, no password compared, no failure counted, and
what is signed has a purpose. -/
def Effect.Routine : Effect Token → Prop
  | .findByLoginIdAndUserType .. | .findById _ | .incrementFailCount _ | .compare .. => False
  | .sign payload seconds => ∃ purpose : Purpose, purpose.Signs payload seconds
  | _ => True

def Effect.Purposeful : Effect Token → Prop
  | .sign payload seconds => ∃ purpose : Purpose, purpose.Signs payload seconds
  | _ => True

theorem Effect.Routine.purposeful {e : Effect Token} (h : e.Routine) : e.Purposeful := by
  cases e with
  | sign payload seconds => exact h
  | _ => trivial

theorem only_throwAuthError {α : Type} {P : Effect Token → Prop} (key : AuthErrorKey)
    (token : Option Token) : (throwAuthError key token : Service Token α).Only P := .throw _

theorem signAccessToken_routine (payload : AccessTokenPayload) :
    (signAccessToken payload : Service Token _).Only Effect.Routine :=
  Only.bind (Only.call trivial) fun jti =>
    Only.bind (Only.call ⟨.access, ⟨payload, jti, rfl⟩, rfl⟩) fun _ => .ret _

theorem signRefreshToken_routine (sub userType : String) :
    (signRefreshToken sub userType : Service Token _).Only Effect.Routine :=
  Only.bind (Only.call trivial) fun jti =>
    Only.bind (Only.call ⟨.refresh, ⟨sub, userType, jti, rfl⟩, rfl⟩) fun _ => .ret _

theorem signTwoFactorToken_routine (sub userType : String) :
    (signTwoFactorToken sub userType : Service Token _).Only Effect.Routine :=
  Only.call ⟨.twoFactor, ⟨sub, userType, rfl⟩, rfl⟩

theorem signPasswordChangeToken_routine (sub userType : String) :
    (signPasswordChangeToken sub userType : Service Token _).Only Effect.Routine :=
  Only.call ⟨.passwordChange, ⟨sub, userType, rfl⟩, rfl⟩

theorem recordSuccess_routine (a : Account) (m : LoginRequestMeta) :
    (recordSuccess a m : Service Token _).Only Effect.Routine :=
  Only.bind (Only.call trivial) fun _ => Only.call trivial

theorem recordFailure_routine (a : Account) (m : LoginRequestMeta) (failCount : Int)
    (status : Option String) :
    (recordFailure a m failCount status : Service Token _).Only Effect.Routine :=
  Only.bind (Only.call trivial) fun _ => Only.call trivial

theorem handleLockedLogin_routine (a : Account) (m : LoginRequestMeta) :
    (handleLockedLogin a m : Service Token _).Only Effect.Routine := by
  rw [handleLockedLogin]
  split
  · exact Only.bind (Only.call trivial) fun _ => recordFailure_routine ..
  · exact recordFailure_routine ..

theorem issueTokens_routine (a : Account) :
    (issueTokens a : Service Token _).Only Effect.Routine := by
  rw [issueTokens]
  refine Only.bind (Only.ofExcept _) fun payload => ?_
  refine Only.bind (signAccessToken_routine payload) fun access => ?_
  refine Only.bind (signRefreshToken_routine _ _) fun refresh => ?_
  split
  · exact only_throwAuthError _ _
  · exact .ret _

theorem validatePasswordExpiry_routine (a : Account) :
    (validatePasswordExpiry a : Service Token _).Only Effect.Routine := by
  rw [validatePasswordExpiry]
  split
  · exact .ret _
  · refine Only.bind (Only.call trivial) fun now => ?_
    split
    · exact Only.bind (signPasswordChangeToken_routine _ _) fun _ => only_throwAuthError _ _
    · exact .ret _

theorem createTotpRegistrationUrlIfRequired_routine (a : Account) :
    (createTotpRegistrationUrlIfRequired a : Service Token _).Only Effect.Routine := by
  rw [createTotpRegistrationUrlIfRequired]
  split
  · exact .ret _
  · refine Only.bind (Only.call trivial) fun otpSecretKey => ?_
    refine Only.bind (Only.call trivial) fun _ => ?_
    refine Only.bind (Only.ofExcept _) fun accountName => ?_
    exact Only.bind (Only.call trivial) fun _ => .ret _

/-! ## Whole operations -/

theorem purposeful {α : Type} {x : Service Token α} (h : x.Only Effect.Routine) :
    x.Only Effect.Purposeful := h.mono fun _ => Effect.Routine.purposeful

theorem verifyPassword_purposeful (plain : String) (stored : Option String) :
    (verifyPassword plain stored : Service Token _).Only Effect.Purposeful := by
  cases stored with
  | none => exact .ret _
  | some stored =>
      rw [verifyPassword]
      split
      · exact .ret _
      · exact Only.call trivial

theorem verifyTokenOfType_purposeful (type : String) (token : Token) :
    (verifyTokenOfType type token).Only Effect.Purposeful :=
  Only.bind (Only.call trivial) fun _ => .ret _

theorem validateAccountStatus_routine (status : Option String) :
    (validateAccountStatus status : Service Token _).Only Effect.Routine := by
  rw [validateAccountStatus]
  split
  · exact .ret _
  · exact only_throwAuthError _ _

theorem handleFailedLogin_purposeful (a : Account) (m : LoginRequestMeta) (newFailCount : Int) :
    (handleFailedLogin a m newFailCount : Service Token _).Only Effect.Purposeful := by
  rw [handleFailedLogin]
  refine Only.bind (Only.call trivial) fun _ => ?_
  split
  · exact Only.bind (Only.call trivial) fun _ => purposeful (recordFailure_routine ..)
  · exact purposeful (recordFailure_routine ..)

theorem acceptedLogin_routine (a : Account) (userType : String) (m : LoginRequestMeta) :
    (do
      validatePasswordExpiry a
      if userType ∈ twoFactorRequiredTypes then
        ask (.resetFailCount a.id)
        let twoFactorToken ← signTwoFactorToken (Nat.repr a.id) userType
        let tOtpUrl ← createTotpRegistrationUrlIfRequired a
        return .requiresTwoFactor twoFactorToken tOtpUrl
      else
        let tokens ← issueTokens a
        recordSuccess a m
        return .authenticated tokens : Service Token (AuthResponse Token)).Only Effect.Routine := by
  refine Only.bind (validatePasswordExpiry_routine a) fun _ => ?_
  split
  · refine Only.bind (Only.call trivial) fun _ => ?_
    refine Only.bind (signTwoFactorToken_routine _ _) fun twoFactorToken => ?_
    exact Only.bind (createTotpRegistrationUrlIfRequired_routine a) fun _ => .ret _
  · refine Only.bind (issueTokens_routine a) fun tokens => ?_
    exact Only.bind (recordSuccess_routine a m) fun _ => .ret _

theorem login_purposeful (loginId password userType : String) (m : LoginRequestMeta) :
    (login loginId password userType m : Service Token _).Only Effect.Purposeful := by
  rw [login]
  refine Only.bind (Only.call trivial) fun row => ?_
  split
  · exact only_throwAuthError _ _
  · split
    · exact Only.bind (purposeful (handleLockedLogin_routine ..)) fun _ => only_throwAuthError _ _
    · refine Only.bind (purposeful (validateAccountStatus_routine _)) fun _ => ?_
      refine Only.bind (verifyPassword_purposeful _ _) fun isPasswordValid => ?_
      split
      · exact purposeful (acceptedLogin_routine ..)
      · exact Only.bind (handleFailedLogin_purposeful ..) fun _ => only_throwAuthError _ _

theorem acceptsCode_purposeful (code secret : String) :
    (acceptsCode code secret : Service Token _).Only Effect.Purposeful := by
  rw [acceptsCode]
  refine Only.bind (Only.call trivial) fun production => ?_
  split
  · exact Only.call trivial
  · exact .ret _

theorem verifyTwoFactor_purposeful (twoFactorToken : Token) (totpCode : String)
    (m : LoginRequestMeta) :
    (verifyTwoFactor twoFactorToken totpCode m).Only Effect.Purposeful := by
  rw [verifyTwoFactor]
  refine Only.bind (verifyTokenOfType_purposeful _ _) fun claims => ?_
  split
  · exact only_throwAuthError _ _
  refine Only.bind (Only.call trivial) fun row => ?_
  split
  · exact only_throwAuthError _ _
  split
  · exact only_throwAuthError _ _
  split
  · exact only_throwAuthError _ _
  refine Only.bind (acceptsCode_purposeful _ _) fun accepted => ?_
  split
  · refine Only.bind (purposeful (issueTokens_routine _)) fun tokens => ?_
    exact Only.bind (purposeful (recordSuccess_routine _ m)) fun _ => .ret _
  · exact only_throwAuthError _ _

theorem refreshTokens_purposeful (refreshToken : Token) :
    (refreshTokens refreshToken).Only Effect.Purposeful := by
  rw [refreshTokens]
  refine Only.bind (Only.call trivial) fun claims => ?_
  split
  · exact only_throwAuthError _ _
  refine Only.bind (Only.call trivial) fun row => ?_
  split
  · exact only_throwAuthError _ _
  · exact purposeful (issueTokens_routine _)

theorem resolveChangePasswordAccountId_purposeful (credential : ChangePasswordCredential Token) :
    (resolveChangePasswordAccountId credential).Only Effect.Purposeful := by
  rw [resolveChangePasswordAccountId]
  split
  · refine Only.bind (verifyTokenOfType_purposeful _ _) fun claims => ?_
    split
    · exact only_throwAuthError _ _
    · exact .ret _
  · split
    · exact only_throwAuthError _ _
    refine Only.bind (Only.call trivial) fun claims => ?_
    split
    · exact only_throwAuthError _ _
    · split
      · exact .ret _
      · exact only_throwAuthError _ _

theorem changePassword_purposeful (credential : ChangePasswordCredential Token)
    (currentPassword newPassword : String) :
    (changePassword credential currentPassword newPassword).Only Effect.Purposeful := by
  rw [changePassword]
  refine Only.bind (resolveChangePasswordAccountId_purposeful credential) fun accountId => ?_
  refine Only.bind (Only.call trivial) fun row => ?_
  split
  · exact only_throwAuthError _ _
  refine Only.bind (verifyPassword_purposeful _ _) fun isCurrentValid => ?_
  split
  · refine Only.bind (Only.bind (Only.call trivial) fun _ => .ret _) fun hashedPassword => ?_
    exact Only.bind (Only.call trivial) fun _ => .ret _
  · exact only_throwAuthError _ _

/-- Whatever a request signs has one of the four purposes. -/
theorem Request.program_purposeful (request : Request Token) :
    request.program.Only Effect.Purposeful := by
  cases request with
  | login loginId password userType m =>
      exact Only.bind (login_purposeful loginId password userType m) fun _ => .ret _
  | verifyTwoFactor twoFactorToken totpCode m =>
      exact Only.bind (verifyTwoFactor_purposeful twoFactorToken totpCode m) fun _ => .ret _
  | refreshTokens refreshToken =>
      exact Only.bind (refreshTokens_purposeful refreshToken) fun _ => .ret _
  | changePassword credential currentPassword newPassword =>
      exact Only.bind (changePassword_purposeful credential currentPassword newPassword)
        fun _ => .ret _

end NestGateway.Auth
