import NestGateway.Auth.Purpose

/-! # Whose tokens a request is answered with

The claims of a token are made from columns of one row that no operation writes.
The tokens in an answer are those of the account the request passes with, claim
for claim.
-/

namespace NestGateway.Auth

open Prog

variable {Token : Type} {env : Env Token}

/-- The columns the claims of a token are made from. -/
structure Identity where
  id : Nat
  loginId : String
  name : Option String
  userType : String
  customerNo : Option String
  roleType : Option String
  deriving Repr, DecidableEq

def Account.identity (a : Account) : Identity where
  id := a.id
  loginId := a.loginId
  name := a.name
  userType := a.userType
  customerNo := a.customerNo
  roleType := a.roleType

def AccountTable.identities (t : AccountTable) : List Identity := t.rows.map Account.identity

theorem AccountTable.identities_update {t : AccountTable} {id : Nat} {set : Account → Account}
    (h : ∀ a, { set a with id := a.id }.identity = a.identity) :
    (t.update id set).identities = t.identities := by
  unfold identities update
  rw [List.map_map]
  refine List.map_congr_left fun a _ => ?_
  show (if a.id = id then _ else a).identity = a.identity
  split
  · exact h a
  · rfl

theorem identities_answer (env : Env Token) (e : Effect Token) (s : Server) :
    (answer env e s).2.accounts.identities = s.accounts.identities := by
  cases e with
  | incrementFailCount id => exact AccountTable.identities_update fun _ => rfl
  | lockAccount id => exact AccountTable.identities_update fun _ => rfl
  | resetFailCount id => exact AccountTable.identities_update fun _ => rfl
  | updateOtpSecretKey id otpSecretKey => exact AccountTable.identities_update fun _ => rfl
  | updatePassword id hashedPassword => exact AccountTable.identities_update fun _ => rfl
  | recordSuccess id loginAt row => exact AccountTable.identities_update fun _ => rfl
  | _ => rfl

theorem AccountTable.identity_eq {t : AccountTable} {identity : Identity} {a : Account}
    (hmem : identity ∈ t.identities) (ha : a.identity ∈ t.identities)
    (hid : identity.id = a.id) : identity = a.identity := by
  have hnodup : (t.identities.map Identity.id).Nodup := by
    unfold identities
    rw [List.map_map]
    exact t.nodup
  exact List.inj_on_of_nodup_map hnodup hmem ha hid

theorem buildAccessTokenPayload_congr {a b : Account} (h : a.identity = b.identity) :
    (buildAccessTokenPayload a : Except (AuthError Token) _) = buildAccessTokenPayload b := by
  simp only [Account.identity, Identity.mk.injEq] at h
  obtain ⟨hid, hloginId, hname, huserType, hcustomerNo, hroleType⟩ := h
  unfold buildAccessTokenPayload
  rw [hid, hloginId, hname, huserType, hcustomerNo, hroleType]

/-- The claims were made from the account. -/
structure TokensOf (env : Env Token) (a : Account) (tokens : AuthTokens Token) : Prop where
  access : ∃ now jti payload,
    (buildAccessTokenPayload a : Except (AuthError Token) _) = .ok payload ∧
    tokens.accessToken =
      env.sign (signedAt now (payload.withJti jti) ACCESS_TOKEN_EXPIRY_SECONDS)
  refresh : ∃ now jti userType, tokens.refreshToken =
    env.sign (signedAt now (refreshPayload (Nat.repr a.id) userType jti)
      REFRESH_TOKEN_EXPIRY_SECONDS)

theorem TokensOf.congr {a b : Account} {tokens : AuthTokens Token} (h : TokensOf env a tokens)
    (hidentity : a.identity = b.identity) : TokensOf env b tokens := by
  obtain ⟨now, jti, payload, hpayload, hsign⟩ := h.access
  refine ⟨⟨now, jti, payload, ?_, hsign⟩, ?_⟩
  · rw [← hpayload]
    exact (buildAccessTokenPayload_congr hidentity).symm
  · have hid : a.id = b.id := congrArg Identity.id hidentity
    exact hid ▸ h.refresh

/-- The replies while the identities are the given ones. -/
def Replied (env : Env Token) (identities : List Identity) : (e : Effect Token) → e.Reply → Prop
  | .findByLoginIdAndUserType .., reply | .findById _, reply =>
      ∀ a : Account, reply = some a → a.identity ∈ identities
  | .sign payload expirySeconds, reply =>
      ∃ now, reply = env.sign (signedAt now payload expirySeconds)
  | _, _ => True

theorem replied_answer (e : Effect Token) (s : Server) :
    Replied env s.accounts.identities e (answer env e s).1 := by
  cases e with
  | findByLoginIdAndUserType loginId userType =>
      exact fun a hfind =>
        List.mem_map_of_mem (AccountTable.mem_of_findByLoginIdAndUserType hfind)
  | findById id => exact fun a hfind => List.mem_map_of_mem (AccountTable.mem_of_findById hfind)
  | sign payload expirySeconds => exact ⟨s.now, rfl⟩
  | _ => trivial

def TokensAmong (env : Env Token) (identities : List Identity) (tokens : AuthTokens Token) : Prop :=
  ∃ a : Account, a.identity ∈ identities ∧ TokensOf env a tokens

section Operations

variable {identities : List Identity}

theorem signAccessToken_returns (payload : AccessTokenPayload) :
    (signAccessToken payload : Service Token _).Returns (Replied env identities) (fun access =>
      ∃ now jti, access.1 =
        env.sign (signedAt now (payload.withJti jti) ACCESS_TOKEN_EXPIRY_SECONDS)) := by
  unfold signAccessToken
  refine Returns.bind_any fun jti => (Returns.call _).bind fun token hsign => .ret ?_
  obtain ⟨now, hsign⟩ := hsign
  exact ⟨now, jti, hsign⟩

theorem signRefreshToken_returns (sub userType : String) :
    (signRefreshToken sub userType : Service Token _).Returns (Replied env identities)
      (fun refresh => ∃ now jti, refresh.1 =
        env.sign (signedAt now (refreshPayload sub userType jti)
          REFRESH_TOKEN_EXPIRY_SECONDS)) := by
  unfold signRefreshToken
  refine Returns.bind_any fun jti => (Returns.call _).bind fun token hsign => .ret ?_
  obtain ⟨now, hsign⟩ := hsign
  exact ⟨now, jti, hsign⟩

theorem issueTokens_returns {a : Account} (ha : a.identity ∈ identities) :
    (issueTokens a : Service Token _).Returns (Replied env identities)
      (TokensAmong env identities) := by
  unfold issueTokens
  refine (Returns.ofExcept _).bind fun payload hpayload => ?_
  refine (signAccessToken_returns payload).bind fun access haccess => ?_
  refine (signRefreshToken_returns _ _).bind fun refresh hrefresh => ?_
  split
  · exact .throw _
  · obtain ⟨now, jti, haccess⟩ := haccess
    obtain ⟨now', jti', hrefresh⟩ := hrefresh
    rw [(buildAccessTokenPayload_ok hpayload).2] at hrefresh
    exact .ret ⟨a, ha, ⟨now, jti, payload, hpayload, haccess⟩, now', jti', _, hrefresh⟩

theorem login_returns (loginId password userType : String) (m : LoginRequestMeta) :
    (login loginId password userType m : Service Token _).Returns (Replied env identities)
      (fun response => ∀ tokens, response.issued = some tokens →
        TokensAmong env identities tokens) := by
  unfold login
  refine (Returns.call _).bind fun reply hreply => ?_
  cases reply with
  | none => exact .throw _
  | some account =>
      dsimp only
      split
      · exact Returns.bind_any fun _ => .throw _
      · refine Returns.bind_any fun _ => Returns.bind_any fun isPasswordValid => ?_
        split
        · refine Returns.bind_any fun _ => ?_
          split
          · refine Returns.bind_any fun _ => Returns.bind_any fun _ => Returns.bind_any fun _ => ?_
            exact .ret fun tokens hissued => by cases hissued
          · refine (issueTokens_returns (hreply account rfl)).bind fun tokens hamong => ?_
            refine Returns.bind_any fun _ => .ret fun tokens' hissued => ?_
            exact Option.some.inj hissued ▸ hamong
        · exact Returns.bind_any fun _ => .throw _

theorem verifyTwoFactor_returns (twoFactorToken : Token) (totpCode : String)
    (m : LoginRequestMeta) :
    (verifyTwoFactor twoFactorToken totpCode m : Service Token _).Returns (Replied env identities)
      (TokensAmong env identities) := by
  unfold verifyTwoFactor
  refine Returns.bind_any fun claims => ?_
  split
  · exact .throw _
  · refine (Returns.call _).bind fun reply hreply => ?_
    split
    · exact .throw _
    next account =>
      split
      · exact .throw _
      · split
        · exact .throw _
        · refine Returns.bind_any fun accepted => ?_
          split
          · refine (issueTokens_returns (hreply account rfl)).bind fun tokens hamong => ?_
            exact Returns.bind_any fun _ => .ret hamong
          · exact .throw _

theorem refreshTokens_returns (refreshToken : Token) :
    (refreshTokens refreshToken : Service Token _).Returns (Replied env identities)
      (TokensAmong env identities) := by
  unfold refreshTokens
  refine Returns.bind_any fun claims => ?_
  split
  · exact .throw _
  · refine (Returns.call _).bind fun reply hreply => ?_
    split
    · exact .throw _
    next account => exact issueTokens_returns (hreply account rfl)

theorem program_returns (request : Request Token) :
    (request.program : Service Token _).Returns (Replied env identities) (fun response =>
      ∀ tokens, issuedTokens (.ok response) = some tokens → TokensAmong env identities tokens) := by
  cases request with
  | login loginId password userType m =>
      exact (login_returns loginId password userType m).bind fun response hissued => .ret hissued
  | verifyTwoFactor twoFactorToken totpCode m =>
      refine (verifyTwoFactor_returns twoFactorToken totpCode m).bind fun tokens hamong => ?_
      exact .ret fun tokens' hissued => Option.some.inj hissued ▸ hamong
  | refreshTokens refreshToken =>
      refine (refreshTokens_returns refreshToken).bind fun tokens hamong => ?_
      exact .ret fun tokens' hissued => Option.some.inj hissued ▸ hamong
  | changePassword credential currentPassword newPassword =>
      exact Returns.bind_any fun changed => .ret fun tokens hissued => by cases hissued

end Operations

/-- The tokens in an answer are those of the account the request passes with. -/
theorem passes_of_issued {s : Server} {request : Request Token} {tokens : AuthTokens Token}
    (hissued : issuedTokens (request.program.exec (answer env) s).1 = some tokens) :
    ∃ a, request.Passes env s a ∧ TokensOf env a tokens := by
  have hamong : TokensAmong env s.accounts.identities tokens := by
    have hreturns := (program_returns request).wp
      (I := fun t : Server => t.accounts.identities = s.accounts.identities)
      (fun e t ht => ⟨ht ▸ replied_answer e t, (identities_answer env e t).trans ht⟩) rfl
    unfold Prog.wp at hreturns
    cases hresult : (request.program.exec (answer env) s).1 with
    | error error =>
        rw [hresult] at hissued
        cases hissued
    | ok response => exact hreturns response hresult tokens (hresult ▸ hissued)
  have houtcome : Outcome env s request _ _ := request.outcome s
  rw [hissued] at houtcome
  cases houtcome with
  | @issued a _ _ passes issued =>
      obtain ⟨b, hb, hof⟩ := hamong
      refine ⟨a, (passes a).mpr rfl, hof.congr ?_⟩
      have hmem := Request.mem_of_passes ((passes a).mpr rfl)
      refine AccountTable.identity_eq hb (List.mem_map_of_mem hmem) ?_
      obtain ⟨claims, hverify, hsub⟩ := issued.verified
      obtain ⟨now, jti, payload, hpayload, hsign⟩ := hof.access
      rw [hsign] at hverify
      rw [← claims_of_verified hverify] at hsub
      exact JsString.repr_injective ((buildAccessTokenPayload_ok hpayload).2.symm.trans hsub)

end NestGateway.Auth
