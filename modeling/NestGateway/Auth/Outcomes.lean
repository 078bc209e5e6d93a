import NestGateway.Auth.Requests

/-! # What a call does to the tokens

Every request either issues tokens for the account it passes with, or issues
none and signs at most tokens of a special type.
-/

namespace NestGateway.Auth

open Prog

variable {Token : Type} (env : Env Token)

def SameMinted (s s' : Server) : Prop := s'.minted = s.minted

theorem recordSuccess_minted (a : Account) (m : LoginRequestMeta) (s : Server) :
    wp (answer env) (recordSuccess a m) (fun r s' => r = .ok () ∧ SameMinted s s') s := ⟨rfl, rfl⟩

theorem handleFailedLogin_minted (a : Account) (m : LoginRequestMeta) (newFailCount : Int)
    (s : Server) :
    wp (answer env) (handleFailedLogin a m newFailCount)
      (fun r s' => r = .ok () ∧ SameMinted s s') s := by
  rw [handleFailedLogin, wp_call_bind]
  split
  · exact ⟨rfl, rfl⟩
  · exact ⟨rfl, rfl⟩

theorem handleLockedLogin_minted (a : Account) (m : LoginRequestMeta) (s : Server) :
    wp (answer env) (handleLockedLogin a m) (fun r s' => r = .ok () ∧ SameMinted s s') s := by
  rw [handleLockedLogin]
  split
  · exact ⟨rfl, rfl⟩
  · exact ⟨rfl, rfl⟩

theorem createTotpRegistrationUrlIfRequired_minted (a : Account) (s : Server) :
    wp (answer env) (createTotpRegistrationUrlIfRequired a) (fun _ s' => SameMinted s s') s := by
  rw [createTotpRegistrationUrlIfRequired]
  split
  · exact rfl
  · rw [generateSecret, wp_call_bind, wp_call_bind, wp_bind, wp_ofExcept]
    split
    · exact rfl
    · exact rfl

theorem wp_verifyPassword (plain : String) (stored : Option String)
    (Q : Except (AuthError Token) Bool → Server → Prop) (s : Server) :
    wp (answer env) (verifyPassword plain stored) Q s ↔
      Q (.ok (env.passwordMatches plain stored)) s := by
  cases stored with
  | none => exact Iff.rfl
  | some stored =>
      by_cases hempty : stored = ""
      · simp only [verifyPassword, Env.passwordMatches, if_pos hempty, wp_pure]
      · simp only [verifyPassword, Env.passwordMatches, if_neg hempty, wp_call, answer]

/-! ## Issuing -/

theorem requireNonBlank_ok {text : String} (h : JsString.trim text ≠ "") :
    (requireNonBlank (some text) : Except (AuthError Token) String) = .ok (JsString.trim text) :=
  if_neg h

theorem nonBlank_of_requireNonBlank {value : Option String} {t : String}
    (h : (requireNonBlank value : Except (AuthError Token) String) = .ok t) :
    ∃ text, value = some text ∧ JsString.trim text ≠ "" ∧ t = JsString.trim text := by
  cases value with
  | none => cases h
  | some text =>
      by_cases hblank : JsString.trim text = ""
      · rw [requireNonBlank, if_pos hblank] at h
        cases h
      · rw [requireNonBlank, if_neg hblank] at h
        exact ⟨text, rfl, hblank, (Except.ok.inj h).symm⟩

theorem buildAccessTokenPayload_ok {a : Account} {payload : AccessTokenPayload}
    (h : (buildAccessTokenPayload a : Except (AuthError Token) _) = .ok payload) :
    a.Complete ∧ payload.sub = Nat.repr a.id := by
  obtain ⟨sub, hsub, h⟩ := exists_of_except_bind h
  obtain ⟨loginId, hlogin, h⟩ := exists_of_except_bind h
  obtain ⟨name, hname, h⟩ := exists_of_except_bind h
  obtain ⟨userType, htype, h⟩ := exists_of_except_bind h
  obtain ⟨_, hid, _, hsub⟩ := nonBlank_of_requireNonBlank hsub
  obtain ⟨_, hl, hlogin, _⟩ := nonBlank_of_requireNonBlank hlogin
  obtain ⟨text, hname, hblank, _⟩ := nonBlank_of_requireNonBlank hname
  obtain ⟨_, ht, htype, _⟩ := nonBlank_of_requireNonBlank htype
  cases hid
  cases hl
  cases ht
  cases h
  exact ⟨⟨hlogin, ⟨text, hname, hblank⟩, htype⟩, hsub.trans (JsString.trim_repr a.id)⟩

theorem buildAccessTokenPayload_of_complete {a : Account} (h : a.Complete) :
    ∃ payload, (buildAccessTokenPayload a : Except (AuthError Token) _) = .ok payload := by
  obtain ⟨hlogin, ⟨name, hname, hblank⟩, htype⟩ := h
  have hid : JsString.trim (Nat.repr a.id) ≠ "" := by
    rw [JsString.trim_repr]
    exact JsString.repr_ne_empty a.id
  rw [buildAccessTokenPayload, requireNonBlank_ok hid, requireNonBlank_ok hlogin, hname,
    requireNonBlank_ok hblank, requireNonBlank_ok htype]
  exact ⟨_, rfl⟩

/-- The tokens are for the account, and no other token without a type was signed. -/
structure IssuedTo (s : Server) (a : Account) (tokens : AuthTokens Token) (s' : Server) : Prop where
  verified : ∃ claims, env.jwtVerify s.now tokens.accessToken = some claims ∧
    claims.sub = Nat.repr a.id
  minted : ∀ claims ∈ s'.minted, claims ∈ s.minted ∨ claims.sub = Nat.repr a.id

theorem IssuedTo.sameMinted {s s' s'' : Server} {a : Account} {tokens : AuthTokens Token}
    (issued : IssuedTo env s a tokens s') (h : SameMinted s' s'') : IssuedTo env s a tokens s'' :=
  ⟨issued.verified, fun claims hmem => issued.minted claims (h ▸ hmem)⟩

/-- The claims of a token signed with a new identifier, and the server after that. -/
def Server.newClaims (s : Server) (payload : String → Payload) (expirySeconds : Nat) :
    SignedClaims := signedAt s.now (payload (env.randomUUID s.drawn)) expirySeconds

def Server.signed (s : Server) (payload : String → Payload) (expirySeconds : Nat) : Server :=
  { s with
    drawn := s.drawn + 1
    minted := s.minted ++ [s.newClaims env payload expirySeconds] }

theorem mem_minted_signed {s : Server} {payload : String → Payload} {expirySeconds : Nat}
    {claims : SignedClaims} :
    claims ∈ (s.signed env payload expirySeconds).minted ↔
      claims ∈ s.minted ∨ claims = s.newClaims env payload expirySeconds := by
  simp only [Server.signed, List.mem_append, List.mem_singleton]

def refreshPayload (sub userType jti : String) : Payload := { sub, userType, jti := some jti }

theorem wp_signAccessToken {α : Type} (payload : AccessTokenPayload)
    (f : Token × String → Service Token α) (Q : Except (AuthError Token) α → Server → Prop)
    (s : Server) :
    wp (answer env) (signAccessToken payload >>= f) Q s ↔
      wp (answer env)
        (f (env.sign (s.newClaims env payload.withJti ACCESS_TOKEN_EXPIRY_SECONDS),
          env.randomUUID s.drawn)) Q
        (s.signed env payload.withJti ACCESS_TOKEN_EXPIRY_SECONDS) := Iff.rfl

theorem wp_signRefreshToken {α : Type} (sub userType : String)
    (f : Token × String → Service Token α) (Q : Except (AuthError Token) α → Server → Prop)
    (s : Server) :
    wp (answer env) (signRefreshToken sub userType >>= f) Q s ↔
      wp (answer env)
        (f (env.sign (s.newClaims env (refreshPayload sub userType) REFRESH_TOKEN_EXPIRY_SECONDS),
          env.randomUUID s.drawn)) Q
        (s.signed env (refreshPayload sub userType) REFRESH_TOKEN_EXPIRY_SECONDS) := Iff.rfl

theorem jwtVerify_newClaims (s : Server) (payload : String → Payload) {expirySeconds : Nat}
    (h : 0 < expirySeconds) :
    env.jwtVerify s.now (env.sign (s.newClaims env payload expirySeconds)) =
      some (s.newClaims env payload expirySeconds) := by
  rw [env.jwtVerify_sign, if_pos]
  exact ⟨Nat.lt_add_of_pos_right h, rfl⟩

theorem issueTokens_spec (a : Account) (s : Server) :
    wp (answer env) (issueTokens a) (fun r s' =>
      (a.Complete ∧ ∃ tokens, r = .ok tokens ∧ IssuedTo env s a tokens s') ∨
        (¬ a.Complete ∧ (∃ error, r = .error error) ∧ SameMinted s s')) s := by
  rw [issueTokens, wp_bind, wp_ofExcept]
  cases hbuild : (buildAccessTokenPayload a : Except (AuthError Token) AccessTokenPayload) with
  | error error =>
      refine Or.inr ⟨fun hcomplete => ?_, ⟨error, rfl⟩, rfl⟩
      obtain ⟨payload, hok⟩ := buildAccessTokenPayload_of_complete hcomplete
      cases hbuild.symm.trans hok
  | ok payload =>
      obtain ⟨hcomplete, hsub⟩ := buildAccessTokenPayload_ok hbuild
      dsimp only
      rw [wp_signAccessToken, wp_signRefreshToken]
      split
      next hblank =>
        rcases hblank with hblank | hblank
        · exact absurd hblank (env.randomUUID_nonblank _)
        · exact absurd hblank (env.randomUUID_nonblank _)
      next =>
        refine Or.inl ⟨hcomplete, _, rfl, ⟨_, jwtVerify_newClaims env s _ (by decide), hsub⟩, ?_⟩
        intro claims hmem
        rcases (mem_minted_signed env).mp hmem with hmem | rfl
        · rcases (mem_minted_signed env).mp hmem with hmem | rfl
          · exact Or.inl hmem
          · exact Or.inr hsub
        · exact Or.inr hsub

/-! ## Outcomes -/

/-- At most tokens of a special type were signed. -/
def Quiet (s s' : Server) : Prop := ∀ claims ∈ s'.minted, claims ∈ s.minted ∨ claims.type ≠ none

theorem SameMinted.quiet {s s' : Server} (h : SameMinted s s') : Quiet s s' :=
  fun _ hmem => Or.inl (h ▸ hmem)

theorem Quiet.sameMinted {s s' s'' : Server} (quiet : Quiet s s') (h : SameMinted s' s'') :
    Quiet s s'' := fun claims hmem => quiet claims (h ▸ hmem)

theorem quiet_append {s s' : Server} {claims : SignedClaims} (htype : claims.type ≠ none)
    (h : s'.minted = s.minted ++ [claims]) : Quiet s s' := by
  intro claims' hmem
  rw [h] at hmem
  rcases List.mem_append.mp hmem with hmem | hmem
  · exact Or.inl hmem
  · exact Or.inr (List.mem_singleton.mp hmem ▸ htype)

/-- A request ends with tokens exactly if it passes with an account, and they are for it. -/
inductive Outcome (s : Server) (request : Request Token) :
    Option (AuthTokens Token) → Server → Prop
  | refused {s' : Server} (fails : ∀ a, ¬ request.Passes env s a) (quiet : Quiet s s') :
      Outcome s request none s'
  | issued {a : Account} {tokens : AuthTokens Token} {s' : Server}
      (passes : ∀ b, request.Passes env s b ↔ b = a) (issued : IssuedTo env s a tokens s') :
      Outcome s request (some tokens) s'

variable {env}

theorem Outcome.sameMinted {s s' s'' : Server} {request : Request Token}
    {tokens : Option (AuthTokens Token)} (outcome : Outcome env s request tokens s')
    (h : SameMinted s' s'') : Outcome env s request tokens s'' := by
  cases outcome with
  | refused fails quiet => exact .refused fails (quiet.sameMinted h)
  | issued passes issued => exact .issued passes (issued.sameMinted env h)

theorem Outcome.of_none {s s' : Server} {request : Request Token}
    {tokens : Option (AuthTokens Token)} (fails : ∀ a, ¬ request.Passes env s a)
    (hnone : tokens = none) (quiet : Quiet s s') : Outcome env s request tokens s' :=
  hnone ▸ .refused fails quiet

/-- When only the claims of one account are left to check, issuing decides the request. -/
theorem issueTokens_outcome {s : Server} {request : Request Token} {a : Account}
    (honly : ∀ b, request.Passes env s b ↔ b = a ∧ a.Complete) :
    wp (answer env) (issueTokens a) (fun r s' => Outcome env s request r.toOption s') s := by
  refine wp_mono (issueTokens_spec env a s) ?_
  rintro r s' (⟨hcomplete, tokens, rfl, issued⟩ | ⟨hblank, ⟨error, rfl⟩, same⟩)
  · exact .issued (fun b => (honly b).trans (and_iff_left hcomplete)) issued
  · exact .refused (fun b hb => hblank ((honly b).mp hb).2) same.quiet

theorem issueTokens_recordSuccess {s : Server} {request : Request Token} {a : Account} {α : Type}
    (honly : ∀ b, request.Passes env s b ↔ b = a ∧ a.Complete) (m : LoginRequestMeta)
    (f : AuthTokens Token → α) (issued : Except (AuthError Token) α → Option (AuthTokens Token))
    (hok : ∀ tokens, issued (.ok (f tokens)) = some tokens)
    (herror : ∀ error, issued (.error error) = none) :
    wp (answer env)
      (do
        let tokens ← issueTokens a
        recordSuccess a m
        return f tokens)
      (fun r s' => Outcome env s request (issued r) s') s := by
  refine wp_bind_of (issueTokens_outcome honly) ?_ ?_
  · intro tokens s' outcome
    refine wp_bind_of (recordSuccess_minted env a m s') ?_ ?_
    · rintro _ s'' ⟨_, same⟩
      change Outcome env s request (issued (.ok (f tokens))) s''
      rw [hok]
      exact outcome.sameMinted same
    · rintro error s'' ⟨h, _⟩
      cases h
  · intro error s' outcome
    rw [herror]
    exact outcome

theorem wp_verifyToken {α : Type} (token : Token) (f : Option SignedClaims → Service Token α)
    (Q : Except (AuthError Token) α → Server → Prop) (s : Server) :
    wp (answer env) (verifyToken token >>= f) Q s ↔
      wp (answer env) (f (env.jwtVerify s.now token)) Q s := Iff.rfl

theorem wp_verifyTokenOfType {α : Type} (type : String) (token : Token)
    (f : Option SignedClaims → Service Token α) (Q : Except (AuthError Token) α → Server → Prop)
    (s : Server) :
    wp (answer env) (verifyTokenOfType type token >>= f) Q s ↔
      wp (answer env) (f ((env.jwtVerify s.now token).filter (·.type = some type))) Q s := Iff.rfl

theorem refreshTokens_outcome (refreshToken : Token) (s : Server) :
    wp (answer env) (refreshTokens refreshToken)
      (fun r s' => Outcome env s (.refreshTokens refreshToken) r.toOption s') s := by
  rw [refreshTokens, wp_verifyToken]
  cases hverify : env.jwtVerify s.now refreshToken with
  | none =>
      refine .refused ?_ fun _ => Or.inl
      rintro a ⟨claims, hclaims, _⟩
      cases hverify.symm.trans hclaims
  | some claims =>
      simp only [wp_call_bind, answer]
      cases hfind : s.accounts.findById (JsString.number claims.sub) with
      | none =>
          refine .refused ?_ fun _ => Or.inl
          rintro a ⟨claims', hclaims, hfind', _⟩
          obtain rfl := Option.some.inj (hverify.symm.trans hclaims)
          cases hfind.symm.trans hfind'
      | some account =>
          refine issueTokens_outcome fun b => ⟨?_, ?_⟩
          · rintro ⟨claims', hclaims, hfind', hcomplete⟩
            obtain rfl := Option.some.inj (hverify.symm.trans hclaims)
            obtain rfl := Option.some.inj (hfind.symm.trans hfind')
            exact ⟨rfl, hcomplete⟩
          · rintro ⟨rfl, hcomplete⟩
            exact ⟨claims, hverify, hfind, hcomplete⟩

theorem wp_acceptsCode {α : Type} (code secret : String) (f : Bool → Service Token α)
    (Q : Except (AuthError Token) α → Server → Prop) (s : Server) :
    wp (answer env) (acceptsCode code secret >>= f) Q s ↔
      wp (answer env) (f (env.acceptsCode s.now code secret)) Q s := by
  rw [acceptsCode, wp_bind, wp_call_bind]
  cases hproduction : env.production with
  | true =>
      simp only [answer, hproduction, if_true, Env.acceptsCode, Bool.not_true, Bool.false_or]
      exact Iff.rfl
  | false =>
      simp only [answer, hproduction, Bool.false_eq_true, if_false, Env.acceptsCode, Bool.not_false,
        Bool.true_or]
      exact Iff.rfl

theorem verifyTwoFactor_outcome (twoFactorToken : Token) (totpCode : String)
    (m : LoginRequestMeta) (s : Server) :
    wp (answer env) (verifyTwoFactor twoFactorToken totpCode m)
      (fun r s' => Outcome env s (.verifyTwoFactor twoFactorToken totpCode m) r.toOption s') s := by
  have hverified : ∀ claims,
      (env.jwtVerify s.now twoFactorToken).filter (·.type = some "2fa") = some claims ↔
        env.jwtVerify s.now twoFactorToken = some claims ∧ claims.type = some "2fa" := by
    intro claims
    rw [Option.filter_eq_some_iff, decide_eq_true_eq]
  rw [verifyTwoFactor, verifyTwoFactorToken, wp_verifyTokenOfType]
  cases hverify : (env.jwtVerify s.now twoFactorToken).filter (·.type = some "2fa") with
  | none =>
      refine .refused ?_ fun _ => Or.inl
      rintro a ⟨claims, hclaims, htype, _⟩
      cases hverify.symm.trans ((hverified claims).mpr ⟨hclaims, htype⟩)
  | some claims =>
      obtain ⟨hclaims, htype⟩ := (hverified claims).mp hverify
      simp only [wp_call_bind, answer]
      cases hfind : s.accounts.findById (JsString.number claims.sub) with
      | none =>
          refine .refused ?_ fun _ => Or.inl
          rintro a ⟨claims', hclaims', _, hfind', _⟩
          obtain rfl := Option.some.inj (hclaims.symm.trans hclaims')
          cases hfind.symm.trans hfind'
      | some account =>
          have hpasses : ∀ b, (Request.verifyTwoFactor twoFactorToken totpCode m).Passes env s b ↔
              b = account ∧ env.CodeMatches s.now account totpCode ∧ account.Complete := by
            refine fun b => ⟨?_, ?_⟩
            · rintro ⟨claims', hclaims', _, hfind', hchecks⟩
              obtain rfl := Option.some.inj (hclaims.symm.trans hclaims')
              obtain rfl := Option.some.inj (hfind.symm.trans hfind')
              exact ⟨rfl, hchecks⟩
            · rintro ⟨rfl, hchecks⟩
              exact ⟨claims, hclaims, htype, hfind, hchecks⟩
          have hrefused : ¬ env.CodeMatches s.now account totpCode →
              ∀ b, ¬ (Request.verifyTwoFactor twoFactorToken totpCode m).Passes env s b :=
            fun hcode b hb => hcode ((hpasses b).mp hb).2.1
          dsimp only
          cases hsecret : account.otpSecretKey with
          | none =>
              refine .refused (hrefused ?_) fun _ => Or.inl
              rintro ⟨secret, hsome, _⟩
              cases hsecret.symm.trans hsome
          | some secret =>
              have hcode : env.CodeMatches s.now account totpCode ↔
                  secret ≠ "" ∧ env.acceptsCode s.now totpCode secret = true := by
                simp only [Env.CodeMatches, hsecret, Option.some.injEq, exists_eq_left']
              dsimp only
              split
              next hempty =>
                exact .refused (hrefused fun h => (hcode.mp h).1 hempty) fun _ => Or.inl
              next hempty =>
                rw [wp_acceptsCode]
                split
                next haccepted =>
                  refine issueTokens_recordSuccess (fun b => (hpasses b).trans ?_) m id
                    Except.toOption (fun _ => rfl) fun _ => rfl
                  exact and_congr_right fun _ => and_iff_right (hcode.mpr ⟨hempty, haccepted⟩)
                next haccepted =>
                  exact .refused (hrefused fun h => haccepted (hcode.mp h).2) fun _ => Or.inl

/-! ## Login -/

theorem wp_validateAccountStatus {α : Type} (status : Option String) (f : Unit → Service Token α)
    (Q : Except (AuthError Token) α → Server → Prop) (s : Server) :
    wp (answer env) (validateAccountStatus status >>= f) Q s ↔
      match statusError status with
      | none => wp (answer env) (f ()) Q s
      | some key => wp (answer env) (throwAuthError key) Q s := by
  rw [validateAccountStatus]
  cases statusError status with
  | none => exact Iff.rfl
  | some key => exact Iff.rfl

theorem wp_dateNow {α : Type} (f : Nat → Service Token α)
    (Q : Except (AuthError Token) α → Server → Prop) (s : Server) :
    wp (answer env) (ask .dateNow >>= f) Q s ↔ wp (answer env) (f s.now) Q s := Iff.rfl

theorem validatePasswordExpiry_quiet (a : Account) (s : Server) :
    wp (answer env) (validatePasswordExpiry a) (fun r s' =>
      (¬ a.PasswordExpired s.now ∧ r = .ok () ∧ s' = s) ∨
        (a.PasswordExpired s.now ∧ (∃ error, r = .error error) ∧ Quiet s s')) s := by
  rw [validatePasswordExpiry]
  cases hchanged : a.lastPasswordChangedAt with
  | none =>
      refine Or.inl ⟨?_, rfl, rfl⟩
      rintro ⟨lastChanged, hsome, _⟩
      cases hchanged.symm.trans hsome
  | some lastChanged =>
      dsimp only
      rw [wp_dateNow]
      by_cases hdays : PASSWORD_EXPIRY_DAYS ≤ daysSince s.now lastChanged
      · rw [if_pos hdays]
        exact Or.inr
          ⟨⟨lastChanged, hchanged, hdays⟩, ⟨_, rfl⟩, quiet_append (Option.some_ne_none _) rfl⟩
      · rw [if_neg hdays]
        refine Or.inl ⟨?_, rfl, rfl⟩
        rintro ⟨lastChanged', hsome, hdays'⟩
        obtain rfl := Option.some.inj (hchanged.symm.trans hsome)
        exact hdays hdays'

def loginIssued (r : Except (AuthError Token) (AuthResponse Token)) : Option (AuthTokens Token) :=
  r.toOption.bind AuthResponse.issued

theorem twoFactorChallenge_quiet (a : Account) (userType : String) (s : Server) :
    wp (answer env)
      (do
        ask (.resetFailCount a.id)
        let twoFactorToken ← signTwoFactorToken (Nat.repr a.id) userType
        let tOtpUrl ← createTotpRegistrationUrlIfRequired a
        return AuthResponse.requiresTwoFactor twoFactorToken tOtpUrl)
      (fun r s' => loginIssued r = none ∧ Quiet s s') s := by
  rw [wp_call_bind, signTwoFactorToken, wp_call_bind]
  refine wp_bind_of (createTotpRegistrationUrlIfRequired_minted env a _) ?_ ?_
  · exact fun url s' same => ⟨rfl, quiet_append (Option.some_ne_none _) same⟩
  · exact fun error s' same => ⟨rfl, quiet_append (Option.some_ne_none _) same⟩

theorem login_outcome (loginId password userType : String) (m : LoginRequestMeta) (s : Server) :
    wp (answer env) (login loginId password userType m)
      (fun r s' => Outcome env s (.login loginId password userType m) (loginIssued r) s') s := by
  simp only [login, wp_call_bind, answer]
  cases hfind : s.accounts.findByLoginIdAndUserType env.sameUserType loginId userType with
  | none =>
      refine .refused ?_ fun _ => Or.inl
      rintro a ⟨hsome, _⟩
      cases hfind.symm.trans hsome
  | some account =>
      have hpasses : ∀ b, (Request.login loginId password userType m).Passes env s b ↔
          b = account ∧ ¬ account.LockedOut ∧ statusError account.status = none ∧
            env.passwordMatches password account.password = true ∧
            ¬ account.PasswordExpired s.now ∧ userType ∉ twoFactorRequiredTypes ∧
            account.Complete := by
        refine fun b => ⟨?_, ?_⟩
        · rintro ⟨hsome, hchecks⟩
          obtain rfl := Option.some.inj (hfind.symm.trans hsome)
          exact ⟨rfl, hchecks⟩
        · rintro ⟨rfl, hchecks⟩
          exact ⟨hfind, hchecks⟩
      dsimp only
      by_cases hlocked : account.status = some AccountStatus.locked.value ∨
          MAX_FAIL_COUNT ≤ account.failCount.getD 0
      · rw [if_pos hlocked]
        have hfails : ∀ b, ¬ (Request.login loginId password userType m).Passes env s b :=
          fun b hb => ((hpasses b).mp hb).2.1 hlocked
        refine wp_bind_of (handleLockedLogin_minted env account m s) ?_ ?_
        · exact fun _ s' h => .refused hfails h.2.quiet
        · exact fun _ s' h => .refused hfails h.2.quiet
      rw [if_neg hlocked, wp_validateAccountStatus]
      cases hstatus : statusError account.status with
      | some key =>
          refine .refused (fun b hb => ?_) fun _ => Or.inl
          cases hstatus.symm.trans ((hpasses b).mp hb).2.2.1
      | none =>
          dsimp only
          rw [wp_bind, wp_verifyPassword]
          cases hpassword : env.passwordMatches password account.password with
          | false =>
              have hfails : ∀ b, ¬ (Request.login loginId password userType m).Passes env s b := by
                intro b hb
                cases hpassword.symm.trans ((hpasses b).mp hb).2.2.2.1
              refine wp_bind_of (handleFailedLogin_minted env account m _ s) ?_ ?_
              · exact fun _ s' h => .refused hfails h.2.quiet
              · exact fun _ s' h => .refused hfails h.2.quiet
          | true =>
              refine wp_bind_of (validatePasswordExpiry_quiet account s) ?_ ?_
              · rintro _ s' (⟨hcurrent, _, rfl⟩ | ⟨_, ⟨_, h⟩, _⟩)
                · by_cases htype : userType ∈ twoFactorRequiredTypes
                  · rw [if_pos htype]
                    refine wp_mono (twoFactorChallenge_quiet account userType s') ?_
                    rintro r s'' ⟨hnone, quiet⟩
                    exact .of_none (fun b hb => ((hpasses b).mp hb).2.2.2.2.2.1 htype) hnone quiet
                  · rw [if_neg htype]
                    have honly : ∀ b, (Request.login loginId password userType m).Passes env s' b ↔
                        b = account ∧ account.Complete := by
                      have hchecks : ¬ account.LockedOut := hlocked
                      intro b
                      rw [hpasses]
                      simp only [hchecks, hstatus, hpassword, hcurrent, htype, not_false_eq_true,
                        true_and]
                    exact issueTokens_recordSuccess honly m AuthResponse.authenticated loginIssued
                      (fun _ => rfl) fun _ => rfl
                · cases h
              · rintro error s' (⟨_, h, _⟩ | ⟨hexpired, _, quiet⟩)
                · cases h
                · exact .refused (fun b hb => ((hpasses b).mp hb).2.2.2.2.1 hexpired) quiet

theorem resolveChangePasswordAccountId_same (credential : ChangePasswordCredential Token)
    (s : Server) :
    wp (answer env) (resolveChangePasswordAccountId credential) (fun _ s' => s' = s) s := by
  rw [resolveChangePasswordAccountId]
  cases credential.passwordChangeToken with
  | some token =>
      dsimp only
      rw [verifyPasswordChangeToken, wp_verifyTokenOfType]
      split
      · rfl
      · rfl
  | none =>
      cases credential.accessToken with
      | none => rfl
      | some token =>
          dsimp only
          rw [wp_verifyToken]
          split
          · rfl
          · split
            · rfl
            · rfl

theorem changePassword_minted (credential : ChangePasswordCredential Token)
    (currentPassword newPassword : String) (s : Server) :
    wp (answer env) (changePassword credential currentPassword newPassword)
      (fun _ s' => SameMinted s s') s := by
  refine wp_bind_of (resolveChangePasswordAccountId_same credential s) ?_ ?_
  · rintro accountId _ rfl
    simp only [wp_call_bind, answer]
    split
    · rfl
    · rw [wp_bind, wp_verifyPassword]
      dsimp only
      split
      · rfl
      · rfl
  · rintro error _ rfl
    rfl

/-! ## Requests -/

theorem Request.outcome (request : Request Token) (s : Server) :
    wp (answer env) request.program
      (fun r s' => Outcome env s request (issuedTokens r) s') s := by
  cases request with
  | login loginId password userType m =>
      refine wp_bind_of (login_outcome loginId password userType m s) ?_ ?_
      · exact fun response s' h => h
      · exact fun error s' h => h
  | verifyTwoFactor twoFactorToken totpCode m =>
      refine wp_bind_of (verifyTwoFactor_outcome twoFactorToken totpCode m s) ?_ ?_
      · exact fun tokens s' h => h
      · exact fun error s' h => h
  | refreshTokens refreshToken =>
      refine wp_bind_of (refreshTokens_outcome refreshToken s) ?_ ?_
      · exact fun tokens s' h => h
      · exact fun error s' h => h
  | changePassword credential currentPassword newPassword =>
      refine wp_bind_of (changePassword_minted credential currentPassword newPassword s) ?_ ?_
      · exact fun changed s' same => .refused (fun _ => id) same.quiet
      · exact fun error s' same => .refused (fun _ => id) same.quiet

theorem Request.mem_of_passes {request : Request Token} {s : Server} {a : Account}
    (h : request.Passes env s a) : a ∈ s.accounts.rows := by
  cases request with
  | login loginId password userType m => exact AccountTable.mem_of_findByLoginIdAndUserType h.1
  | verifyTwoFactor twoFactorToken totpCode m =>
      obtain ⟨_, _, _, hfind, _⟩ := h
      exact AccountTable.mem_of_findById hfind
  | refreshTokens refreshToken =>
      obtain ⟨_, _, hfind, _⟩ := h
      exact AccountTable.mem_of_findById hfind
  | changePassword credential currentPassword newPassword => exact h.elim

/-- A call returns tokens for an account exactly if its request passes with the account. -/
theorem tokensFor_iff_passes {w : World Token} {request : Request Token} {a : Account} :
    (w.call env request).TokensFor env a ↔ request.Passes env w.server a := by
  have houtcome : Outcome env w.server request (issuedTokens (w.call env request).result) _ :=
    request.outcome w.server
  generalize hissued : issuedTokens (w.call env request).result = issued at houtcome
  cases houtcome with
  | refused fails quiet =>
      refine ⟨?_, fun h => absurd h (fails a)⟩
      rintro ⟨_, tokens, _, hsome, _⟩
      cases hissued.symm.trans hsome
  | @issued b tokens _ passes issued =>
      have hrow := AccountTable.findById_of_mem (Request.mem_of_passes ((passes b).mpr rfl))
      obtain ⟨claims, hverify, hsub⟩ := issued.verified
      constructor
      · rintro ⟨hfind, tokens', claims', hsome, hverify', hsub'⟩
        obtain rfl := Option.some.inj (hissued.symm.trans hsome)
        obtain rfl := Option.some.inj (hverify.symm.trans hverify')
        rw [JsString.repr_injective (hsub'.symm.trans hsub)] at hfind
        obtain rfl := Option.some.inj (hrow.symm.trans hfind)
        exact (passes b).mpr rfl
      · intro h
        rw [(passes a).mp h]
        exact ⟨hrow, tokens, claims, hissued, hverify, hsub⟩

/-- A token without a type that a call signs is for the account its request passes with. -/
theorem minted_serve {w : World Token} {request : Request Token} {claims : SignedClaims}
    (hmem : claims ∈ (w.serve env request).server.minted) (htype : claims.type = none) :
    claims ∈ w.server.minted ∨
      ∃ a, request.Passes env w.server a ∧ claims.sub = Nat.repr a.id := by
  have houtcome : Outcome env w.server request (issuedTokens (w.call env request).result)
      (w.serve env request).server := request.outcome w.server
  generalize issuedTokens (w.call env request).result = issued at houtcome
  cases houtcome with
  | refused fails quiet =>
      rcases quiet claims hmem with hold | hspecial
      · exact Or.inl hold
      · exact absurd htype hspecial
  | @issued a tokens _ passes issued =>
      rcases issued.minted claims hmem with hold | hsub
      · exact Or.inl hold
      · exact Or.inr ⟨a, (passes a).mpr rfl, hsub⟩

theorem kinds_serve (w : World Token) (request : Request Token) :
    (w.serve env request).server.accounts.kinds = w.server.accounts.kinds :=
  wp_invariant (fun e s h => (kinds_answer env e s).trans h) request.program rfl

end NestGateway.Auth
