import NestGateway.Auth.Asks
import NestGateway.Auth.TwoFactor

/-! # Tokens of a single purpose

`refreshTokens` is for refresh tokens, and `changePassword` for password-change
tokens in the header and for access tokens as bearer. What the two operations
check separates the purposes except in two places.
-/

namespace NestGateway.Auth

open Prog Runs

variable {Token : Type} (env : Env Token)

/-- The token was signed earlier in the run, for the purpose. -/
def SignedFor (s : Server) (purpose : Purpose) (token : Token) : Prop :=
  ∃ claims ∈ s.minted, token = env.sign claims ∧ claims.MintedBy purpose

/-- The request presents a token of the purpose its operation is for. -/
def Request.OnPurpose (s : Server) : Request Token → Prop
  | .refreshTokens refreshToken => SignedFor env s .refresh refreshToken
  | .changePassword credential _ _ =>
      match credential.passwordChangeToken with
      | some passwordChangeToken => SignedFor env s .passwordChange passwordChangeToken
      | none =>
          ∃ accessToken, credential.accessToken = some accessToken ∧
            SignedFor env s .access accessToken
  | .login .. | .verifyTwoFactor .. => True

def Call.Granted (call : Call Token) : Prop := ∃ response, call.result = .ok response

/-- If the step is a call with a token of another purpose, it is rejected and changes nothing. -/
def SinglePurpose (w w' : World Token) : Prop :=
  ∀ call, w'.calls = w.calls ++ [call] → ¬ call.request.OnPurpose env w.server →
    ¬ call.Granted ∧ w'.server = w.server

/-- A presented token that verifies was signed earlier in the run. -/
def Unforged (w : World Token) : Event Token → Prop
  | .requested request =>
      ∀ token ∈ request.presented, (env.jwtVerify w.server.now token).isSome →
        ∃ claims ∈ w.server.minted, token = env.sign claims
  | _ => True

/-- Two kinds of request are not made: a refresh with a valid token of another purpose for an
account that can get tokens, and a change of password with a valid refresh token as bearer and the
password of its account. -/
def Separated (w : World Token) : Event Token → Prop
  | .requested (.refreshTokens refreshToken) =>
      ∀ claims a, env.jwtVerify w.server.now refreshToken = some claims →
        w.server.accounts.findById (JsString.number claims.sub) = some a → a.Complete →
        claims.type = none ∧ claims.loginId = none
  | .requested (.changePassword credential currentPassword _) =>
      ∀ accessToken claims a, credential.passwordChangeToken = none →
        credential.accessToken = some accessToken →
        env.jwtVerify w.server.now accessToken = some claims →
        w.server.accounts.findById (JsString.number claims.sub) = some a →
        env.passwordMatches currentPassword a.password = true →
        ¬ (claims.type = none ∧ claims.loginId = none)
  | _ => True

def Provenance (s : Server) : Prop := ∀ claims ∈ s.minted, ∃ purpose, claims.MintedBy purpose

variable {env}

theorem Provenance.answer {e : Effect Token} {s : Server} (he : e.Purposeful)
    (ok : Provenance s) : Provenance (answer env e s).2 := by
  cases e with
  | sign payload seconds =>
      obtain ⟨purpose, hsigns⟩ := he
      intro claims hmem
      rcases List.mem_append.mp hmem with hmem | hmem
      · exact ok claims hmem
      · exact ⟨purpose, s.now, payload, seconds, hsigns, List.mem_singleton.mp hmem⟩
  | _ => exact ok

theorem Provenance.serve {w : World Token} (ok : Provenance w.server) (request : Request Token) :
    Provenance (w.serve env request).server :=
  request.program_purposeful.wp_invariant (fun _ _ he hs => hs.answer he) ok

theorem Provenance.step {w w' : World Token} {e : Event Token} (ok : Provenance w.server)
    (h : World.step env w e = some w') : Provenance w'.server := by
  cases e with
  | requested request => exact Option.some.inj h ▸ ok.serve request
  | statusWritten id status => exact Option.some.inj h ▸ ok
  | clockMoved now => exact Option.some.inj h ▸ ok

theorem claims_of_verified {now : Nat} {claims claims' : SignedClaims}
    (hverify : env.jwtVerify now (env.sign claims') = some claims) : claims' = claims := by
  rw [env.jwtVerify_sign] at hverify
  split at hverify
  · exact Option.some.inj hverify
  · cases hverify

/-- A token that verifies has a purpose, and is signed for the purpose its claims are marked with
and no other. -/
theorem purpose_of_verified {w : World Token} {request : Request Token} {token : Token}
    {claims : SignedClaims} (ok : Provenance w.server)
    (unforged : Unforged env w (.requested request))
    (hpresented : token ∈ request.presented)
    (hverify : env.jwtVerify w.server.now token = some claims) :
    (∃ purpose, claims.MintedBy purpose) ∧ ∀ purpose, SignedFor env w.server purpose token ↔
      (claims.type, claims.loginId.isSome) = purpose.marks := by
  obtain ⟨claims', hmem, rfl⟩ := unforged token hpresented (by rw [hverify]; rfl)
  obtain rfl := claims_of_verified hverify
  obtain ⟨purpose, hminted⟩ := ok claims' hmem
  refine ⟨⟨purpose, hminted⟩, fun purpose' => ⟨?_, fun hmarks => ?_⟩⟩
  · rintro ⟨claims, _, hsign, hminted'⟩
    obtain rfl := claims_of_verified (hsign ▸ hverify)
    exact hminted'.marks
  · exact ⟨claims', hmem, rfl, hminted.of_marks hmarks⟩

/-! ## What the two operations do -/

theorem issueTokens_incomplete {a : Account} (h : ¬ a.Complete) (s : Server) :
    wp (answer env) (issueTokens a) (fun r s' => (∃ error, r = .error error) ∧ s' = s) s := by
  rw [issueTokens, wp_bind, wp_ofExcept]
  cases hbuild : (buildAccessTokenPayload a : Except (AuthError Token) AccessTokenPayload) with
  | error error => exact ⟨⟨error, rfl⟩, rfl⟩
  | ok payload => exact absurd (buildAccessTokenPayload_ok hbuild).1 h

/-- A refresh is granted exactly if its token is valid and its account can get tokens. -/
theorem refreshTokens_spec (refreshToken : Token) (s : Server) :
    wp (answer env) (refreshTokens refreshToken) (fun r s' =>
      ((∃ tokens, r = .ok tokens) ∧ ∃ a, (Request.refreshTokens refreshToken).Passes env s a) ∨
        ((∃ error, r = .error error) ∧ s' = s ∧
          ¬ ∃ a, (Request.refreshTokens refreshToken).Passes env s a)) s := by
  rw [refreshTokens, wp_verifyToken]
  cases hverify : env.jwtVerify s.now refreshToken with
  | none =>
      refine Or.inr ⟨⟨_, rfl⟩, rfl, ?_⟩
      rintro ⟨a, claims, hclaims, _⟩
      cases hverify.symm.trans hclaims
  | some claims =>
      simp only [wp_call_bind, answer]
      cases hfind : s.accounts.findById (JsString.number claims.sub) with
      | none =>
          refine Or.inr ⟨⟨_, rfl⟩, rfl, ?_⟩
          rintro ⟨a, claims', hclaims, hfind', _⟩
          obtain rfl := Option.some.inj (hverify.symm.trans hclaims)
          cases hfind.symm.trans hfind'
      | some account =>
          by_cases hcomplete : account.Complete
          · refine wp_mono (issueTokens_spec env account s) ?_
            rintro r s' (⟨_, tokens, rfl, _⟩ | ⟨hblank, _⟩)
            · exact Or.inl ⟨⟨tokens, rfl⟩, account, claims, hverify, hfind, hcomplete⟩
            · exact absurd hcomplete hblank
          · refine wp_mono (issueTokens_incomplete hcomplete s) ?_
            rintro r s' ⟨herror, rfl⟩
            refine Or.inr ⟨herror, rfl, ?_⟩
            rintro ⟨a, claims', hclaims, hfind', ha⟩
            obtain rfl := Option.some.inj (hverify.symm.trans hclaims)
            obtain rfl := Option.some.inj (hfind.symm.trans hfind')
            exact hcomplete ha

variable (env) in
/-- The account id a credential stands for, if it is accepted. -/
def Env.resolvedAccountId (now : Nat) (credential : ChangePasswordCredential Token) :
    Option (Option Nat) :=
  match credential.passwordChangeToken with
  | some passwordChangeToken =>
      ((env.jwtVerify now passwordChangeToken).filter (·.type = some "password_change")).map
        fun claims => JsString.number claims.sub
  | none =>
      (credential.accessToken.bind (env.jwtVerify now)).filter (·.type.getD "" = "") |>.map
        fun claims => JsString.number claims.sub

theorem wp_resolveChangePasswordAccountId {α : Type} (credential : ChangePasswordCredential Token)
    (f : Option Nat → Service Token α) (Q : Except (AuthError Token) α → Server → Prop)
    (s : Server) :
    wp (answer env) (resolveChangePasswordAccountId credential >>= f) Q s ↔
      match env.resolvedAccountId s.now credential with
      | none => Q (.error AuthErrorKey.tokenExpired.error) s
      | some id => wp (answer env) (f id) Q s := by
  rw [resolveChangePasswordAccountId, Env.resolvedAccountId, wp_bind]
  cases credential.passwordChangeToken with
  | some passwordChangeToken =>
      dsimp only
      rw [verifyPasswordChangeToken, wp_verifyTokenOfType]
      cases (env.jwtVerify s.now passwordChangeToken).filter (·.type = some "password_change") with
      | none => exact Iff.rfl
      | some claims => exact Iff.rfl
  | none =>
      cases credential.accessToken with
      | none => exact Iff.rfl
      | some accessToken =>
          dsimp only
          rw [wp_verifyToken, Option.bind_some]
          cases env.jwtVerify s.now accessToken with
          | none => exact Iff.rfl
          | some claims =>
              by_cases htype : claims.type.getD "" = ""
              · simp only [htype, if_true, Option.filter_some, decide_true, Option.map_some,
                  wp_pure]
              · simp only [htype, if_false, Option.filter_some, decide_false, Option.map_none,
                  Bool.false_eq_true]
                exact Iff.rfl

variable (env) in
/-- The credential is accepted and the current password is that of its account. -/
def ChangesPassword (s : Server) (credential : ChangePasswordCredential Token)
    (currentPassword : String) : Prop :=
  ∃ id a, env.resolvedAccountId s.now credential = some id ∧ s.accounts.findById id = some a ∧
    env.passwordMatches currentPassword a.password = true

theorem changePassword_spec (credential : ChangePasswordCredential Token)
    (currentPassword newPassword : String) (s : Server) :
    wp (answer env) (changePassword credential currentPassword newPassword) (fun r s' =>
      ((∃ changed, r = .ok changed) ∧ ChangesPassword env s credential currentPassword) ∨
        ((∃ error, r = .error error) ∧ s' = s ∧
          ¬ ChangesPassword env s credential currentPassword)) s := by
  rw [changePassword, wp_resolveChangePasswordAccountId]
  cases hid : env.resolvedAccountId s.now credential with
  | none =>
      refine Or.inr ⟨⟨_, rfl⟩, rfl, ?_⟩
      rintro ⟨id, a, hid', _⟩
      cases hid.symm.trans hid'
  | some id =>
      simp only [wp_call_bind, answer]
      cases hfind : s.accounts.findById id with
      | none =>
          refine Or.inr ⟨⟨_, rfl⟩, rfl, ?_⟩
          rintro ⟨id', a, hid', hfind', _⟩
          obtain rfl := Option.some.inj (hid.symm.trans hid')
          cases hfind.symm.trans hfind'
      | some account =>
          dsimp only
          rw [wp_bind, wp_verifyPassword]
          cases hpassword : env.passwordMatches currentPassword account.password with
          | true => exact Or.inl ⟨⟨_, rfl⟩, id, account, hid, hfind, hpassword⟩
          | false =>
              refine Or.inr ⟨⟨_, rfl⟩, rfl, ?_⟩
              rintro ⟨id', a, hid', hfind', hpassword'⟩
              obtain rfl := Option.some.inj (hid.symm.trans hid')
              obtain rfl := Option.some.inj (hfind.symm.trans hfind')
              cases hpassword.symm.trans hpassword'

/-- When an operation is granted exactly under `P` and else changes nothing, its calls are for a
single purpose exactly if `P` means the right token. -/
theorem singlePurpose_serve_iff {α : Type} {P : Prop} {w : World Token} {request : Request Token}
    {x : Service Token α} {respond : α → Response Token}
    (hprogram : request.program = x >>= fun a => pure (respond a))
    (hspec : wp (answer env) x (fun r s' => ((∃ a, r = .ok a) ∧ P) ∨
      ((∃ error, r = .error error) ∧ s' = w.server ∧ ¬ P)) w.server) :
    SinglePurpose env w (w.serve env request) ↔ (P → request.OnPurpose env w.server) := by
  have hcall : ((w.call env request).Granted ∧ P) ∨
      (¬ (w.call env request).Granted ∧ (w.serve env request).server = w.server ∧ ¬ P) := by
    have hrun : wp (answer env) request.program (fun r s' => ((∃ response, r = .ok response) ∧ P) ∨
        (¬ (∃ response, r = .ok response) ∧ s' = w.server ∧ ¬ P)) w.server := by
      rw [hprogram]
      refine wp_bind_of hspec ?_ ?_
      · rintro a s' (⟨_, hP⟩ | ⟨⟨_, h⟩, _⟩)
        · exact Or.inl ⟨⟨_, rfl⟩, hP⟩
        · cases h
      · rintro error s' (⟨⟨_, h⟩, _⟩ | ⟨_, hsame, hP⟩)
        · cases h
        · refine Or.inr ⟨?_, hsame, hP⟩
          rintro ⟨_, h⟩
          cases h
    exact hrun
  rcases hcall with ⟨hgranted, hP⟩ | ⟨hrejected, hsame, hP⟩
  · refine ⟨fun h _ => ?_, fun h call hcalls hoff => ?_⟩
    · by_contra hoff
      exact (h _ rfl hoff).1 hgranted
    · obtain rfl := (List.cons.inj (List.append_cancel_left hcalls)).1
      exact absurd (h hP) hoff
  · refine iff_of_true (fun call hcalls _ => ?_) fun h => absurd h hP
    obtain rfl := (List.cons.inj (List.append_cancel_left hcalls)).1
    exact ⟨hrejected, hsame⟩

theorem singlePurpose_refreshTokens_iff {w : World Token} {refreshToken : Token}
    (ok : Provenance w.server)
    (unforged : Unforged env w (.requested (.refreshTokens refreshToken))) :
    SinglePurpose env w (w.serve env (.refreshTokens refreshToken)) ↔
      Separated env w (.requested (.refreshTokens refreshToken)) := by
  rw [singlePurpose_serve_iff rfl (refreshTokens_spec refreshToken w.server)]
  have hmarks : ∀ claims, env.jwtVerify w.server.now refreshToken = some claims →
      (SignedFor env w.server .refresh refreshToken ↔
        claims.type = none ∧ claims.loginId = none) := by
    intro claims hverify
    obtain ⟨_, hsigned⟩ := purpose_of_verified ok unforged (List.mem_singleton.mpr rfl) hverify
    rw [hsigned, Purpose.marks, Prod.mk.injEq, Option.isSome_eq_false_iff,
      Option.isNone_iff_eq_none]
  constructor
  · intro h claims a hverify hfind hcomplete
    exact (hmarks claims hverify).mp (h ⟨a, claims, hverify, hfind, hcomplete⟩)
  · rintro h ⟨a, claims, hverify, hfind, hcomplete⟩
    exact (hmarks claims hverify).mpr (h claims a hverify hfind hcomplete)

theorem access_marks_iff {claims : SignedClaims} (hminted : ∃ purpose, claims.MintedBy purpose)
    (htype : claims.type.getD "" = "") :
    (claims.type, claims.loginId.isSome) = Purpose.access.marks ↔
      ¬ (claims.type = none ∧ claims.loginId = none) := by
  obtain ⟨purpose, h⟩ := hminted
  obtain ⟨hmark, hlogin⟩ := Prod.mk.inj h.marks
  cases purpose with
  | access =>
      refine iff_of_true h.marks fun hnone => ?_
      rw [hnone.2] at hlogin
      cases hlogin
  | refresh =>
      refine iff_of_false (fun hsame => ?_) fun hnot => hnot ⟨hmark, ?_⟩
      · exact absurd (h.marks.symm.trans hsame) (by decide)
      · exact Option.isNone_iff_eq_none.mp (Option.isSome_eq_false_iff.mp hlogin)
  | twoFactor =>
      rw [hmark] at htype
      exact absurd htype (by decide)
  | passwordChange =>
      rw [hmark] at htype
      exact absurd htype (by decide)

theorem passwordChange_marks {claims : SignedClaims}
    (hminted : ∃ purpose, claims.MintedBy purpose) (htype : claims.type = some "password_change") :
    (claims.type, claims.loginId.isSome) = Purpose.passwordChange.marks := by
  obtain ⟨purpose, h⟩ := hminted
  obtain ⟨hmark, _⟩ := Prod.mk.inj h.marks
  cases purpose with
  | passwordChange => exact h.marks
  | access => exact absurd (htype.symm.trans hmark) (by decide)
  | refresh => exact absurd (htype.symm.trans hmark) (by decide)
  | twoFactor => exact absurd (htype.symm.trans hmark) (by decide)

theorem singlePurpose_changePassword_iff {w : World Token}
    {credential : ChangePasswordCredential Token} {currentPassword newPassword : String}
    (ok : Provenance w.server)
    (unforged : Unforged env w
      (.requested (.changePassword credential currentPassword newPassword))) :
    SinglePurpose env w (w.serve env (.changePassword credential currentPassword newPassword)) ↔
      Separated env w (.requested (.changePassword credential currentPassword newPassword)) := by
  rw [singlePurpose_serve_iff rfl
    (changePassword_spec credential currentPassword newPassword w.server)]
  cases hchange : credential.passwordChangeToken with
  | some passwordChangeToken =>
      refine iff_of_true ?_ ?_
      · rintro ⟨id, a, hid, _⟩
        rw [Env.resolvedAccountId, hchange] at hid
        obtain ⟨claims, hclaims, _⟩ := Option.map_eq_some_iff.mp hid
        obtain ⟨hverify, htype⟩ := Option.filter_eq_some_iff.mp hclaims
        obtain ⟨hminted, hsigned⟩ := purpose_of_verified ok unforged
          (List.mem_append_right _ (Option.mem_toList.mpr hchange)) hverify
        rw [Request.OnPurpose, hchange]
        exact (hsigned _).mpr (passwordChange_marks hminted (of_decide_eq_true htype))
      · intro accessToken claims a hnone
        cases hchange.symm.trans hnone
  | none =>
      have hsigned : ∀ accessToken claims, credential.accessToken = some accessToken →
          env.jwtVerify w.server.now accessToken = some claims → claims.type.getD "" = "" →
          (SignedFor env w.server .access accessToken ↔
            ¬ (claims.type = none ∧ claims.loginId = none)) := by
        intro accessToken claims haccess hverify htype
        obtain ⟨hminted, hsigned⟩ := purpose_of_verified ok unforged
          (List.mem_append_left _ (Option.mem_toList.mpr haccess)) hverify
        rw [hsigned, access_marks_iff hminted htype]
      have hresolved : ∀ id, env.resolvedAccountId w.server.now credential = some id ↔
          ∃ accessToken claims, credential.accessToken = some accessToken ∧
            env.jwtVerify w.server.now accessToken = some claims ∧ claims.type.getD "" = "" ∧
            JsString.number claims.sub = id := by
        intro id
        simp only [Env.resolvedAccountId, hchange, Option.map_eq_some_iff,
          Option.filter_eq_some_iff, Option.bind_eq_some_iff, decide_eq_true_eq]
        constructor
        · rintro ⟨claims, ⟨⟨accessToken, haccess, hverify⟩, htype⟩, hnumber⟩
          exact ⟨accessToken, claims, haccess, hverify, htype, hnumber⟩
        · rintro ⟨accessToken, claims, haccess, hverify, htype, hnumber⟩
          exact ⟨claims, ⟨⟨accessToken, haccess, hverify⟩, htype⟩, hnumber⟩
      rw [Request.OnPurpose, hchange]
      constructor
      · intro h accessToken claims a _ haccess hverify hfind hpassword hnone
        have htype : claims.type.getD "" = "" := by rw [hnone.1]; rfl
        obtain ⟨accessToken', haccess', hfor⟩ := h ⟨_, a, (hresolved _).mpr
          ⟨accessToken, claims, haccess, hverify, htype, rfl⟩, hfind, hpassword⟩
        obtain rfl := Option.some.inj (haccess.symm.trans haccess')
        exact (hsigned accessToken claims haccess hverify htype).mp hfor hnone
      · rintro h ⟨id, a, hid, hfind, hpassword⟩
        obtain ⟨accessToken, claims, haccess, hverify, htype, rfl⟩ := (hresolved id).mp hid
        refine ⟨accessToken, haccess, (hsigned accessToken claims haccess hverify htype).mpr ?_⟩
        exact h accessToken claims a hchange haccess hverify hfind hpassword

theorem singlePurpose_step_iff {w w' : World Token} {e : Event Token} (ok : Provenance w.server)
    (unforged : Unforged env w e) (h : World.step env w e = some w') :
    SinglePurpose env w w' ↔ Separated env w e := by
  cases e with
  | requested request =>
      obtain rfl := Option.some.inj h
      cases request with
      | login loginId password userType m =>
          refine iff_of_true (fun call hcalls hoff => ?_) trivial
          obtain rfl := (List.cons.inj (List.append_cancel_left hcalls)).1
          exact absurd trivial hoff
      | verifyTwoFactor twoFactorToken totpCode m =>
          refine iff_of_true (fun call hcalls hoff => ?_) trivial
          obtain rfl := (List.cons.inj (List.append_cancel_left hcalls)).1
          exact absurd trivial hoff
      | refreshTokens refreshToken => exact singlePurpose_refreshTokens_iff ok unforged
      | changePassword credential currentPassword newPassword =>
          exact singlePurpose_changePassword_iff ok unforged
  | statusWritten id status =>
      obtain rfl := Option.some.inj h
      exact iff_of_true (fun call hcalls => absurd hcalls (by simp)) trivial
  | clockMoved now =>
      obtain rfl := Option.some.inj h
      exact iff_of_true (fun call hcalls => absurd hcalls (by simp)) trivial

/-- In a run without forged tokens the two operations reject every token of another purpose,
exactly if those tokens are not presented to them. -/
theorem single_purpose_iff (accounts : AccountTable) (now : Nat) (events : List (Event Token))
    (unforged : EachStep (World.step env) (fun w e _ => Unforged env w e)
      (World.start accounts now) events) :
    EachStep (World.step env) (fun w _ w' => SinglePurpose env w w') (World.start accounts now)
        events ↔
      EachStep (World.step env) (fun w e _ => Separated env w e) (World.start accounts now)
        events := by
  refine eachStep_iff_given (I := fun w => Provenance w.server) ?_ ?_
    (fun _ hmem => (List.not_mem_nil hmem).elim) unforged
  · exact fun w e w' ok hgiven hok h =>
      ⟨ok.step h, (singlePurpose_step_iff ok hgiven h).mpr hok⟩
  · exact fun w e w' ok hgiven hstep h => (singlePurpose_step_iff ok hgiven h).mp hstep

theorem challenge_minted : challenge ∈ ((World.start administrators 0).serve Env.plain
    (.login "admin" "pw" "ADMIN_BO" ⟨"10.0.0.1", none⟩)).server.minted := by decide

/-- The refresh token that the second factor earns. -/
def earnedRefresh : SignedClaims :=
  signedAt 0 (refreshPayload "7" "ADMIN_BO" "1") REFRESH_TOKEN_EXPIRY_SECONDS

/-- A login in two steps, its refresh token in place of a second-factor token, and a refresh. -/
def onPurpose : List (Event SignedClaims) :=
  [.requested (.login "admin" "pw" "ADMIN_BO" ⟨"10.0.0.1", none⟩),
    .requested (.verifyTwoFactor challenge "123456" ⟨"10.0.0.1", none⟩),
    .requested (.verifyTwoFactor earnedRefresh "123456" ⟨"10.0.0.1", none⟩),
    .requested (.refreshTokens earnedRefresh)]

theorem earnedRefresh_minted :
    let w := ((World.start administrators 0).serve Env.plain
      (.login "admin" "pw" "ADMIN_BO" ⟨"10.0.0.1", none⟩)).serve Env.plain
        (.verifyTwoFactor challenge "123456" ⟨"10.0.0.1", none⟩)
    earnedRefresh ∈ w.server.minted ∧ earnedRefresh ∈ (w.serve Env.plain
      (.verifyTwoFactor earnedRefresh "123456" ⟨"10.0.0.1", none⟩)).server.minted := by
  decide

theorem single_purpose_iff_administrator :
    EachStep (World.step Env.plain) (fun w _ w' => SinglePurpose Env.plain w w')
      (World.start administrators 0) onPurpose := by
  refine (single_purpose_iff administrators 0 onPurpose ?_).mpr ?_
  · refine ⟨fun token hmem => (List.not_mem_nil hmem).elim, fun token hmem _ => ?_,
      fun token hmem _ => ?_, fun token hmem _ => ?_, trivial⟩
    all_goals rw [List.mem_singleton.mp hmem]
    · exact ⟨challenge, challenge_minted, rfl⟩
    · exact ⟨earnedRefresh, earnedRefresh_minted.1, rfl⟩
    · exact ⟨earnedRefresh, earnedRefresh_minted.2, rfl⟩
  · refine ⟨trivial, trivial, trivial, fun claims a hverify _ _ => ?_, trivial⟩
    have hclaims : earnedRefresh = claims := claims_of_verified hverify
    exact hclaims ▸ ⟨rfl, rfl⟩

/-- The token of a login that still waits for its second factor is refreshed to full tokens. -/
theorem challenge_refreshes :
    EachStep (World.step Env.plain) (fun w e _ => Unforged Env.plain w e)
        (World.start administrators 0)
        [.requested (.login "admin" "pw" "ADMIN_BO" ⟨"10.0.0.1", none⟩),
          .requested (.refreshTokens challenge)] ∧
      ¬ EachStep (World.step Env.plain) (fun w _ w' => SinglePurpose Env.plain w w')
        (World.start administrators 0)
        [.requested (.login "admin" "pw" "ADMIN_BO" ⟨"10.0.0.1", none⟩),
          .requested (.refreshTokens challenge)] := by
  have hunforged : Unforged Env.plain ((World.start administrators 0).serve Env.plain
      (.login "admin" "pw" "ADMIN_BO" ⟨"10.0.0.1", none⟩))
      (.requested (.refreshTokens challenge)) := by
    intro token hmem _
    rw [List.mem_singleton.mp hmem]
    exact ⟨challenge, challenge_minted, rfl⟩
  refine ⟨⟨fun token hmem => (List.not_mem_nil hmem).elim, hunforged, trivial⟩, ?_⟩
  rintro ⟨_, hsingle, _⟩
  have hprovenance : Provenance ((World.start administrators 0).serve Env.plain
      (.login "admin" "pw" "ADMIN_BO" ⟨"10.0.0.1", none⟩)).server :=
    Provenance.serve (fun _ hmem => (List.not_mem_nil hmem).elim) _
  have hseparated := (singlePurpose_refreshTokens_iff hprovenance hunforged).mp hsingle challenge
    { administrator with failCount := some 0 } (by decide) (by decide)
    administrator_complete
  exact absurd hseparated.1 (by decide)

end NestGateway.Auth
