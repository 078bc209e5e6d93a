import NestGateway.Auth.Outcomes

/-! # Tokens only after a second factor

An account of a type that requires a second factor gets tokens only after a code
of its authenticator was accepted, as long as logins name the type the way the
account stores it and only tokens without a special type are refreshed.
-/

namespace NestGateway.Auth

open Runs

variable {Token : Type} (env : Env Token)

/-- A call of `verifyTwoFactor` for the account with an accepted code succeeded. -/
def Passed (calls : List (Call Token)) (id : Nat) : Prop :=
  ∃ call ∈ calls, ∃ twoFactorToken totpCode m a secret,
    call.request = .verifyTwoFactor twoFactorToken totpCode m ∧ call.TokensFor env a ∧ a.id = id ∧
      a.otpSecretKey = some secret ∧ env.totpVerify call.now totpCode secret = true

/-- If the step is a call that returned tokens for an account that requires a second factor, that
account passed it. -/
def Gated (w w' : World Token) : Prop :=
  ∀ call, w'.calls = w.calls ++ [call] → ∀ a, call.TokensFor env a →
    a.userType ∈ twoFactorRequiredTypes → Passed env w'.calls a.id

/-- Every token of the request was signed earlier in the run. -/
def Presented (w : World Token) : Event Token → Prop
  | .requested request =>
      ∀ token ∈ request.presented, ∃ claims ∈ w.server.minted, token = env.sign claims
  | _ => True

/-- A login for an account that requires a second factor names such a type itself, and a
refreshed token is of no special type. -/
def Orderly (w : World Token) : Event Token → Prop
  | .requested (.login loginId _ userType _) =>
      ∀ a, w.server.accounts.findByLoginIdAndUserType env.sameUserType loginId userType = some a →
        a.userType ∈ twoFactorRequiredTypes → userType ∈ twoFactorRequiredTypes
  | .requested (.refreshTokens refreshToken) =>
      ∀ claims, env.jwtVerify w.server.now refreshToken = some claims → claims.type = none
  | _ => True

/-- A signed token without a type is for an account that passed, if it is of a type that has to. -/
def MintedOk (w : World Token) : Prop :=
  ∀ claims ∈ w.server.minted, claims.type = none → ∃ id, claims.sub = Nat.repr id ∧
    ∀ userType, (id, userType) ∈ w.server.accounts.kinds → userType ∈ twoFactorRequiredTypes →
      Passed env w.calls id

variable {env}

theorem Passed.mono {calls calls' : List (Call Token)} {id : Nat} (passed : Passed env calls id)
    (h : ∀ call ∈ calls, call ∈ calls') : Passed env calls' id := by
  obtain ⟨call, hmem, hcall⟩ := passed
  exact ⟨call, h call hmem, hcall⟩

theorem Passed.serve {w : World Token} {id : Nat} (passed : Passed env w.calls id)
    (request : Request Token) : Passed env (w.serve env request).calls id :=
  passed.mono fun _ hmem => List.mem_append_left _ hmem

/-- An account its request passes with has passed the second factor, if its type has to. -/
theorem passed_of_passes (production : env.production = true) {w : World Token}
    {request : Request Token} {a : Account} (ok : MintedOk env w)
    (presented : Presented env w (.requested request))
    (orderly : Orderly env w (.requested request)) (h : request.Passes env w.server a)
    (htype : a.userType ∈ twoFactorRequiredTypes) :
    Passed env (w.serve env request).calls a.id := by
  have hrow := Request.mem_of_passes h
  cases request with
  | login loginId password userType m =>
      obtain ⟨hfind, _, _, _, _, hother, _⟩ := h
      exact absurd (orderly a hfind htype) hother
  | verifyTwoFactor twoFactorToken totpCode m =>
      have htokens := tokensFor_iff_passes.mpr h
      obtain ⟨_, _, _, _, ⟨secret, hsecret, _, haccepted⟩, _⟩ := h
      rw [Env.acceptsCode, production, Bool.not_true, Bool.false_or] at haccepted
      exact ⟨_, List.mem_append_right _ (List.mem_singleton.mpr rfl), twoFactorToken, totpCode, m,
        a, secret, rfl, htokens, rfl, hsecret, haccepted⟩
  | refreshTokens refreshToken =>
      obtain ⟨claims, hverify, hfind, _⟩ := h
      obtain ⟨claims', hmem, rfl⟩ := presented refreshToken (List.mem_singleton.mpr rfl)
      have hsame : claims' = claims := by
        rw [env.jwtVerify_sign] at hverify
        split at hverify
        · exact Option.some.inj hverify
        · cases hverify
      subst hsame
      obtain ⟨id, hsub, hpassed⟩ := ok claims' hmem (orderly claims' hverify)
      rw [hsub, JsString.number_repr] at hfind
      obtain rfl := Option.some.inj (AccountTable.id_of_findById hfind)
      exact (hpassed a.userType (List.mem_map_of_mem hrow) htype).serve _
  | changePassword credential currentPassword newPassword => exact h.elim

theorem MintedOk.serve (production : env.production = true) {w : World Token}
    {request : Request Token} (ok : MintedOk env w)
    (presented : Presented env w (.requested request))
    (orderly : Orderly env w (.requested request)) : MintedOk env (w.serve env request) := by
  intro claims hmem htype
  rw [kinds_serve]
  rcases minted_serve hmem htype with hold | ⟨a, hpasses, hsub⟩
  · obtain ⟨id, hsub, hpassed⟩ := ok claims hold htype
    exact ⟨id, hsub, fun userType hkind hrequired => (hpassed userType hkind hrequired).serve _⟩
  · refine ⟨a.id, hsub, fun userType hkind hrequired => ?_⟩
    obtain ⟨b, hb, heq⟩ := List.mem_map.mp hkind
    obtain ⟨hid, rfl⟩ := Prod.mk.inj heq
    obtain rfl :=
      List.inj_on_of_nodup_map w.server.accounts.nodup hb (Request.mem_of_passes hpasses) hid
    exact passed_of_passes production ok presented orderly hpasses hrequired

/-- In an orderly run in production, no account gets tokens around its second factor. -/
theorem tokens_after_second_factor (production : env.production = true) (accounts : AccountTable)
    (now : Nat) (events : List (Event Token))
    (h : EachStep (World.step env) (fun w e _ => Presented env w e ∧ Orderly env w e)
      (World.start accounts now) events) :
    EachStep (World.step env) (fun w _ w' => Gated env w w') (World.start accounts now) events := by
  refine eachStep_of_invariant (I := MintedOk env) ?_ (fun _ hmem => by cases hmem) h
  rintro w e w' ok ⟨presented, orderly⟩ hstep
  cases e with
  | requested request =>
      obtain rfl := Option.some.inj hstep
      refine ⟨ok.serve production presented orderly, fun call hcall a htokens hrequired => ?_⟩
      obtain rfl := List.cons.inj (List.append_cancel_left hcall) |>.1
      exact passed_of_passes production ok presented orderly (tokensFor_iff_passes.mp htokens)
        hrequired
  | statusWritten id status =>
      obtain rfl := Option.some.inj hstep
      refine ⟨fun claims hmem htype => ?_, fun call hcall => ?_⟩
      · have hkinds :
            (w.server.updateAccount id fun a => { a with status := status }).accounts.kinds =
              w.server.accounts.kinds := AccountTable.kinds_update fun _ => rfl
        dsimp only
        rw [hkinds]
        exact ok claims hmem htype
      · exact absurd hcall (by simp)
  | clockMoved now =>
      obtain rfl := Option.some.inj hstep
      exact ⟨ok, fun call hcall => absurd hcall (by simp)⟩

def administrator : Account where
  id := 7
  loginId := "admin"
  name := some "Admin"
  userType := "ADMIN_BO"
  password := some "{bcrypt}pw"
  status := some "ACTIVE"
  otpSecretKey := some "123456"
  customerNo := none
  lastPasswordChangedAt := none
  roleType := some "ADMIN"
  failCount := some 0
  lastLoginAt := some 0

def administrators : AccountTable := ⟨[administrator], by decide⟩

/-- The second-factor token of a login at time zero. -/
def challenge : SignedClaims :=
  signedAt 0 { sub := "7", userType := "ADMIN_BO", type := some "2fa" }
    TWO_FACTOR_TOKEN_EXPIRY_SECONDS

theorem tokens_after_second_factor_administrator :
    EachStep (World.step Env.plain) (fun w _ w' => Gated Env.plain w w')
      (World.start administrators 0)
      [.requested (.login "admin" "pw" "ADMIN_BO" ⟨"10.0.0.1", none⟩),
        .requested (.verifyTwoFactor challenge "123456" ⟨"10.0.0.1", none⟩)] := by
  refine tokens_after_second_factor rfl administrators 0 _ ⟨⟨?_, ?_⟩, ⟨?_, ?_⟩, trivial⟩
  · intro token hmem
    cases hmem
  · exact fun _ _ _ => by decide
  · intro token hmem
    rw [List.mem_singleton.mp hmem]
    exact ⟨challenge, by decide, rfl⟩
  · trivial

theorem administrator_complete : administrator.Complete :=
  ⟨by decide, ⟨"Admin", rfl, by decide⟩, by decide⟩

/-- A login that names the type in lower case finds the row and gets its tokens at once. -/
theorem lowerCase_around_second_factor :
    EachStep (World.step Env.plain) (fun w e _ => Presented Env.plain w e)
        (World.start administrators 0)
        [.requested (.login "admin" "pw" "admin_bo" ⟨"10.0.0.1", none⟩)] ∧
      ¬ EachStep (World.step Env.plain) (fun w _ w' => Gated Env.plain w w')
        (World.start administrators 0)
        [.requested (.login "admin" "pw" "admin_bo" ⟨"10.0.0.1", none⟩)] := by
  refine ⟨⟨fun token hmem => (List.not_mem_nil hmem).elim, trivial⟩, ?_⟩
  rintro ⟨hgated, _⟩
  have htokens : ((World.start administrators 0).call Env.plain
      (.login "admin" "pw" "admin_bo" ⟨"10.0.0.1", none⟩)).TokensFor Env.plain administrator := by
    refine tokensFor_iff_passes.mpr ⟨by decide, ?_, by decide, by decide, ?_,
      by decide, administrator_complete⟩
    · rintro (h | h)
      · exact absurd h (by decide)
      · exact absurd h (by decide)
    · rintro ⟨_, h, _⟩
      cases h
  obtain ⟨call, hmem, _, _, _, _, _, hrequest, _⟩ := hgated _ rfl administrator htokens (by decide)
  rw [List.mem_singleton.mp hmem] at hrequest
  cases hrequest

end NestGateway.Auth
