import NestGateway.Auth.Identity
import NestGateway.Gateway.AccessChannelHop
import NestGateway.Ui.TokenPayload

/-! # Signing in

The login page of one browser, the gateway and the auth server behind it. The
page asks for a password and then, with the token that the server answers, for a
code. The token is also kept in the local storage, from where it goes into the
headers of every request. Answers may be late or lost, pages may be left with
requests in flight, and the auth server serves others in between.
-/

namespace NestGateway.Ui.SignIn

open Auth Gateway Runs
open JsString (truthy)

inductive Step where
  | credentials | otp
  deriving Repr, DecidableEq

inductive Input where
  | login (loginId password : String)
  | verifyTwoFactor (totpCode : String)
  deriving Repr, DecidableEq

structure Mutation where
  page : Nat
  input : Input
  headers : SentHeaders
  /-- None while it is in flight; then its data, which it has none of when it failed. -/
  answer : Option (Option (Auth.Response String))

structure State where
  world : World String
  /-- The item `twoFactorToken` of the local storage. -/
  item : Option String
  page : Nat
  mounted : Bool
  step : Step
  twoFactorToken : String
  mutations : List Mutation
  entered : List Input
  /-- The tokens that `login` of the session was called with so far. -/
  signedIn : List (AuthTokens String)

def start (accounts : AccountTable) (now : Nat) : State where
  world := .start accounts now
  item := none
  page := 0
  mounted := false
  step := .credentials
  twoFactorToken := ""
  mutations := []
  entered := []
  signedIn := []

/-- The configuration, and what the packages make of texts. -/
structure Config where
  apiKey : String
  userType : String
  urls : UrlParser
  zod : Zod

section Steps

variable (config : Config) (env : Env String)

/-- `authLink`, with the access token of the local storage. -/
def authLink (accessToken item : Option String) (existingHeaders : SentHeaders) : SentHeaders :=
  let headers := (JsMap.empty.set "X-API-Key" config.apiKey).set "X-User-Type" config.userType
  let headers :=
    setIfTruthy headers "Authorization" ((truthy accessToken).map ("Bearer " ++ ·))
  let headers := setIfTruthy headers "X-2FA-Token" item
  existingHeaders.entries.foldl (fun headers e => headers.set e.1 e.2) headers

/-- The headers that the handlers read arrive as they are sent, a token without blanks around it. -/
def Arrives (sent : SentHeaders) (req : FastifyRequest) : Prop :=
  ∀ name ∈ ["X-User-Type", "X-2FA-Token"],
    AuthController.headerValue req (Auth.toLowerCase name) = sent.get name

instance (sent : SentHeaders) (req : FastifyRequest) : Decidable (Arrives sent req) :=
  inferInstanceAs (Decidable (∀ name ∈ _, _))

def Input.post (req : FastifyRequest) : Input → PostRequest
  | .login loginId password => AuthProxyResolver.login config.urls loginId password req
  | .verifyTwoFactor totpCode => AuthProxyResolver.verifyTwoFactor config.urls totpCode req

def field (body : List (String × String)) (name : String) : String := (body.lookup name).getD ""

/-- The call that a route of `AuthController` makes, if the body keeps to its schema. -/
def routed (post : PostRequest) (req : FastifyRequest) : Option (Auth.Request String) :=
  let m := AuthController.loginRequestMeta config.urls req
  if post.path = "/auth/login" then
    match ZodValidationPipe.transform config.zod LoginSchema post.data with
    | .error _ => none
    | .ok body =>
        some (.login (field body "loginId") (field body "password")
          ((AuthController.headerValue req "x-user-type").getD "") m)
  else if post.path = "/auth/2fa/verify" then
    match ZodValidationPipe.transform config.zod TotpVerifySchema post.data with
    | .error _ => none
    | .ok body =>
        some (.verifyTwoFactor ((AuthController.headerValue req "x-2fa-token").getD "")
          (field body "totpCode") m)
  else none

/-! ## Steps -/

inductive Event where
  | mounted
  | submitLogin (loginId password : String) (accessToken : Option String)
  | submitOtp (totpCode : String) (accessToken : Option String)
  | back
  /-- The servers handle a mutation, with the requests that arrive at the gateway and behind it. -/
  | served (i : Nat) (req authReq : FastifyRequest)
  /-- A mutation fails, or its answer is lost. -/
  | failed (i : Nat)
  /-- The handler of a mutation goes on. -/
  | settled (i : Nat)
  | reload
  /-- The auth server serves someone else, or its surroundings change. -/
  | others (e : Auth.Event String)

namespace State

variable (s : State)

def loginLoading : Bool :=
  s.mutations.any fun m => m.page = s.page && m.input matches .login ..

def verifyLoading : Bool :=
  s.mutations.any fun m => m.page = s.page && m.input matches .verifyTwoFactor ..

def send (input : Input) (headers : SentHeaders) : State :=
  { s with
    mutations := s.mutations ++ [⟨s.page, input, headers, none⟩]
    entered := s.entered ++ [input] }

def answered (i : Nat) (m : Mutation) (data : Option (Auth.Response String)) : State :=
  { s with mutations := s.mutations.set i { m with answer := some data } }

def handled (request : Auth.Request String) : State :=
  { s with world := s.world.serve env request }

def serve (i : Nat) (m : Mutation) (request : Auth.Request String) : State :=
  (s.handled env request).answered i m (s.world.call env request).result.toOption

/-- The rest of `handleLogin` and `handleVerifyOtp`; what a page that is gone sets is lost. -/
def settle (m : Mutation) (data : Option (Auth.Response String)) : State :=
  match m.input, data with
  | .login .., some (.login (.requiresTwoFactor token2fa _)) =>
      if token2fa = "" then s
      else if m.page = s.page then
        { s with item := some token2fa, twoFactorToken := token2fa, step := .otp }
      else { s with item := some token2fa }
  | .login .., some (.login (.authenticated tokens)) =>
      { s with signedIn := s.signedIn ++ [tokens], mounted := false }
  | .verifyTwoFactor _, some (.tokens tokens) =>
      { s with item := none, signedIn := s.signedIn ++ [tokens], mounted := false }
  | _, _ => s

def mount : State :=
  { s with page := s.page + 1, mounted := true, step := .credentials, twoFactorToken := "" }

end State

def step (s : State) : Event → Option State
  | .mounted => some s.mount
  | .submitLogin loginId password accessToken =>
      if s.mounted ∧ loginId ≠ "" ∧ password ≠ "" ∧ ¬ s.loginLoading then
        some (s.send (.login loginId password) (authLink config accessToken s.item .empty))
      else none
  -- both forms of the page are in the document at either step
  | .submitOtp totpCode accessToken =>
      if s.mounted ∧ 6 ≤ JsString.length totpCode ∧ ¬ s.verifyLoading then
        some (s.send (.verifyTwoFactor totpCode) (authLink config accessToken s.item
          (setIfTruthy .empty "X-2FA-Token" (some s.twoFactorToken))))
      else none
  | .back =>
      if s.mounted then some { s with step := .credentials, twoFactorToken := "", item := none }
      else none
  | .served i req authReq =>
      match s.mutations[i]? with
      | none => none
      | some m =>
          let post := m.input.post config req
          if m.answer = none ∧ Arrives m.headers req ∧ Arrives post.headers authReq then
            match routed config post authReq with
            | none => some (s.answered i m none)
            | some request => some (s.serve env i m request)
          else none
  | .failed i =>
      match s.mutations[i]? with
      | none => none
      | some m => some (s.answered i m none)
  | .settled i =>
      match s.mutations[i]? with
      | none => none
      | some m =>
          match m.answer with
          | none => none
          | some data => some ({ s with mutations := s.mutations.eraseIdx i }.settle m data)
  | .reload => some { s with mounted := false, mutations := [] }
  | .others e => (s.world.step env e).map fun world => { s with world }

end Steps

/-! ## What a session goes back to -/

section Origin

variable (config : Config) (env : Env String) (s : State)

/-- The call is a login with a password that was entered here and is the one of the account. -/
def PasswordEntered (call : Auth.Call String) (a : Account) : Prop :=
  ∃ loginId password m, Input.login loginId password ∈ s.entered ∧
    call.request = .login loginId password config.userType m ∧
    call.before.findByLoginIdAndUserType env.sameUserType loginId config.userType = some a ∧
    env.passwordMatches password a.password = true

/-- The call issues the tokens, for a code that was entered here and fits the account. -/
def CodeEntered (call : Auth.Call String) (a : Account) (tokens : AuthTokens String) : Prop :=
  ∃ token2fa totpCode m, Input.verifyTwoFactor totpCode ∈ s.entered ∧
    call.request = .verifyTwoFactor token2fa totpCode m ∧
    issuedTokens call.result = some tokens ∧ call.TokensFor env a ∧
    env.CodeMatches call.now a totpCode

/-- The token is the one of a login here with the password of an account. -/
def Earned (token2fa : String) : Prop :=
  ∃ call ∈ s.world.calls, ∃ a claims, PasswordEntered config env s call a ∧
    token2fa = env.sign claims ∧ claims.sub = Nat.repr a.id

/-- The tokens were issued for a password alone, where the type of user needs no second factor, or
for a password and after it a code of the same account. -/
def Earns (tokens : AuthTokens String) : Prop :=
  (config.userType ∉ twoFactorRequiredTypes ∧ ∃ call ∈ s.world.calls, ∃ a,
      PasswordEntered config env s call a ∧ issuedTokens call.result = some tokens ∧
        call.TokensFor env a) ∨
    ∃ first second a b, [first, second].Sublist s.world.calls ∧
      PasswordEntered config env s first a ∧ CodeEntered env s second b tokens ∧ b.id = a.id

/-- What an answer brings was earned. -/
def Brings : Auth.Response String → Prop
  | .login (.requiresTwoFactor token2fa _) => Earned config env s token2fa
  | .login (.authenticated tokens) | .tokens tokens => Earns config env s tokens
  | .success _ => True

/-- The state comes later in a run. -/
structure Later (s s' : State) : Prop where
  calls : s.world.calls <+: s'.world.calls
  entered : s.entered ⊆ s'.entered

structure Kept : Prop where
  item : ∀ token2fa, s.item = some token2fa → Earned config env s token2fa
  page : s.twoFactorToken = "" ∨ Earned config env s s.twoFactorToken
  sent : ∀ m ∈ s.mutations, m.input ∈ s.entered ∧
    m.headers.get "X-User-Type" = some config.userType ∧
    ∀ token2fa, m.headers.get "X-2FA-Token" = some token2fa → Earned config env s token2fa
  answers : ∀ m ∈ s.mutations, ∀ response, m.answer = some (some response) →
    Brings config env s response
  signedIn : ∀ tokens ∈ s.signedIn, Earns config env s tokens

end Origin

section Monotone

variable {config : Config} {env : Env String} {s s' : State}

theorem PasswordEntered.later (later : Later s s') {call : Auth.Call String} {a : Account}
    (h : PasswordEntered config env s call a) : PasswordEntered config env s' call a := by
  obtain ⟨loginId, password, m, hentered, hrest⟩ := h
  exact ⟨loginId, password, m, later.entered hentered, hrest⟩

theorem CodeEntered.later (later : Later s s') {call : Auth.Call String} {a : Account}
    {tokens : AuthTokens String} (h : CodeEntered env s call a tokens) :
    CodeEntered env s' call a tokens := by
  obtain ⟨token2fa, totpCode, m, hentered, hrest⟩ := h
  exact ⟨token2fa, totpCode, m, later.entered hentered, hrest⟩

theorem Earned.later (later : Later s s') {token2fa : String}
    (h : Earned config env s token2fa) : Earned config env s' token2fa := by
  obtain ⟨call, hcall, a, claims, hpassword, hrest⟩ := h
  exact ⟨call, later.calls.subset hcall, a, claims, hpassword.later later, hrest⟩

theorem Earns.later (later : Later s s') {tokens : AuthTokens String}
    (h : Earns config env s tokens) : Earns config env s' tokens := by
  rcases h with ⟨htype, call, hcall, a, hpassword, hissued⟩ |
    ⟨first, second, a, b, hcalls, hfirst, hsecond, hsame⟩
  · exact Or.inl ⟨htype, call, later.calls.subset hcall, a, hpassword.later later, hissued⟩
  · exact Or.inr ⟨first, second, a, b, hcalls.trans later.calls.sublist, hfirst.later later,
      hsecond.later later, hsame⟩

theorem Brings.later (later : Later s s') {response : Auth.Response String}
    (h : Brings config env s response) : Brings config env s' response := by
  cases response with
  | login response =>
      cases response with
      | requiresTwoFactor token2fa tOtpUrl => exact Earned.later later h
      | authenticated tokens => exact Earns.later later h
  | tokens tokens => exact Earns.later later h
  | success changed => trivial

theorem Kept.later (kept : Kept config env s) (later : Later s s')
    (hitem : ∀ token2fa, s'.item = some token2fa →
      s.item = some token2fa ∨ Earned config env s' token2fa)
    (hpage : s'.twoFactorToken = s.twoFactorToken ∨ s'.twoFactorToken = "" ∨
      Earned config env s' s'.twoFactorToken)
    (hmutations : ∀ m ∈ s'.mutations, m ∈ s.mutations)
    (hsigned : ∀ tokens ∈ s'.signedIn, tokens ∈ s.signedIn ∨ Earns config env s' tokens) :
    Kept config env s' := by
  constructor
  · intro token2fa h
    rcases hitem token2fa h with hold | hnew
    · exact (kept.item token2fa hold).later later
    · exact hnew
  · rcases hpage with hold | hnew
    · rw [hold]
      exact kept.page.imp_right (Earned.later later)
    · exact hnew
  · intro m hm
    obtain ⟨hinput, htype, htoken⟩ := kept.sent m (hmutations m hm)
    exact ⟨later.entered hinput, htype, fun token2fa h => (htoken token2fa h).later later⟩
  · intro m hm response hanswer
    exact (kept.answers m (hmutations m hm) response hanswer).later later
  · intro tokens htokens
    rcases hsigned tokens htokens with hold | hnew
    · exact (kept.signedIn tokens hold).later later
    · exact hnew

end Monotone

section Server

open Prog

variable {env : Env String}

theorem login_challenge (loginId password userType : String) (m : LoginRequestMeta) (s : Server) :
    wp (answer env) (login loginId password userType m) (fun r _ => ∀ token2fa tOtpUrl,
      r = .ok (.requiresTwoFactor token2fa tOtpUrl) → ∃ a claims,
        s.accounts.findByLoginIdAndUserType env.sameUserType loginId userType = some a ∧
          env.passwordMatches password a.password = true ∧ token2fa = env.sign claims ∧
          claims.sub = Nat.repr a.id) s := by
  simp only [login, wp_call_bind, answer]
  cases hfind : s.accounts.findByLoginIdAndUserType env.sameUserType loginId userType with
  | none => intro _ _ h; cases h
  | some account =>
      dsimp only
      split
      · refine wp_bind_of (handleLockedLogin_minted env account m s) ?_ ?_
        · intro _ _ _ _ _ h; cases h
        · intro _ _ _ _ _ h; cases h
      · rw [wp_validateAccountStatus]
        cases statusError account.status with
        | some key => intro _ _ h; cases h
        | none =>
            dsimp only
            rw [wp_bind, wp_verifyPassword]
            dsimp only
            split
            next hpassword =>
              refine wp_bind_of (validatePasswordExpiry_quiet account s) ?_ ?_
              · rintro _ s' -
                split
                · rw [wp_call_bind, signTwoFactorToken, wp_call_bind]
                  refine wp_bind_of (createTotpRegistrationUrlIfRequired_minted env account _) ?_ ?_
                  · intro url _ _ token2fa tOtpUrl heq
                    cases heq
                    exact ⟨account, _, rfl, hpassword, rfl, rfl⟩
                  · intro _ _ _ _ _ h; cases h
                · refine wp_bind_of (issueTokens_spec env account s') ?_ ?_
                  · intro tokens s'' _
                    refine wp_bind_of (recordSuccess_minted env account m s'') ?_ ?_
                    · intro _ _ _ _ _ h; cases h
                    · intro _ _ _ _ _ h; cases h
                  · intro _ _ _ _ _ h; cases h
              · intro _ _ _ _ _ h; cases h
            next =>
              refine wp_bind_of (handleFailedLogin_minted env account m _ s) ?_ ?_
              · intro _ _ _ _ _ h; cases h
              · intro _ _ _ _ _ h; cases h

end Server

section Way

variable {config : Config} {req authReq : FastifyRequest} {request : Auth.Request String}

theorem body_of_transform {zod : Zod} {schema : Schema} {value body : List (String × String)}
    (h : ZodValidationPipe.transform zod schema value = .ok body) :
    body = schema.filterMap fun field => (value.lookup field.1).map (field.1, ·) := by
  unfold ZodValidationPipe.transform at h
  split at h
  · exact (Except.ok.inj h).symm
  · cases h

theorem userType_arrives {sent : SentHeaders} (h : Arrives sent req) :
    AuthController.headerValue req "x-user-type" = sent.get "X-User-Type" := by
  have harrives := h "X-User-Type" List.mem_cons_self
  rwa [show Auth.toLowerCase "X-User-Type" = "x-user-type" from by decide] at harrives

theorem token_arrives {sent : SentHeaders} (h : Arrives sent req) :
    AuthController.headerValue req "x-2fa-token" = sent.get "X-2FA-Token" := by
  have harrives := h "X-2FA-Token" (List.mem_cons_of_mem _ List.mem_cons_self)
  rwa [show Auth.toLowerCase "X-2FA-Token" = "x-2fa-token" from by decide] at harrives

theorem routed_login {loginId password : String} {sent : SentHeaders} (harrives : Arrives sent req)
    (hauth : Arrives ((Input.login loginId password).post config req).headers authReq)
    (h : routed config ((Input.login loginId password).post config req) authReq = some request) :
    ∃ m, request = .login loginId password ((sent.get "X-User-Type").getD "") m := by
  have htype : (AuthController.headerValue authReq "x-user-type").getD "" =
      (sent.get "X-User-Type").getD "" := by
    rw [userType_arrives hauth, ← userType_arrives harrives]
    show ((JsMap.set _ _ _).get "X-User-Type").getD "" = _
    rw [JsMap.get_set, if_pos rfl]
    rfl
  unfold routed at h
  rw [if_pos (show ((Input.login loginId password).post config req).path = "/auth/login" from rfl)]
    at h
  split at h
  next => cases h
  next body hbody =>
    rw [htype, body_of_transform hbody] at h
    exact ⟨_, (Option.some.inj h).symm⟩

theorem routed_verifyTwoFactor {totpCode : String} {sent : SentHeaders}
    (harrives : Arrives sent req)
    (hauth : Arrives ((Input.verifyTwoFactor totpCode).post config req).headers authReq)
    (h : routed config ((Input.verifyTwoFactor totpCode).post config req) authReq = some request) :
    ∃ m, request = .verifyTwoFactor ((sent.get "X-2FA-Token").getD "") totpCode m := by
  have htoken : (AuthController.headerValue authReq "x-2fa-token").getD "" =
      (sent.get "X-2FA-Token").getD "" := by
    rw [token_arrives hauth, ← token_arrives harrives]
    show ((JsMap.set _ _ _).get "X-2FA-Token").getD "" = _
    rw [JsMap.get_set, if_pos rfl]
    rfl
  have hpath : ((Input.verifyTwoFactor totpCode).post config req).path = "/auth/2fa/verify" := rfl
  unfold routed at h
  rw [hpath, if_neg (by decide), if_pos rfl] at h
  split at h
  next => cases h
  next body hbody =>
    rw [htoken, body_of_transform hbody] at h
    exact ⟨_, (Option.some.inj h).symm⟩

end Way

/-! ## Steps keep what was earned -/

section Steps

variable {config : Config} {env : Env String} {s s' : State}

theorem later_handled (request : Auth.Request String) : Later s (s.handled env request) :=
  ⟨⟨[s.world.call env request], rfl⟩, fun _ h => h⟩

theorem tokensFor_of_issued {w : World String} {request : Auth.Request String}
    {tokens : AuthTokens String} (h : issuedTokens (w.call env request).result = some tokens) :
    ∃ a, request.Passes env w.server a ∧ (w.call env request).TokensFor env a := by
  obtain ⟨a, hpasses, _⟩ := Auth.passes_of_issued h
  exact ⟨a, hpasses, tokensFor_iff_passes.mpr hpasses⟩

theorem brings_login {loginId password : String} {m : LoginRequestMeta}
    (hentered : Input.login loginId password ∈ s.entered) {response : Auth.Response String}
    (h : (s.world.call env (.login loginId password config.userType m)).result = .ok response) :
    Brings config env (s.handled env (.login loginId password config.userType m)) response := by
  have hcall : s.world.call env (.login loginId password config.userType m) ∈
      (s.handled env (.login loginId password config.userType m)).world.calls :=
    List.mem_append_right _ List.mem_cons_self
  have hchallenge : Prog.wp (answer env)
      (Auth.Request.login loginId password config.userType m : Auth.Request String).program
      (fun r _ => ∀ response, r = .ok response → ∃ answered, response = .login answered ∧
        ∀ token2fa tOtpUrl, answered = .requiresTwoFactor token2fa tOtpUrl → ∃ a claims,
          s.world.server.accounts.findByLoginIdAndUserType env.sameUserType loginId
              config.userType = some a ∧
            env.passwordMatches password a.password = true ∧ token2fa = env.sign claims ∧
            claims.sub = Nat.repr a.id) s.world.server := by
    refine Prog.wp_bind_of (login_challenge loginId password config.userType m _) ?_ ?_
    · rintro answered _ hanswered _ ⟨⟩
      exact ⟨answered, rfl, fun token2fa tOtpUrl heq => hanswered token2fa tOtpUrl (heq ▸ rfl)⟩
    · exact fun _ _ _ => nofun
  obtain ⟨answered, rfl, htoken⟩ := hchallenge response h
  cases answered with
  | requiresTwoFactor token2fa tOtpUrl =>
      obtain ⟨a, claims, hfind, hpassword, hsign, hsub⟩ := htoken token2fa tOtpUrl rfl
      exact ⟨_, hcall, a, claims, ⟨loginId, password, m, hentered, rfl, hfind, hpassword⟩, hsign,
        hsub⟩
  | authenticated tokens =>
      have hissued : issuedTokens (s.world.call env
          (.login loginId password config.userType m)).result = some tokens := by
        rw [h]
        rfl
      obtain ⟨a, hpasses, htokens⟩ := tokensFor_of_issued hissued
      obtain ⟨hfind, _, _, hpassword, _, htype, _⟩ := hpasses
      exact Or.inl ⟨htype, _, hcall, a, ⟨loginId, password, m, hentered, rfl, hfind, hpassword⟩,
        hissued, htokens⟩

theorem brings_verifyTwoFactor (hempty : ∀ now, env.jwtVerify now "" = none)
    {token2fa totpCode : String} {m : LoginRequestMeta}
    (hentered : Input.verifyTwoFactor totpCode ∈ s.entered)
    (hearned : token2fa = "" ∨ Earned config env s token2fa) {response : Auth.Response String}
    (h : (s.world.call env (.verifyTwoFactor token2fa totpCode m)).result = .ok response) :
    Brings config env (s.handled env (.verifyTwoFactor token2fa totpCode m)) response := by
  have hissued : ∃ tokens, response = .tokens tokens := by
    have hprogram : Prog.wp (answer env)
        (Auth.Request.verifyTwoFactor token2fa totpCode m : Auth.Request String).program
        (fun r _ => ∀ response, r = .ok response → ∃ tokens, response = .tokens tokens)
        s.world.server := by
      refine Prog.wp_bind_of (verifyTwoFactor_outcome token2fa totpCode m _) ?_ ?_
      · rintro tokens _ - _ ⟨⟩
        exact ⟨tokens, rfl⟩
      · exact fun _ _ _ => nofun
    exact hprogram response h
  obtain ⟨tokens, rfl⟩ := hissued
  have hissued : issuedTokens (s.world.call env
      (.verifyTwoFactor token2fa totpCode m)).result = some tokens := by
    rw [h]
    rfl
  obtain ⟨b, hpasses, htokens⟩ := tokensFor_of_issued hissued
  obtain ⟨claims', hverify, _, hfind, hcode, _⟩ := hpasses
  rcases hearned with rfl | ⟨first, hfirst, a, claims, hpassword, rfl, hsub⟩
  · rw [hempty] at hverify
    cases hverify
  · rw [env.jwtVerify_sign] at hverify
    split at hverify
    next =>
      obtain rfl := Option.some.inj hverify
      rw [hsub, JsString.number_repr] at hfind
      have hcalls :
          [first, s.world.call env (.verifyTwoFactor (env.sign claims) totpCode m)].Sublist
            (s.world.calls ++ [s.world.call env (.verifyTwoFactor (env.sign claims) totpCode m)]) :=
        (List.singleton_sublist.mpr hfirst).append (List.Sublist.refl _)
      exact Or.inr ⟨first, _, a, b, hcalls, hpassword.later (later_handled _),
        ⟨_, totpCode, m, hentered, rfl, hissued, htokens, hcode⟩,
        (Option.some.inj (AccountTable.id_of_findById hfind)).symm⟩
    next => cases hverify

theorem entries_tokenHeader (page : Option String) :
    (setIfTruthy .empty "X-2FA-Token" page).entries =
      ((truthy page).map fun token2fa => ("X-2FA-Token", token2fa)).toList := by
  unfold setIfTruthy
  cases truthy page <;> rfl

theorem get_authLink_userType (accessToken item page : Option String) :
    (authLink config accessToken item (setIfTruthy .empty "X-2FA-Token" page)).get "X-User-Type" =
      some config.userType := by
  unfold authLink
  rw [entries_tokenHeader]
  cases truthy page <;> simp [JsMap.get_set, get_setIfTruthy]

theorem get_authLink_token (accessToken item page : Option String) :
    (authLink config accessToken item (setIfTruthy .empty "X-2FA-Token" page)).get "X-2FA-Token" =
      (truthy page).or (truthy item) := by
  unfold authLink
  rw [entries_tokenHeader]
  cases truthy page <;> simp [JsMap.get_set, get_setIfTruthy]

theorem kept_send (kept : Kept config env s) (input : Input) {headers : SentHeaders}
    (htype : headers.get "X-User-Type" = some config.userType)
    (htoken : ∀ token2fa, headers.get "X-2FA-Token" = some token2fa →
      Earned config env s token2fa) : Kept config env (s.send input headers) := by
  have later : Later s (s.send input headers) := ⟨List.prefix_refl _, List.subset_append_left _ _⟩
  constructor
  · exact fun token2fa h => (kept.item token2fa h).later later
  · exact kept.page.imp_right (Earned.later later)
  · intro m hm
    rcases List.mem_append.mp hm with hm | hm
    · obtain ⟨hinput, hold⟩ := kept.sent m hm
      exact ⟨later.entered hinput, hold.1, fun token2fa h => (hold.2 token2fa h).later later⟩
    · rw [List.mem_singleton.mp hm]
      exact ⟨List.mem_append_right _ List.mem_cons_self, htype,
        fun token2fa h => (htoken token2fa h).later later⟩
  · intro m hm response hanswer
    rcases List.mem_append.mp hm with hm | hm
    · exact (kept.answers m hm response hanswer).later later
    · rw [List.mem_singleton.mp hm] at hanswer
      cases hanswer
  · exact fun tokens h => (kept.signedIn tokens h).later later

/-- A mutation is answered with what was earned. -/
theorem kept_answered (kept : Kept config env s) (i : Nat) {m : Mutation} (hm : m ∈ s.mutations)
    {data : Option (Auth.Response String)}
    (hdata : ∀ response, data = some response → Brings config env s response) :
    Kept config env (s.answered i m data) := by
  refine ⟨kept.item, kept.page, fun m' hm' => ?_, fun m' hm' response hanswer => ?_, kept.signedIn⟩
  · rcases List.mem_or_eq_of_mem_set hm' with hold | rfl
    · exact kept.sent m' hold
    · exact kept.sent m hm
  · rcases List.mem_or_eq_of_mem_set hm' with hold | rfl
    · exact kept.answers m' hold response hanswer
    · exact hdata response (Option.some.inj hanswer)

theorem kept_serve (hempty : ∀ now, env.jwtVerify now "" = none) (kept : Kept config env s)
    (i : Nat) {m : Mutation} (hm : m ∈ s.mutations) {req authReq : FastifyRequest}
    (harrives : Arrives m.headers req) (hauth : Arrives (m.input.post config req).headers authReq)
    {request : Auth.Request String}
    (h : routed config (m.input.post config req) authReq = some request) :
    Kept config env (s.serve env i m request) := by
  obtain ⟨hentered, htype, htoken⟩ := kept.sent m hm
  have hkept : Kept config env (s.handled env request) :=
    kept.later (later_handled request) (fun _ => Or.inl) (Or.inl rfl) (fun _ h => h)
      (fun _ => Or.inl)
  refine kept_answered hkept i hm fun response hresponse => ?_
  have hresult : (s.world.call env request).result = .ok response := by
    cases hcall : (s.world.call env request).result with
    | error error =>
        rw [hcall] at hresponse
        cases hresponse
    | ok answered =>
        rw [hcall] at hresponse
        rw [Option.some.inj hresponse]
  cases hinput : m.input with
  | login loginId password =>
      rw [hinput] at hentered hauth h
      obtain ⟨_, rfl⟩ := routed_login harrives hauth h
      rw [htype] at hresult ⊢
      exact brings_login hentered hresult
  | verifyTwoFactor totpCode =>
      rw [hinput] at hentered hauth h
      obtain ⟨_, rfl⟩ := routed_verifyTwoFactor harrives hauth h
      refine brings_verifyTwoFactor hempty hentered ?_ hresult
      cases hsent : m.headers.get "X-2FA-Token" with
      | none => exact Or.inl rfl
      | some token2fa => exact Or.inr (htoken token2fa hsent)

theorem kept_settle (kept : Kept config env s) (i : Nat) {m : Mutation} (hm : m ∈ s.mutations)
    {data : Option (Auth.Response String)} (hdata : m.answer = some data) :
    Kept config env ({ s with mutations := s.mutations.eraseIdx i }.settle m data) := by
  have hold : ∀ m' ∈ s.mutations.eraseIdx i, m' ∈ s.mutations :=
    fun _ h => List.mem_of_mem_eraseIdx h
  have same : ∀ s' : State, s'.world = s.world → s'.entered = s.entered → Later s s' :=
    fun s' hworld hentered => ⟨hworld ▸ List.prefix_refl _, hentered ▸ List.Subset.refl _⟩
  have hbrings : ∀ response, data = some response → Brings config env s response :=
    fun response h => kept.answers m hm response (h ▸ hdata)
  unfold State.settle
  split
  next token2fa _ _ =>
    have hearned : Earned config env s token2fa := hbrings _ rfl
    split
    · exact kept.later (same _ rfl rfl) (fun _ => Or.inl) (Or.inl rfl) hold (fun _ => Or.inl)
    · split
      · refine kept.later (same _ rfl rfl) ?_ (Or.inr (Or.inr hearned)) hold (fun _ => Or.inl)
        rintro _ ⟨⟩
        exact Or.inr hearned
      · refine kept.later (same _ rfl rfl) ?_ (Or.inl rfl) hold (fun _ => Or.inl)
        rintro _ ⟨⟩
        exact Or.inr hearned
  next tokens _ =>
    have hearns : Earns config env s tokens := hbrings _ rfl
    refine kept.later (same _ rfl rfl) (fun _ => Or.inl) (Or.inl rfl) hold fun other hother => ?_
    rcases List.mem_append.mp hother with hother | hother
    · exact Or.inl hother
    · exact Or.inr (List.mem_singleton.mp hother ▸ hearns)
  next tokens _ =>
    have hearns : Earns config env s tokens := hbrings _ rfl
    refine kept.later (same _ rfl rfl) nofun (Or.inl rfl) hold fun other hother => ?_
    rcases List.mem_append.mp hother with hother | hother
    · exact Or.inl hother
    · exact Or.inr (List.mem_singleton.mp hother ▸ hearns)
  next =>
    exact kept.later (same _ rfl rfl) (fun _ => Or.inl) (Or.inl rfl) hold (fun _ => Or.inl)

theorem calls_others {w w' : World String} {e : Auth.Event String} (h : w.step env e = some w') :
    w.calls <+: w'.calls := by
  cases e with
  | requested request =>
      obtain rfl := Option.some.inj h
      exact List.prefix_append _ _
  | statusWritten id status =>
      obtain rfl := Option.some.inj h
      exact List.prefix_refl _
  | clockMoved now =>
      obtain rfl := Option.some.inj h
      exact List.prefix_refl _

/-- A token that is sent is the one of the page or the one of the local storage. -/
theorem earned_sent (kept : Kept config env s) {page : Option String}
    (hpage : ∀ token2fa, page = some token2fa → token2fa = "" ∨ Earned config env s token2fa)
    (accessToken : Option String) (token2fa : String)
    (h : (authLink config accessToken s.item (setIfTruthy .empty "X-2FA-Token" page)).get
      "X-2FA-Token" = some token2fa) : Earned config env s token2fa := by
  rw [get_authLink_token, Option.or_eq_some_iff] at h
  rcases h with htoken | ⟨_, hitem⟩
  · obtain ⟨hsome, hne⟩ := Option.filter_eq_some_iff.mp htoken
    exact (hpage token2fa hsome).resolve_left (of_decide_eq_true hne)
  · exact kept.item token2fa (Option.filter_eq_some_iff.mp hitem).1

theorem kept_submitLogin (kept : Kept config env s) {loginId password : String}
    {accessToken : Option String}
    (h : step config env s (.submitLogin loginId password accessToken) = some s') :
    Kept config env s' := by
  unfold step at h
  dsimp only at h
  split at h
  next =>
    obtain rfl := Option.some.inj h
    exact kept_send kept _ (get_authLink_userType accessToken s.item none)
      (@earned_sent config env s kept none nofun accessToken)
  next => cases h

theorem kept_submitOtp (kept : Kept config env s) {totpCode : String}
    {accessToken : Option String}
    (h : step config env s (.submitOtp totpCode accessToken) = some s') : Kept config env s' := by
  unfold step at h
  dsimp only at h
  split at h
  next =>
    obtain rfl := Option.some.inj h
    refine kept_send kept _ (get_authLink_userType accessToken s.item _)
      (earned_sent kept ?_ accessToken)
    rintro _ ⟨⟩
    exact kept.page
  next => cases h

theorem kept_served (hempty : ∀ now, env.jwtVerify now "" = none) (kept : Kept config env s)
    {i : Nat} {req authReq : FastifyRequest}
    (h : step config env s (.served i req authReq) = some s') : Kept config env s' := by
  unfold step at h
  dsimp only at h
  split at h
  next => cases h
  next m hm =>
    have hmem : m ∈ s.mutations := List.mem_of_getElem? hm
    split at h
    next harrive =>
      obtain ⟨_, harrives, hauth⟩ := harrive
      split at h
      next =>
        obtain rfl := Option.some.inj h
        exact kept_answered kept i hmem nofun
      next request hrouted =>
        obtain rfl := Option.some.inj h
        exact kept_serve hempty kept i hmem harrives hauth hrouted
    next => cases h

theorem kept_settled (kept : Kept config env s) {i : Nat}
    (h : step config env s (.settled i) = some s') : Kept config env s' := by
  unfold step at h
  dsimp only at h
  split at h
  next => cases h
  next m hm =>
    split at h
    next => cases h
    next data hdata =>
      obtain rfl := Option.some.inj h
      exact kept_settle kept i (List.mem_of_getElem? hm) hdata

theorem kept_step (hempty : ∀ now, env.jwtVerify now "" = none) (kept : Kept config env s)
    {e : Event} (h : step config env s e = some s') : Kept config env s' := by
  have hcalls : s.world.calls <+: s.world.calls := List.prefix_refl _
  cases e with
  | mounted =>
      obtain rfl := Option.some.inj h
      exact kept.later ⟨hcalls, fun _ h => h⟩ (fun _ => Or.inl) (Or.inr (Or.inl rfl))
        (fun _ h => h) (fun _ => Or.inl)
  | submitLogin loginId password accessToken => exact kept_submitLogin kept h
  | submitOtp totpCode accessToken => exact kept_submitOtp kept h
  | back =>
      simp only [step] at h
      split at h
      next =>
        obtain rfl := Option.some.inj h
        exact kept.later ⟨hcalls, fun _ h => h⟩ nofun (Or.inr (Or.inl rfl)) (fun _ h => h)
          (fun _ => Or.inl)
      next => cases h
  | served i req authReq => exact kept_served hempty kept h
  | failed i =>
      simp only [step] at h
      split at h
      next => cases h
      next m hm =>
        obtain rfl := Option.some.inj h
        exact kept_answered kept i (List.mem_of_getElem? hm) nofun
  | settled i => exact kept_settled kept h
  | reload =>
      obtain rfl := Option.some.inj h
      exact kept.later ⟨hcalls, fun _ h => h⟩ (fun _ => Or.inl) (Or.inl rfl) nofun
        (fun _ => Or.inl)
  | others e =>
      obtain ⟨world, hworld, rfl⟩ := Option.map_eq_some_iff.mp h
      exact kept.later ⟨calls_others hworld, fun _ h => h⟩ (fun _ => Or.inl) (Or.inl rfl)
        (fun _ h => h) (fun _ => Or.inl)

theorem kept_start (accounts : AccountTable) (now : Nat) :
    Kept config env (start accounts now) :=
  ⟨nofun, Or.inl rfl, nofun, nofun, nofun⟩

end Steps

/-- Whatever others do and whatever comes late or is lost, the sessions of a browser go back to a
password that was entered on its pages and then, where the type of user needs a second factor, to a
code that was entered there and fits the same account. -/
theorem signed_in {config : Config} {env : Env String}
    (hempty : ∀ now, env.jwtVerify now "" = none) (accounts : AccountTable) (now : Nat)
    {events : List Event} {s : State}
    (hrun : run (step config env) (start accounts now) events = some s) :
    ∀ tokens ∈ s.signedIn, Earns config env s tokens :=
  (run_invariant (I := Kept config env) (fun _ _ _ kept h => kept_step hempty kept h)
    (kept_start accounts now) hrun).signedIn

section Administrator

def configured : Config := ⟨"key", "ADMIN_BO", .always "admin", ⟨"Required", fun _ => "Invalid"⟩⟩

def received (headers : JsMap String HeaderValue) : FastifyRequest := ⟨headers, "10.0.0.1"⟩

def withType : JsMap String HeaderValue := JsMap.empty.set "x-user-type" (.one "ADMIN_BO")

def token2fa : HeaderValue := .one (plainText.sign challenge)

def both : List Event :=
  [.mounted, .submitLogin "admin" "pw" none,
    .served 0 (received withType) (received withType), .settled 0,
    .submitOtp "123456" none,
    .served 0 (received (withType.set "x-2fa-token" token2fa))
      (received (JsMap.empty.set "x-2fa-token" token2fa)),
    .settled 0]

theorem signed_in_administrator :
    ∃ s, run (step configured plainText) (start administrators 0) both = some s ∧
      ∃ tokens ∈ s.signedIn, Earns configured plainText s tokens := by
  have hone : (run (step configured plainText) (start administrators 0) both).map
      (fun s => s.signedIn.length) = some 1 := by
    decide +kernel
  obtain ⟨s, hrun, hlength⟩ := Option.map_eq_some_iff.mp hone
  obtain ⟨tokens, htokens⟩ := List.length_eq_one_iff.mp hlength
  have hmem : tokens ∈ s.signedIn := by
    rw [htokens]
    exact List.mem_cons_self
  have hempty : ∀ now, plainText.jwtVerify now "" = none := by
    intro now
    rfl
  exact ⟨s, hrun, tokens, hmem, signed_in hempty administrators 0 hrun tokens hmem⟩

end Administrator

end NestGateway.Ui.SignIn
