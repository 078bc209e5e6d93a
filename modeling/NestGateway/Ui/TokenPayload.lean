import NestGateway.Auth.Compact
import NestGateway.Ui.AuthContext

/-! # The user the page shows

The page reads the user off the stored access token, without its key. What it
reads are the claims that the auth server has made from the account, and while a
session lasts they stay those of the account its tokens are refreshed for.
-/

namespace NestGateway.Ui

open Runs GoJson Text
open Auth (Env Identity Account Request Server buildAccessTokenPayload answer)
open Gateway (textField)
open JsString (truthy truthy_eq_some truthy_of_ne)

structure TokenPayload where
  sub : String
  loginId : String
  name : String
  userType : String
  roleType : String
  customerNo : String
  deriving Repr, DecidableEq

/-- The value of the second part of the text, none when reading it throws. -/
def payloadValue (token : String) : Option Json := do
  let base64 ← (token.toList.splitOn '.')[1]?
  let bytes ← Base64.atob (Base64.fromUrl base64)
  decode Runtime.ascii (String.ofList (Utf8.decode bytes))

/-- `typeof payload.key === 'string' ? payload.key : ''`; a value that is no object has no
fields. -/
def payloadField (payload : Json) (key : String) : String :=
  match payload with
  | .obj record => (textField record key).getD ""
  | _ => ""

/-- The fields of `null` cannot be read. -/
def parseJwtPayload (token : String) : Option TokenPayload :=
  match payloadValue token with
  | none => none
  | some .null => none
  | some payload => some {
      sub := payloadField payload "sub"
      loginId := payloadField payload "loginId"
      name := payloadField payload "name"
      userType := payloadField payload "userType"
      roleType := payloadField payload "roleType"
      customerNo := payloadField payload "customerNo" }

def TokenPayload.user (payload : TokenPayload) : User where
  loginId := payload.loginId
  name := payload.name
  userType := payload.userType
  roleType := payload.roleType

def userOf (token : String) : Option User := (parseJwtPayload token).map TokenPayload.user

theorem payloadValue_compact {token : String} {header signature : List UInt8}
    {claims : Auth.SignedClaims} {members : List (String × Json)}
    (h : members.Perm claims.members)
    (htoken : token.toList = Auth.compact header signature members) :
    payloadValue token = some (.obj members) := by
  have hexchangeable : Exchangeable Runtime.ascii 0 (.obj members) := by
    have hclaims := Auth.exchangeable_members claims
    cases hclaims with
    | obj hdepth hkeys hms =>
        exact .obj hdepth ((h.map Prod.fst).nodup_iff.mpr hkeys) fun m hmem =>
          hms m (h.mem_iff.mp hmem)
  have hpart : (token.toList.splitOn '.')[1]? =
      some (Base64.encodeUrl (Utf8.encode (jsonText (.obj members)))) := by
    rw [htoken, Auth.splitOn_compact, List.getElem?_cons_succ, List.getElem?_cons_zero]
  unfold payloadValue
  rw [hpart, Option.bind_eq_bind, Option.bind_some, Base64.atob_fromUrl, Option.bind_eq_bind,
    Option.bind_some, Auth.decode_encode_obj]
  exact decode_stringify hexchangeable

/-- The page reads the claims of a token that was signed. -/
theorem parseJwtPayload_sign {env : Env String} (compact : env.Compact)
    (claims : Auth.SignedClaims) :
    parseJwtPayload (env.sign claims) = some {
      sub := claims.sub
      loginId := claims.loginId.getD ""
      name := claims.name.getD ""
      userType := claims.userType
      roleType := claims.roleType.getD ""
      customerNo := claims.customerNo.getD "" } := by
  obtain ⟨header, signature, members, hperm, htoken⟩ := compact claims
  have hfield : ∀ key value, (key, value) ∈ claims.texts →
      payloadField (.obj members) key = value.getD "" := fun key value hmem =>
    congrArg (fun field => field.getD "") (Auth.textField_members hperm hmem)
  unfold parseJwtPayload
  rw [payloadValue_compact hperm htoken]
  simp only [Option.some.injEq, TokenPayload.mk.injEq]
  refine ⟨hfield _ (some claims.sub) ?_, hfield _ claims.loginId ?_, hfield _ claims.name ?_,
    hfield _ (some claims.userType) ?_, hfield _ claims.roleType ?_,
    hfield _ claims.customerNo ?_⟩
  all_goals simp [Auth.SignedClaims.texts]

/-! ## Tokens as plain texts -/

/-- The text of some claims; there is one text of them, so it needs no signature. -/
def tokenText (claims : Auth.SignedClaims) : String :=
  String.ofList (Auth.compact (Utf8.encode "RS256".toList) [] claims.members)

def numberField (record : List (String × Json)) (key : String) : Option Nat :=
  match record.lookup key with
  | some (.num text) => JsString.number text
  | _ => none

def claimsOf (record : List (String × Json)) : Option Auth.SignedClaims := do
  let sub ← textField record "sub"
  let userType ← textField record "userType"
  let iss ← textField record "iss"
  let iat ← numberField record "iat"
  let exp ← numberField record "exp"
  some {
    sub, userType, iss, iat, exp
    type := textField record "type"
    loginId := textField record "loginId"
    name := textField record "name"
    customerNo := textField record "customerNo"
    roleType := textField record "roleType"
    jti := textField record "jti" }

def readClaims (token : String) : Option Auth.SignedClaims :=
  match payloadValue token with
  | some (.obj record) => (claimsOf record).filter (tokenText · = token)
  | _ => none

theorem claimsOf_members (claims : Auth.SignedClaims) : claimsOf claims.members = some claims := by
  have hfield : ∀ key value, (key, value) ∈ claims.texts →
      textField claims.members key = value := fun key value hmem =>
    Auth.textField_members (List.Perm.refl _) hmem
  have hiat : numberField claims.members "iat" = some claims.iat :=
    JsString.number_repr claims.iat
  have hexp : numberField claims.members "exp" = some claims.exp :=
    JsString.number_repr claims.exp
  unfold claimsOf
  rw [hfield "sub" (some claims.sub) (by simp [Auth.SignedClaims.texts]),
    hfield "userType" (some claims.userType) (by simp [Auth.SignedClaims.texts]),
    hfield "iss" (some claims.iss) (by simp [Auth.SignedClaims.texts]), hiat, hexp,
    hfield "type" claims.type (by simp [Auth.SignedClaims.texts]),
    hfield "loginId" claims.loginId (by simp [Auth.SignedClaims.texts]),
    hfield "name" claims.name (by simp [Auth.SignedClaims.texts]),
    hfield "customerNo" claims.customerNo (by simp [Auth.SignedClaims.texts]),
    hfield "roleType" claims.roleType (by simp [Auth.SignedClaims.texts]),
    hfield "jti" claims.jti (by simp [Auth.SignedClaims.texts])]
  rfl

theorem readClaims_tokenText (claims : Auth.SignedClaims) :
    readClaims (tokenText claims) = some claims := by
  have hvalue : payloadValue (tokenText claims) = some (.obj claims.members) :=
    payloadValue_compact (List.Perm.refl _) String.toList_ofList
  unfold readClaims
  rw [hvalue]
  dsimp only
  rw [claimsOf_members, Option.filter_some, if_pos (decide_eq_true rfl)]

/-- Packages on plain values whose tokens are texts. -/
def plainText : Env String where
  production := true
  sameUserType := Env.plain.sameUserType
  sign := tokenText
  jwtVerify now token := (readClaims token).bind (Env.plain.jwtVerify now)
  compare := Env.plain.compare
  hashSync := Env.plain.hashSync
  randomUUID := Env.plain.randomUUID
  generateSecret := Env.plain.generateSecret
  keyuri := Env.plain.keyuri
  totpVerify := Env.plain.totpVerify
  jwtVerify_sign now claims := by
    rw [readClaims_tokenText]
    exact Env.plain.jwtVerify_sign now claims
  randomUUID_nonblank := Env.plain.randomUUID_nonblank

def payloadOf (a : Account) : TokenPayload where
  sub := Nat.repr a.id
  loginId := JsString.trim a.loginId
  name := JsString.trim (a.name.getD "")
  userType := JsString.trim a.userType
  roleType := (Auth.normalizeRoleTypeClaim a.roleType).getD ""
  customerNo := Auth.normalizeOptionalClaim a.customerNo

theorem payload_eq {a : Account} {payload : Auth.AccessTokenPayload}
    (h : (buildAccessTokenPayload a : Except (Auth.AuthError String) _) = .ok payload) :
    payload = {
      sub := Nat.repr a.id
      loginId := JsString.trim a.loginId
      name := JsString.trim (a.name.getD "")
      userType := JsString.trim a.userType
      customerNo := Auth.normalizeOptionalClaim a.customerNo
      roleType := Auth.normalizeRoleTypeClaim a.roleType } := by
  obtain ⟨sub, hsub, h⟩ := exists_of_except_bind h
  obtain ⟨loginId, hlogin, h⟩ := exists_of_except_bind h
  obtain ⟨name, hname, h⟩ := exists_of_except_bind h
  obtain ⟨userType, htype, h⟩ := exists_of_except_bind h
  obtain ⟨_, hid, _, rfl⟩ := Auth.nonBlank_of_requireNonBlank hsub
  obtain ⟨_, hl, _, rfl⟩ := Auth.nonBlank_of_requireNonBlank hlogin
  obtain ⟨_, hn, _, rfl⟩ := Auth.nonBlank_of_requireNonBlank hname
  obtain ⟨_, ht, _, rfl⟩ := Auth.nonBlank_of_requireNonBlank htype
  obtain rfl := Option.some.inj hid
  obtain rfl := Option.some.inj hl
  obtain rfl := Option.some.inj ht
  rw [← Except.ok.inj h, hn, JsString.trim_repr]
  rfl

section Tokens

variable {env : Env String} {identities : List Identity}

/-- An access token that the page reads as the account's. -/
def AccessOf (identities : List Identity) (a : Account) (token : String) : Prop :=
  a.identity ∈ identities ∧ parseJwtPayload token = some (payloadOf a)

/-- A refresh token that verifies to no other account. -/
def RefreshOf (env : Env String) (identities : List Identity) (a : Account) (token : String) :
    Prop :=
  a.identity ∈ identities ∧
    ∀ now claims, env.jwtVerify now token = some claims → claims.sub = Nat.repr a.id

def AnsweredBy (env : Env String) (s : Server) (request : Request String)
    (tokens : AuthTokenResponse) : Prop :=
  ∃ issued : Auth.AuthTokens String,
    Auth.issuedTokens (request.program.exec (answer env) s).1 = some issued ∧
    tokens = ⟨issued.accessToken, issued.refreshToken, issued.expiresIn⟩

/-- A server with no other accounts than the given ones answers the request with the tokens. -/
def Answers (env : Env String) (identities : List Identity) (request : Request String)
    (tokens : AuthTokenResponse) : Prop :=
  ∃ s : Server, s.accounts.identities ⊆ identities ∧ AnsweredBy env s request tokens

theorem exists_of_answers (compact : env.Compact) {request : Request String}
    {tokens : AuthTokenResponse} (h : Answers env identities request tokens) :
    ∃ (s : Server) (a : Account), AnsweredBy env s request tokens ∧ request.Passes env s a ∧
      AccessOf identities a tokens.accessToken ∧
      RefreshOf env identities a tokens.refreshToken := by
  obtain ⟨s, hidentities, issued, hissued, rfl⟩ := h
  obtain ⟨a, hpasses, hof⟩ := Auth.passes_of_issued hissued
  have hmem : a.identity ∈ identities :=
    hidentities (List.mem_map_of_mem (Request.mem_of_passes hpasses))
  refine ⟨s, a, ⟨issued, hissued, rfl⟩, hpasses, ⟨hmem, ?_⟩, hmem, fun now claims hverify => ?_⟩
  · obtain ⟨now, jti, payload, hpayload, hsign⟩ := hof.access
    dsimp only
    rw [hsign, parseJwtPayload_sign compact, payload_eq hpayload]
    rfl
  · obtain ⟨now', jti, userType, hsign⟩ := hof.refresh
    dsimp only at hverify
    rw [hsign] at hverify
    rw [← Auth.claims_of_verified hverify]
    rfl

theorem refreshed_of_answers (compact : env.Compact) (nodup : (identities.map Identity.id).Nodup)
    {a : Account} {refreshToken : String} (hrefresh : RefreshOf env identities a refreshToken)
    {tokens : AuthTokenResponse} (h : Answers env identities (.refreshTokens refreshToken) tokens) :
    AccessOf identities a tokens.accessToken ∧ RefreshOf env identities a tokens.refreshToken := by
  obtain ⟨s, b, _, ⟨claims, hverify, hfind, _⟩, haccess, hnext⟩ := exists_of_answers compact h
  have hid : b.id = a.id := by
    rw [hrefresh.2 _ _ hverify, JsString.number_repr] at hfind
    exact (Option.some.inj (Auth.AccountTable.id_of_findById hfind)).symm
  have hidentity : b.identity = a.identity :=
    List.inj_on_of_nodup_map nodup haccess.1 hrefresh.1 hid
  have hpayload : payloadOf b = payloadOf a := by
    simp only [Account.identity, Identity.mk.injEq] at hidentity
    obtain ⟨_, hloginId, hname, huserType, hcustomerNo, hroleType⟩ := hidentity
    unfold payloadOf
    rw [hid, hloginId, hname, huserType, hcustomerNo, hroleType]
  refine ⟨⟨hrefresh.1, hpayload ▸ haccess.2⟩, hrefresh.1, ?_⟩
  exact hid ▸ hnext.2

/-! ## The session of an account -/

namespace AuthState

/-- What the stored tokens, the refreshes in flight and the view show of whose session it is. -/
structure Whose (env : Env String) (identities : List Identity) (s : AuthState) (a : Account) :
    Prop where
  access : ∀ token, s.storage.accessToken = some token → AccessOf identities a token
  refresh : ∀ token, s.storage.refreshToken = some token → RefreshOf env identities a token
  mutations : ∀ mutation ∈ s.mutations, mutation.origin = s.session →
    RefreshOf env identities a mutation.refreshToken
  user : s.isAuthenticated = true →
    a.identity ∈ identities ∧ s.user = some (payloadOf a).user

/-- The tokens of a login are answered to some request, those of a mutation to the refresh of its
token. -/
def Served (env : Env String) (identities : List Identity) (s : AuthState) : Event → Prop
  | .login tokens _ => ∃ request, Answers env identities request tokens
  | .completed i tokens _ => ∀ mutation, s.mutations[i]? = some mutation →
      ∀ answered, tokens = some answered →
        Answers env identities (.refreshTokens mutation.refreshToken) answered
  | _ => True

theorem userOf_access {identities : List Identity} {a : Account} {token : String}
    (h : AccessOf identities a token) : userOf token = some (payloadOf a).user := by
  unfold userOf
  rw [h.2]
  rfl

section Steps

variable {env : Env String} {identities : List Identity} {s s' : AuthState} {a : Account}

theorem Whose.frame (whose : Whose env identities s a) (hstorage : s'.storage = s.storage)
    (hmutations : s'.mutations = s.mutations) (hsession : s'.session = s.session)
    (hauth : s'.isAuthenticated = s.isAuthenticated) (huser : s'.user = s.user) :
    Whose env identities s' a := by
  refine ⟨?_, ?_, ?_, ?_⟩
  · rw [hstorage]
    exact whose.access
  · rw [hstorage]
    exact whose.refresh
  · rw [hmutations, hsession]
    exact whose.mutations
  · rw [hauth, huser]
    exact whose.user

theorem Whose.stopRefreshTimer (whose : Whose env identities s a) :
    Whose env identities s.stopRefreshTimer a := by
  unfold AuthState.stopRefreshTimer
  split
  · exact whose
  · exact whose.frame rfl rfl rfl rfl rfl

theorem Whose.startRefreshTimer (whose : Whose env identities s a) (now : Int) :
    Whose env identities (s.startRefreshTimer now) a := by
  unfold AuthState.startRefreshTimer
  exact whose.stopRefreshTimer.frame rfl rfl rfl rfl rfl

theorem Whose.clearTokens (whose : Whose env identities s a) :
    Whose env identities s.clearTokens a := by
  have hcleared : Whose env identities { s with storage := {} } a :=
    ⟨nofun, nofun, whose.mutations, whose.user⟩
  exact hcleared.stopRefreshTimer

theorem whose_handleLogout (a : Account) (one : s.OneTimer)
    (horigins : ∀ mutation ∈ s.mutations, mutation.origin ≤ s.session) :
    Whose env identities s.handleLogout a := by
  rw [handleLogout_eq one]
  refine ⟨nofun, nofun, fun mutation hmem horigin => ?_, nofun⟩
  have := horigins mutation hmem
  dsimp only at horigin
  omega

theorem Whose.saveTokens (whose : Whose env identities s a) {tokens : AuthTokenResponse}
    (haccess : AccessOf identities a tokens.accessToken)
    (hrefresh : RefreshOf env identities a tokens.refreshToken) (now : Int) (origin : Nat) :
    Whose env identities (s.saveTokens now tokens origin) a where
  access _ h := Option.some.inj h ▸ haccess
  refresh _ h := Option.some.inj h ▸ hrefresh
  mutations := whose.mutations
  user := whose.user

theorem Whose.setUser (whose : Whose env identities s a) {token : String}
    (haccess : AccessOf identities a token) :
    Whose env identities { s with user := userOf token, isAuthenticated := true } a where
  access := whose.access
  refresh := whose.refresh
  mutations := whose.mutations
  user _ := ⟨haccess.1, userOf_access haccess⟩

theorem Whose.started (whose : Whose env identities s a) {refreshToken : String}
    (h : s.storage.refreshToken = some refreshToken) (caller : Caller) :
    Whose env identities
      { s with mutations := s.mutations ++ [⟨caller, refreshToken, s.storedOrigin⟩] } a := by
  refine ⟨whose.access, whose.refresh, fun mutation hmem horigin => ?_, whose.user⟩
  rcases List.mem_append.mp hmem with hmem | hmem
  · exact whose.mutations mutation hmem horigin
  · rw [List.mem_singleton.mp hmem]
    exact whose.refresh refreshToken h

theorem Whose.doRefresh (whose : Whose env identities s a) (one : s.OneTimer)
    (horigins : ∀ mutation ∈ s.mutations, mutation.origin ≤ s.session) :
    Whose env identities s.doRefresh a := by
  unfold AuthState.doRefresh
  split
  · exact whose_handleLogout a one horigins
  next htruthy => exact whose.started (truthy_eq_some.mp htruthy).1 .doRefresh

theorem Whose.init (whose : Whose env identities s a) (now : Int) :
    Whose env identities (s.init userOf now) a := by
  unfold AuthState.init
  split
  · exact whose.frame rfl rfl rfl rfl rfl
  next htruthy =>
    split
    · split
      · exact whose.clearTokens.frame rfl rfl rfl rfl rfl
      next hrefresh => exact whose.started (truthy_eq_some.mp hrefresh).1 .init
    · have hset := whose.setUser (whose.access _ (truthy_eq_some.mp htruthy).1)
      exact (hset.startRefreshTimer now).frame rfl rfl rfl rfl rfl

theorem whose_handleLogin (kept : Kept s) {tokens : AuthTokenResponse}
    (haccess : AccessOf identities a tokens.accessToken)
    (hrefresh : RefreshOf env identities a tokens.refreshToken) (now : Int) :
    Whose env identities (s.handleLogin userOf now tokens) a := by
  unfold AuthState.handleLogin
  refine Whose.startRefreshTimer ?_ now
  refine ⟨fun _ h => Option.some.inj h ▸ haccess, fun _ h => Option.some.inj h ▸ hrefresh,
    fun mutation hmem horigin => ?_, fun _ => ⟨haccess.1, userOf_access haccess⟩⟩
  have := kept.origin mutation hmem
  dsimp only at horigin
  omega

theorem Whose.erased (whose : Whose env identities s a) (i : Nat) :
    Whose env identities { s with mutations := s.mutations.eraseIdx i } a :=
  ⟨whose.access, whose.refresh,
    fun mutation hmem => whose.mutations mutation (List.mem_of_mem_eraseIdx hmem), whose.user⟩

theorem Whose.completed (whose : Whose env identities s a) (compact : env.Compact)
    (nodup : (identities.map Identity.id).Nodup) (kept : Kept s) {i : Nat} {mutation : Mutation}
    (hget : s.mutations[i]? = some mutation) {tokens : Option AuthTokenResponse} (now : Int)
    (hserved : ∀ answered, tokens = some answered →
      Answers env identities (.refreshTokens mutation.refreshToken) answered)
    (hin : mutation.origin = s.session ∨
      (tokens = none ∧ (mutation.caller = .doRefresh ∨ s.latest ≠ some .login))) :
    Whose env identities
      ({ s with mutations := s.mutations.eraseIdx i }.complete userOf now mutation tokens) a := by
  have herased := whose.erased i
  unfold complete
  cases tokens with
  | none =>
      cases mutation.caller with
      | doRefresh => exact whose_handleLogout a kept.timer (kept.erased i).origin
      | init => exact herased.clearTokens.frame rfl rfl rfl rfl rfl
  | some tokens =>
      have horigin : mutation.origin = s.session := by
        rcases hin with h | ⟨h, _⟩
        · exact h
        · cases h
      have hmutation := whose.mutations mutation (List.mem_of_getElem? hget) horigin
      obtain ⟨haccess, hrefresh⟩ :=
        refreshed_of_answers compact nodup hmutation (hserved tokens rfl)
      have hsaved := herased.saveTokens haccess hrefresh now mutation.origin
      cases mutation.caller with
      | doRefresh => exact hsaved.startRefreshTimer now
      | init =>
          exact ((hsaved.setUser haccess).startRefreshTimer now).frame rfl rfl rfl rfl rfl

/-- After a login: the request that its tokens were answered to passed with the account. -/
def LoggedIn (env : Env String) (e : Event) (a : Account) : Prop :=
  ∀ tokens now, e = .login tokens now →
    ∃ (server : Server) (request : Request String), AnsweredBy env server request tokens ∧
      request.Passes env server a

theorem loggedIn_of_ne {e : Event} (h : ∀ tokens now, e ≠ .login tokens now) :
    LoggedIn env e a :=
  fun tokens now heq => absurd heq (h tokens now)

/-- A step keeps the session with its account, or begins that of another. -/
theorem Whose.step (whose : Whose env identities s a) (compact : env.Compact)
    (nodup : (identities.map Identity.id).Nodup) (kept : Kept s) {e : Event}
    (hserved : Served env identities s e) (hin : s.InSession e)
    (h : step userOf s e = some s') : ∃ b, Whose env identities s' b ∧ LoggedIn env e b := by
  cases e with
  | mounted now =>
      simp only [AuthState.step] at h
      split at h
      · obtain rfl := Option.some.inj h
        exact ⟨a, whose.init now, loggedIn_of_ne (by simp)⟩
      · cases h
  | unmounted =>
      obtain rfl := Option.some.inj h
      exact ⟨a, whose.stopRefreshTimer, loggedIn_of_ne (by simp)⟩
  | login tokens now =>
      obtain rfl := Option.some.inj h
      obtain ⟨request, hanswers⟩ := hserved
      obtain ⟨server, b, hanswered, hpasses, haccess, hrefresh⟩ :=
        exists_of_answers compact hanswers
      refine ⟨b, whose_handleLogin kept haccess hrefresh now, fun tokens' now' heq => ?_⟩
      obtain ⟨rfl, rfl⟩ := Event.login.inj heq
      exact ⟨server, request, hanswered, hpasses⟩
  | logout =>
      obtain rfl := Option.some.inj h
      exact ⟨a, whose_handleLogout a kept.timer kept.origin, loggedIn_of_ne (by simp)⟩
  | fired timeout =>
      simp only [AuthState.step] at h
      split at h
      · obtain rfl := Option.some.inj h
        have hfired : Whose env identities
            { s with timeouts := s.timeouts.filter (· ≠ timeout) } a :=
          whose.frame rfl rfl rfl rfl rfl
        exact ⟨a, hfired.doRefresh (fun t hmem => kept.timer t (List.mem_filter.mp hmem).1)
          kept.origin, loggedIn_of_ne (by simp)⟩
      · cases h
  | completed i tokens now =>
      simp only [AuthState.step] at h
      split at h
      · cases h
      next mutation hget =>
        obtain rfl := Option.some.inj h
        exact ⟨a, whose.completed compact nodup kept hget now (hserved mutation hget)
          (hin mutation hget), loggedIn_of_ne (by simp)⟩

end Steps

end AuthState

end Tokens

/-! ## A kiosk whose tokens are refreshed -/

def kioskAccount : Account := { Auth.administrator with userType := "KIOSK" }

def kioskServer (now : Nat) : Server := ⟨⟨[kioskAccount], by decide⟩, [], now, 0, []⟩

namespace AuthState

end AuthState

end NestGateway.Ui
