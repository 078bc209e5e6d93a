import NestGateway.Auth.Enrolment
import NestGateway.Auth.WrongPasswords
import NestGateway.Core.JsMap

/-! # What a login takes from the headers of its request

The client IP and the access channel of a request, as `AuthController` and
`resolveAccessChannelOrigin` derive them, and the row of the login history they
go into. The columns of that row have widths; what the headers derive has none.
-/

namespace NestGateway.Auth

open Prog

inductive HeaderValue where
  | one (text : String)
  | many (texts : List String)

def HeaderValue.first : HeaderValue → Option String
  | one text => some text
  | many texts => texts.head?

abbrev IncomingHttpHeaders := JsMap String HeaderValue

structure FastifyRequest where
  headers : IncomingHttpHeaders
  ip : String

/-- `value.toLowerCase()` on the letters of ASCII, which every text it is compared with has. -/
def toLowerCase (value : String) : String := String.ofList (value.toList.map Char.toLower)

/-- `value || undefined`. -/
def orUndefined (value : String) : Option String := if value = "" then none else some value

/-- `value.split(',')[0]`. -/
def beforeComma (value : String) : String := String.ofList (value.toList.takeWhile (· ≠ ','))

/-- What `new URL` makes of a text. -/
structure Url where
  protocol : String
  hostname : String
  /-- The host name, and the port unless it is the default one. -/
  host : String
  origin : String

def HTTP_PROTOCOLS : List String := ["http:", "https:"]

/-- `new URL`, with what the URL standard says of the origin of an HTTP URL. -/
structure UrlParser where
  parse : String → Option Url
  origin_of_http : ∀ text url, parse text = some url → url.protocol ∈ HTTP_PROTOCOLS →
    url.origin = url.protocol ++ "//" ++ url.host

namespace AccessChannel

def rawHeaderValue (headers : IncomingHttpHeaders) (name : String) : Option HeaderValue :=
  match (headers.get name).or (headers.get (toLowerCase name)) with
  | some direct => some direct
  | none => (headers.entries.find? fun e => toLowerCase e.1 = toLowerCase name).map Prod.snd

def headerValue (headers : IncomingHttpHeaders) (name : String) : Option String :=
  ((rawHeaderValue headers name).bind HeaderValue.first).bind fun first =>
    orUndefined (JsString.trim first)

def firstCommaSeparatedHeader (headers : IncomingHttpHeaders) (name : String) : Option String :=
  (headerValue headers name).bind fun value => orUndefined (JsString.trim (beforeComma value))

def normalizeProtocol (value : Option String) : Option String :=
  let normalized := value.map fun value => toLowerCase (JsString.trim value)
  if normalized = some "http" ∨ normalized = some "http:" then some "http"
  else if normalized = some "https" ∨ normalized = some "https:" then some "https"
  else none

def inferProtocolFromHost (host : String) : String :=
  let normalized := toLowerCase host
  if Text.startsWith normalized "localhost" ∨ Text.startsWith normalized "127.0.0.1" ∨
      Text.startsWith normalized "[::1]" ∨ normalized = "::1" then "http"
  else "https"

variable (urls : UrlParser)

def normalizeOrigin (value : String) : Option String :=
  match urls.parse (JsString.trim value) with
  | none => none
  | some url =>
      if url.protocol ∉ HTTP_PROTOCOLS ∨ url.hostname = "" then none else some url.origin

/-- `/^https?:\/\//i.test(host)`. -/
def startsWithHttp (host : String) : Bool :=
  Text.startsWith (toLowerCase host) "http://" || Text.startsWith (toLowerCase host) "https://"

def originFromHost (host protocol : String) : Option String :=
  if startsWithHttp host then normalizeOrigin urls host
  else normalizeOrigin urls (protocol ++ "://" ++ host)

def originFromHeader (headers : IncomingHttpHeaders) (name : String) : Option String :=
  (headerValue headers name).bind (normalizeOrigin urls)

def originFromForwarded (headers : IncomingHttpHeaders) : Option String :=
  match firstCommaSeparatedHeader headers "x-forwarded-host" with
  | none => none
  | some forwardedHost =>
      let protocol := (normalizeProtocol
        (firstCommaSeparatedHeader headers "x-forwarded-proto")).getD
          (inferProtocolFromHost forwardedHost)
      originFromHost urls forwardedHost protocol

def resolveAccessChannelOrigin (headers : IncomingHttpHeaders) : Option String :=
  (originFromForwarded urls headers).or
    ((originFromHeader urls headers "origin").or
      ((originFromHeader urls headers "referer").or
        (originFromHeader urls headers "x-access-channel")))

end AccessChannel

namespace AuthController

def headerValue (req : FastifyRequest) (name : String) : Option String :=
  (req.headers.get name).bind HeaderValue.first

def clientIp (req : FastifyRequest) : String :=
  let forwardedFor := (headerValue req "x-forwarded-for").map fun value =>
    JsString.trim (beforeComma value)
  let realIp := (headerValue req "x-real-ip").map JsString.trim
  ((forwardedFor.bind orUndefined).or
    ((realIp.bind orUndefined).or (orUndefined req.ip))).getD "unknown"

def loginRequestMeta (urls : UrlParser) (req : FastifyRequest) : LoginRequestMeta where
  clientIp := clientIp req
  accessChannel := AccessChannel.resolveAccessChannelOrigin urls req.headers

variable {Token : Type}

def login (urls : UrlParser) (loginId password : String) (req : FastifyRequest) :
    Service Token (AuthResponse Token) :=
  Auth.login loginId password ((headerValue req "x-user-type").getD "") (loginRequestMeta urls req)

/-- `readToken` is the token that a text is. -/
def verifyTwoFactor (urls : UrlParser) (readToken : String → Token) (totpCode : String)
    (req : FastifyRequest) : Service Token (AuthTokens Token) :=
  Auth.verifyTwoFactor (readToken ((headerValue req "x-2fa-token").getD "")) totpCode
    (loginRequestMeta urls req)

end AuthController

/-- The row fits the columns of `tb_login_history`. -/
structure HistoryRow.Fits (row : HistoryRow) : Prop where
  loginId : row.loginId.length ≤ 63
  addrIp : row.addrIp.length ≤ 255
  status : ∀ status ∈ row.status, status.length ≤ 255
  accessChannel : ∀ accessChannel ∈ row.accessChannel, accessChannel.length ≤ 50

/-- The row fits the columns of `tb_account` that the login history copies. -/
structure Account.FitsSchema (a : Account) : Prop where
  loginId : a.loginId.length ≤ 63
  status : ∀ status ∈ a.status, status.length ≤ 255

instance instDecidableHistoryRowFits (row : HistoryRow) : Decidable row.Fits :=
  decidable_of_iff (row.loginId.length ≤ 63 ∧ row.addrIp.length ≤ 255 ∧
      (∀ status ∈ row.status, status.length ≤ 255) ∧
      ∀ accessChannel ∈ row.accessChannel, accessChannel.length ≤ 50)
    ⟨fun h => ⟨h.1, h.2.1, h.2.2.1, h.2.2.2⟩,
      fun h => ⟨h.loginId, h.addrIp, h.status, h.accessChannel⟩⟩

variable {Token : Type}

/-- In strict mode the database refuses a row that does not fit. -/
def Effect.refused (e : Effect Token) : Bool := e.inserted.any fun row => !decide row.Fits

/-- No row the program inserts is refused. -/
def Accepted {α : Type} (p : Service Token α) : Prop := p.Only fun e => e.refused = false

/-- The program does not end because a row is refused. -/
def NotAborted (env : Env Token) (s : Server) {α : Type} (p : Service Token α) : Prop :=
  ∀ e, ((p.faulty Effect.refused).exec (answer env) s).1 ≠ .error (.inl e)

variable (Token) in
/-- The rows recorded for the account on this request fit, and no login is aborted. -/
structure Harmless (urls : UrlParser) (req : FastifyRequest) (a : Account) : Prop where
  success : Accepted (recordSuccess a (AuthController.loginRequestMeta urls req) :
    Service Token _)
  failure : ∀ failCount status, (∀ t ∈ status, t.length ≤ 255) →
    Accepted (recordFailure a (AuthController.loginRequestMeta urls req) failCount status :
      Service Token _)
  login : ∀ (env : Env Token) (s : Server) (loginId password : String),
    (∀ b ∈ s.accounts.rows, b.FitsSchema) →
      NotAborted env s (AuthController.login urls loginId password req)
  verifyTwoFactor : ∀ (env : Env Token) (s : Server) (readToken : String → Token)
    (totpCode : String), (∀ b ∈ s.accounts.rows, b.FitsSchema) →
      NotAborted env s (AuthController.verifyTwoFactor urls readToken totpCode req)

/-- The texts the client IP is taken from, in order. -/
def FastifyRequest.addresses (req : FastifyRequest) : List String :=
  (((AuthController.headerValue req "x-forwarded-for").map beforeComma).toList ++
    (AuthController.headerValue req "x-real-ip").toList ++ [req.ip]).filter
      fun text => JsString.trim text ≠ ""

/-- The URL that the text is, if it is an HTTP URL with a host name. -/
def UrlParser.httpUrl (urls : UrlParser) (text : String) : Option Url :=
  (urls.parse (JsString.trim text)).filter fun url =>
    url.protocol ∈ HTTP_PROTOCOLS ∧ url.hostname ≠ ""

/-- The text made of the forwarded host. -/
def FastifyRequest.forwarded (req : FastifyRequest) : Option String :=
  (AccessChannel.firstCommaSeparatedHeader req.headers "x-forwarded-host").map fun host =>
    if AccessChannel.startsWithHttp host then host
    else
      (AccessChannel.normalizeProtocol
        (AccessChannel.firstCommaSeparatedHeader req.headers "x-forwarded-proto")).getD
          (AccessChannel.inferProtocolFromHost host) ++ "://" ++ host

/-- The texts the access channel is taken from, in order. -/
def FastifyRequest.channels (req : FastifyRequest) : List String :=
  req.forwarded.toList ++ ((AccessChannel.headerValue req.headers "origin").toList ++
    ((AccessChannel.headerValue req.headers "referer").toList ++
      ((AccessChannel.headerValue req.headers "x-access-channel").toList ++ [])))

/-- The first address that is not blank has at most 255 characters, and the first HTTP URL a host
of at most 43 characters, or 42 with `https:`. -/
structure HeadersFit (urls : UrlParser) (req : FastifyRequest) : Prop where
  address : ∀ text ∈ req.addresses.head?, (JsString.trim text).length ≤ 255
  channel : ∀ url ∈ req.channels.findSome? urls.httpUrl,
    url.host.length ≤ if url.protocol = "http:" then 43 else 42

/-! ## The client IP -/

theorem orUndefined_trim (text : String) :
    orUndefined (JsString.trim text) =
      ([text].find? fun text => JsString.trim text ≠ "").map JsString.trim := by
  rw [orUndefined, List.find?_singleton]
  by_cases h : JsString.trim text = ""
  · simp [h]
  · simp [h]

theorem normalizeClientIp_eq (clientIp : String) :
    normalizeClientIp clientIp = (orUndefined (JsString.trim clientIp)).getD "unknown" := by
  rw [normalizeClientIp, orUndefined]
  split
  · rfl
  · rfl

theorem normalizeClientIp_unknown : normalizeClientIp "unknown" = normalizeClientIp "" := by
  decide

theorem normalizeClientIp_header {value : Option String} {text : String}
    (h : (value.map JsString.trim).bind orUndefined = some text) :
    normalizeClientIp text = text := by
  obtain ⟨trimmed, hmap, hsome⟩ := Option.bind_eq_some_iff.mp h
  obtain ⟨t, _, rfl⟩ := Option.map_eq_some_iff.mp hmap
  have heq : JsString.trim t = text := by
    rw [orUndefined] at hsome
    split at hsome
    · cases hsome
    · exact Option.some.inj hsome
  rw [← heq] at hsome ⊢
  rw [normalizeClientIp_eq, JsString.trim_trim, hsome]
  rfl

/-- The address that is recorded is the first one that is not blank. -/
theorem normalizeClientIp_clientIp (req : FastifyRequest) :
    normalizeClientIp (AuthController.clientIp req) =
      (req.addresses.head?.map JsString.trim).getD "unknown" := by
  have hheader (value : Option String) (rest : List String) :
      ((value.toList ++ rest).find? fun text => JsString.trim text ≠ "").map JsString.trim =
        ((value.map JsString.trim).bind orUndefined).or
          ((rest.find? fun text => JsString.trim text ≠ "").map JsString.trim) := by
    cases value with
    | none => rfl
    | some text =>
        rw [Option.map_some, Option.bind_some, orUndefined_trim, Option.toList_some,
          List.find?_append, Option.map_or]
  rw [FastifyRequest.addresses, List.head?_filter, List.append_assoc, hheader, hheader,
    ← orUndefined_trim, AuthController.clientIp, Option.map_map]
  change normalizeClientIp ((((AuthController.headerValue req "x-forwarded-for").map
    (JsString.trim ∘ beforeComma)).bind orUndefined).or _ |>.getD "unknown") = _
  rw [← Option.map_map]
  cases hforwarded : (((AuthController.headerValue req "x-forwarded-for").map beforeComma).map
      JsString.trim).bind orUndefined with
  | some text =>
      rw [Option.some_or, Option.some_or, Option.getD_some]
      exact normalizeClientIp_header hforwarded
  | none =>
      cases hreal : ((AuthController.headerValue req "x-real-ip").map JsString.trim).bind
          orUndefined with
      | some text =>
          rw [Option.none_or, Option.some_or, Option.none_or, Option.some_or, Option.getD_some]
          exact normalizeClientIp_header hreal
      | none =>
          rw [Option.none_or, Option.none_or, Option.none_or, Option.none_or,
            ← normalizeClientIp_eq, orUndefined]
          split
          next hempty =>
            rw [hempty]
            exact normalizeClientIp_unknown
          next => rfl

theorem address_fits_iff (req : FastifyRequest) :
    (normalizeClientIp (AuthController.clientIp req)).length ≤ 255 ↔
      ∀ text ∈ req.addresses.head?, (JsString.trim text).length ≤ 255 := by
  rw [normalizeClientIp_clientIp]
  cases req.addresses.head? with
  | none => exact iff_of_true (by decide) nofun
  | some text => simp

/-! ## The access channel -/

section AccessChannel

variable (urls : UrlParser)

theorem normalizeOrigin_eq (value : String) :
    AccessChannel.normalizeOrigin urls value = (urls.httpUrl value).map Url.origin := by
  rw [AccessChannel.normalizeOrigin, UrlParser.httpUrl]
  cases urls.parse (JsString.trim value) with
  | none => rfl
  | some url =>
      by_cases hprotocol : url.protocol ∈ HTTP_PROTOCOLS
      · by_cases hname : url.hostname = ""
        · simp [Option.filter, hprotocol, hname]
        · simp [Option.filter, hprotocol, hname]
      · simp [Option.filter, hprotocol]

theorem originFromForwarded_eq (req : FastifyRequest) :
    AccessChannel.originFromForwarded urls req.headers =
      req.forwarded.bind (AccessChannel.normalizeOrigin urls) := by
  rw [AccessChannel.originFromForwarded, FastifyRequest.forwarded]
  cases AccessChannel.firstCommaSeparatedHeader req.headers "x-forwarded-host" with
  | none => rfl
  | some host =>
      rw [Option.map_some, Option.bind_some]
      dsimp only
      rw [AccessChannel.originFromHost]
      split
      · rfl
      · rfl

/-- The channel that is recorded is the origin of the first HTTP URL. -/
theorem resolveAccessChannelOrigin_eq (req : FastifyRequest) :
    AccessChannel.resolveAccessChannelOrigin urls req.headers =
      (req.channels.findSome? urls.httpUrl).map Url.origin := by
  have hcons (value : Option String) (rest : List String) :
      (value.bind (AccessChannel.normalizeOrigin urls)).or
          (rest.findSome? (AccessChannel.normalizeOrigin urls)) =
        (value.toList ++ rest).findSome? (AccessChannel.normalizeOrigin urls) := by
    cases value with
    | none => rfl
    | some text =>
        rw [List.findSome?_append, Option.toList_some, List.findSome?_singleton, Option.bind_some]
  have hnormalize : Option.map Url.origin ∘ urls.httpUrl = AccessChannel.normalizeOrigin urls :=
    funext fun value => (normalizeOrigin_eq urls value).symm
  rw [List.map_findSome?, hnormalize, AccessChannel.resolveAccessChannelOrigin,
    originFromForwarded_eq, FastifyRequest.channels, ← hcons, ← hcons, ← hcons, ← hcons,
    List.findSome?_nil, Option.or_none]
  rfl

theorem length_origin {text : String} {url : Url} (h : urls.httpUrl text = some url) :
    url.origin.length ≤ 50 ↔ url.host.length ≤ if url.protocol = "http:" then 43 else 42 := by
  obtain ⟨hparse, hhttp⟩ := Option.filter_eq_some_iff.mp h
  have hprotocol := (decide_eq_true_iff.mp hhttp).1
  rw [urls.origin_of_http _ url hparse hprotocol, String.length_append, String.length_append]
  rcases List.mem_pair.mp hprotocol with heq | heq
  · rw [heq, if_pos rfl]
    have hlen : "http:".length = 5 := rfl
    have hslashes : "//".length = 2 := rfl
    omega
  · rw [heq, if_neg (by decide)]
    have hlen : "https:".length = 6 := rfl
    have hslashes : "//".length = 2 := rfl
    omega

theorem channel_fits_iff (req : FastifyRequest) :
    (∀ channel ∈ AccessChannel.resolveAccessChannelOrigin urls req.headers, channel.length ≤ 50) ↔
      ∀ url ∈ req.channels.findSome? urls.httpUrl,
        url.host.length ≤ if url.protocol = "http:" then 43 else 42 := by
  rw [resolveAccessChannelOrigin_eq]
  cases hfirst : req.channels.findSome? urls.httpUrl with
  | none => exact iff_of_true nofun nofun
  | some url =>
      obtain ⟨text, _, hurl⟩ := List.exists_of_findSome?_eq_some hfirst
      simp only [Option.map_some, Option.mem_some_iff, forall_eq']
      exact length_origin urls hurl

end AccessChannel

/-! ## Rows that fit -/

structure LoginRequestMeta.Fits (m : LoginRequestMeta) : Prop where
  addrIp : (normalizeClientIp m.clientIp).length ≤ 255
  accessChannel : ∀ accessChannel ∈ m.accessChannel, accessChannel.length ≤ 50

theorem loginRequestMeta_fits_iff {urls : UrlParser} {req : FastifyRequest} :
    (AuthController.loginRequestMeta urls req).Fits ↔ HeadersFit urls req := by
  constructor
  · intro h
    exact ⟨(address_fits_iff req).mp h.addrIp, (channel_fits_iff urls req).mp h.accessChannel⟩
  · intro h
    exact ⟨(address_fits_iff req).mpr h.address, (channel_fits_iff urls req).mpr h.channel⟩

theorem refused_of_inserted {e : Effect Token} {row : HistoryRow} (h : e.inserted = some row) :
    e.refused = false ↔ row.Fits := by
  rw [Effect.refused, h, Option.any_some, Bool.not_eq_false', decide_eq_true_iff]

theorem accepted_of_silent {α : Type} {p : Service Token α} (h : p.Only Effect.Silent) :
    Accepted p := by
  refine h.mono fun e he => ?_
  rw [Effect.refused, he.2]
  rfl

section Accepted

variable {a : Account} {m : LoginRequestMeta}

theorem recordSuccess_accepted_iff (ha : a.FitsSchema) :
    Accepted (recordSuccess a m : Service Token _) ↔ m.Fits := by
  constructor
  · intro h
    cases h with
    | ask _ rest =>
        cases rest (0 : Nat) with
        | ask allowed _ =>
            obtain ⟨_, addrIp, _, accessChannel⟩ := (refused_of_inserted rfl).mp allowed
            dsimp only at addrIp accessChannel
            exact ⟨addrIp, accessChannel⟩
  · intro hm
    rw [recordSuccess]
    refine Only.bind (Only.call rfl) fun _ => Only.call ((refused_of_inserted rfl).mpr ?_)
    constructor
    all_goals dsimp only
    · exact ha.loginId
    · exact hm.addrIp
    · exact ha.status
    · exact hm.accessChannel

variable (ha : a.FitsSchema) (hm : m.Fits)
include ha hm

theorem recordFailure_accepted (failCount : Int) {status : Option String}
    (hstatus : ∀ t ∈ status, t.length ≤ 255) :
    Accepted (recordFailure a m failCount status : Service Token _) := by
  rw [recordFailure]
  refine Only.bind (Only.call rfl) fun _ => Only.call ((refused_of_inserted rfl).mpr ?_)
  constructor
  all_goals dsimp only
  · exact ha.loginId
  · exact hm.addrIp
  · exact hstatus
  · exact hm.accessChannel

theorem recordLocked_accepted (failCount : Int) :
    Accepted (recordFailure a m failCount (some AccountStatus.locked.value) :
      Service Token _) := by
  refine recordFailure_accepted ha hm failCount fun t ht => ?_
  obtain rfl := Option.some.inj ht
  decide

theorem acceptedLogin_accepted (userType : String) :
    Accepted (acceptedLogin a userType m : Service Token _) := by
  rw [acceptedLogin]
  refine Only.bind (accepted_of_silent (validatePasswordExpiry_silent a)) fun _ => ?_
  split
  · refine Only.bind (Only.call rfl) fun _ => Only.bind (Only.call rfl) fun twoFactorToken => ?_
    refine Only.bind ?_ fun _ => .ret _
    rw [createTotpRegistrationUrlIfRequired]
    split
    · exact .ret _
    · refine Only.bind (Only.call rfl) fun _ => Only.bind (Only.call rfl) fun _ => ?_
      exact Only.bind (Only.ofExcept _) fun _ => Only.bind (Only.call rfl) fun _ => .ret _
  · refine Only.bind (accepted_of_silent (issueTokens_silent a)) fun tokens => ?_
    exact Only.bind ((recordSuccess_accepted_iff ha).mpr hm) fun _ => .ret _

theorem rejectedLogin_accepted : Accepted (rejectedLogin a m : Service Token _) := by
  rw [rejectedLogin, handleFailedLogin]
  refine Only.bind (Only.bind (Only.call rfl) fun _ => ?_) fun _ => only_throwAuthError _ _
  split
  · exact Only.bind (Only.call rfl) fun _ => recordLocked_accepted ha hm _
  · exact recordFailure_accepted ha hm _ ha.status

theorem foundLogin_accepted (password userType : String) :
    Accepted (foundLogin a password userType m : Service Token _) := by
  by_cases hlocked : a.LockedOut
  · rw [foundLogin_locked hlocked, handleLockedLogin]
    refine Only.bind ?_ fun _ => only_throwAuthError _ _
    split
    · exact Only.bind (Only.call rfl) fun _ => recordLocked_accepted ha hm _
    · exact recordLocked_accepted ha hm _
  cases hstatus : statusError a.status with
  | some key =>
      rw [foundLogin_refused hlocked hstatus]
      exact only_throwAuthError _ _
  | none =>
      rw [foundLogin_open hlocked hstatus]
      refine Only.bind (accepted_of_silent (verifyPassword_silent _ _)) fun ok => ?_
      split
      · exact acceptedLogin_accepted ha hm userType
      · exact rejectedLogin_accepted ha hm

theorem verifyRow_accepted (totpCode : String) :
    Accepted (verifyRow (some a) totpCode m : Service Token _) := by
  rw [verifyRow]
  split
  · exact only_throwAuthError _ _
  · split
    · exact only_throwAuthError _ _
    · refine Only.bind (accepted_of_silent (acceptsCode_silent _ _)) fun accepted => ?_
      split
      · refine Only.bind (accepted_of_silent (issueTokens_silent a)) fun tokens => ?_
        exact Only.bind ((recordSuccess_accepted_iff ha).mpr hm) fun _ => .ret _
      · exact only_throwAuthError _ _

end Accepted

theorem Accepted.notAborted {env : Env Token} {s : Server} {α : Type} {p : Service Token α}
    (h : Accepted p) : NotAborted env s p :=
  Only.wp_faulty h fun _ he => he

section Requests

variable {env : Env Token} {s : Server} {m : LoginRequestMeta}
  (hrows : ∀ b ∈ s.accounts.rows, b.FitsSchema) (hm : m.Fits)
include hrows hm

theorem login_notAborted (loginId password userType : String) :
    NotAborted env s (Auth.login loginId password userType m) := by
  intro e
  rw [login_eq, faulty, if_neg (by exact Bool.false_ne_true), exec]
  cases hfind : s.accounts.findByLoginIdAndUserType env.sameUserType loginId userType with
  | none =>
      simp only [answer, hfind]
      intro h
      cases h
  | some a =>
      simp only [answer, hfind]
      have ha := hrows a (AccountTable.mem_of_findByLoginIdAndUserType hfind)
      exact (foundLogin_accepted ha hm password userType).notAborted e

theorem verifyTwoFactor_notAborted (twoFactorToken : Token) (totpCode : String) :
    NotAborted env s (Auth.verifyTwoFactor twoFactorToken totpCode m) := by
  intro e
  rw [verifyTwoFactor_eq, faulty, if_neg (by exact Bool.false_ne_true), exec]
  simp only [answer]
  cases (env.jwtVerify s.now twoFactorToken).filter (·.type = some "2fa") with
  | none =>
      intro h
      cases h
  | some claims =>
      dsimp only
      rw [faulty, if_neg (by exact Bool.false_ne_true), exec]
      cases hfind : s.accounts.findById (JsString.number claims.sub) with
      | none =>
          simp only [answer, hfind]
          intro h
          cases h
      | some a =>
          simp only [answer, hfind]
          have ha := hrows a (AccountTable.mem_of_findById hfind)
          exact (verifyRow_accepted ha hm totpCode).notAborted e

end Requests

/-- A request records rows that fit and aborts no login exactly if its headers fit. -/
theorem harmless_iff {urls : UrlParser} {req : FastifyRequest} {a : Account}
    (ha : a.FitsSchema) : Harmless Token urls req a ↔ HeadersFit urls req := by
  rw [← loginRequestMeta_fits_iff]
  constructor
  · exact fun h => (recordSuccess_accepted_iff ha).mp h.success
  · intro hm
    exact {
      success := (recordSuccess_accepted_iff ha).mpr hm
      failure := fun failCount _ hstatus => recordFailure_accepted ha hm failCount hstatus
      login := fun _ _ loginId password hrows => login_notAborted hrows hm loginId password _
      verifyTwoFactor := fun _ _ readToken totpCode hrows =>
        verifyTwoFactor_notAborted hrows hm (readToken _) totpCode }

/-- A parser for requests in which every URL has the one host. -/
def UrlParser.always (host : String) : UrlParser where
  parse _ := some ⟨"https:", host, host, "https://" ++ host⟩
  origin_of_http text url h _ := by
    obtain rfl := Option.some.inj h
    exact congrArg (· ++ host) (rfl : "https://" = "https:" ++ "//")

def kioskRequest (origin : String) : FastifyRequest where
  headers := ⟨[("x-user-type", .one "KIOSK"), ("origin", .one origin)],
    (by decide : ["x-user-type", "origin"].Nodup)⟩
  ip := "10.0.0.1"

/-- An origin of 52 characters does not fit. -/
theorem harmless_long_origin :
    (kioskAccount (some 0)).FitsSchema ∧
      ¬ Harmless SignedClaims (.always "customer-center.seoul-branch.bank.example.kr")
        (kioskRequest "https://customer-center.seoul-branch.bank.example.kr")
          (kioskAccount (some 0)) := by
  have ha : (kioskAccount (some 0)).FitsSchema := ⟨by decide, by decide⟩
  refine ⟨ha, fun harmless => ?_⟩
  have fits := (recordSuccess_accepted_iff ha).mp harmless.success
  have hlength := fits.accessChannel "https://customer-center.seoul-branch.bank.example.kr"
    (by decide)
  exact absurd hlength (by decide)

theorem harmless_iff_sample :
    Harmless SignedClaims (.always "admin.example.com")
      (kioskRequest "https://admin.example.com") (kioskAccount (some 0)) :=
  (harmless_iff ⟨by decide, by decide⟩).mpr ⟨by decide, by decide⟩

end NestGateway.Auth
