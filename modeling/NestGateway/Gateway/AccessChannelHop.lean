import NestGateway.Gateway.AuthProxy

/-! # The access channel on its way to the auth server

The gateway resolves the access channel of a request and sends it on with some
of the headers it came from. The auth server resolves it again from what it
receives.
-/

namespace NestGateway.Gateway

open Auth
open JsString (truthy)

/-- Node lower-cases the names of the headers it receives. -/
def LowerCased (headers : IncomingHttpHeaders) : Prop :=
  ∀ name ∈ headers.keys, toLowerCase name = name

def channelHeaders : List String :=
  ["x-forwarded-host", "x-forwarded-proto", "origin", "referer", "x-access-channel"]

/-- What is received of the headers that are sent: all of them, their values trimmed, and of the
headers above none that is not sent. -/
structure Delivered (sent : SentHeaders) (received : IncomingHttpHeaders) : Prop where
  lower : LowerCased received
  values : ∀ name text, sent.get name = some text →
    ∃ value, received.get (toLowerCase name) = some (.one value) ∧
      JsString.trim value = JsString.trim text
  others : ∀ name ∈ channelHeaders, name ∉ sent.keys.map toLowerCase → received.get name = none

/-- The origin of an HTTP URL is, parsed, a URL with this origin. -/
def KeepsOrigins (urls : UrlParser) : Prop :=
  ∀ text url, urls.httpUrl text = some url →
    ∃ again, urls.httpUrl url.origin = some again ∧ again.protocol = url.protocol ∧
      again.origin = url.origin

section LowerCased

variable {headers : IncomingHttpHeaders} (lower : LowerCased headers) {name : String}
  (hname : toLowerCase name = name)
include lower hname

theorem rawHeaderValue_of_lower :
    AccessChannel.rawHeaderValue headers name = headers.get name := by
  rw [AccessChannel.rawHeaderValue, hname, Option.or_self]
  cases hget : headers.get name with
  | some value => rfl
  | none =>
      dsimp only
      rw [Option.map_eq_none_iff, List.find?_eq_none]
      intro entry hentry heq
      have hkey : entry.1 ∈ headers.keys := List.mem_map_of_mem hentry
      rw [decide_eq_true_iff, lower _ hkey] at heq
      obtain ⟨value, hvalue⟩ := JsMap.mem_keys.mp (heq ▸ hkey)
      exact absurd (hget.symm.trans hvalue) nofun

theorem headerValue_of_lower :
    AccessChannel.headerValue headers name =
      ((headers.get name).bind HeaderValue.first).bind fun first =>
        orUndefined (JsString.trim first) := by
  rw [AccessChannel.headerValue, rawHeaderValue_of_lower lower hname]

end LowerCased

/-- The names `authMetaHeaders` can set. -/
def authMetaNames : List String :=
  ["X-Forwarded-For", "X-Forwarded-Host", "X-Forwarded-Proto", "X-Real-IP", "X-Access-Channel"]

theorem get_setIfTruthy (headers : SentHeaders) (name key : String) (value : Option String) :
    (setIfTruthy headers name value).get key =
      if key = name then (truthy value).or (headers.get key) else headers.get key := by
  rw [setIfTruthy]
  cases truthy value with
  | none => simp
  | some text => simp [JsMap.get_set]

section Sent

variable (urls : UrlParser) (req : FastifyRequest)

theorem authMetaHeaders_forwardedHost :
    (AuthProxyResolver.authMetaHeaders urls req).get "X-Forwarded-Host" =
      truthy (AuthProxyResolver.headerValue req "x-forwarded-host") := by
  simp [AuthProxyResolver.authMetaHeaders, get_setIfTruthy, JsMap.get_empty]

theorem authMetaHeaders_forwardedProto :
    (AuthProxyResolver.authMetaHeaders urls req).get "X-Forwarded-Proto" =
      truthy (AuthProxyResolver.headerValue req "x-forwarded-proto") := by
  simp [AuthProxyResolver.authMetaHeaders, get_setIfTruthy, JsMap.get_empty]

theorem authMetaHeaders_accessChannel :
    (AuthProxyResolver.authMetaHeaders urls req).get "X-Access-Channel" =
      truthy (AccessChannel.resolveAccessChannelOrigin urls req.headers) := by
  simp [AuthProxyResolver.authMetaHeaders, get_setIfTruthy, JsMap.get_empty]

theorem mem_keys_authMetaHeaders {name : String}
    (h : name ∈ (AuthProxyResolver.authMetaHeaders urls req).keys) : name ∈ authMetaNames := by
  by_contra hother
  simp only [authMetaNames, List.mem_cons, List.not_mem_nil, or_false, not_or] at hother
  obtain ⟨value, hvalue⟩ := JsMap.mem_keys.mp h
  simp [AuthProxyResolver.authMetaHeaders, get_setIfTruthy, JsMap.get_empty, hother]
    at hvalue

end Sent

/-! ## What is received -/

section Received

variable {sent : SentHeaders} {received : IncomingHttpHeaders} (hop : Delivered sent received)
include hop

theorem headerValue_of_not_sent {name : String} (hchannel : name ∈ channelHeaders)
    (hname : toLowerCase name = name) (h : ∀ key ∈ sent.keys, toLowerCase key ≠ name) :
    AccessChannel.headerValue received name = none := by
  have hnot : name ∉ sent.keys.map toLowerCase := by
    intro hmem
    obtain ⟨key, hkey, heq⟩ := List.mem_map.mp hmem
    exact h key hkey heq
  rw [headerValue_of_lower hop.lower hname, hop.others name hchannel hnot]
  rfl

theorem headerValue_of_sent (key : String) {name : String} (hchannel : name ∈ channelHeaders)
    (hkey : toLowerCase key = name) (hname : toLowerCase name = name)
    (h : ∀ other ∈ sent.keys, toLowerCase other = name → other = key) :
    AccessChannel.headerValue received name =
      (sent.get key).bind fun text => orUndefined (JsString.trim text) := by
  cases hget : sent.get key with
  | none =>
      refine headerValue_of_not_sent hop hchannel hname fun other hother heq => ?_
      obtain ⟨value, hvalue⟩ := JsMap.mem_keys.mp hother
      rw [h other hother heq, hget] at hvalue
      cases hvalue
  | some text =>
      obtain ⟨value, hvalue, htrim⟩ := hop.values key text hget
      rw [hkey] at hvalue
      rw [headerValue_of_lower hop.lower hname, hvalue, Option.bind_some, HeaderValue.first,
        Option.bind_some, Option.bind_some, htrim]

end Received

theorem truthy_bind_trim (value : Option String) :
    ((truthy value).bind fun text => orUndefined (JsString.trim text)) =
      value.bind fun text => orUndefined (JsString.trim text) := by
  cases value with
  | none => rfl
  | some text =>
      by_cases h : text = ""
      · subst h
        decide
      · simp [truthy, Option.filter, h]

section Hop

variable {urls : UrlParser} {req : FastifyRequest} {received : IncomingHttpHeaders}
  (lower : LowerCased req.headers)
  (hop : Delivered (AuthProxyResolver.authMetaHeaders urls req) received)
include hop

theorem received_origin (name : String) (hchannel : name ∈ channelHeaders)
    (hname : toLowerCase name = name) (h : ∀ key ∈ authMetaNames, toLowerCase key ≠ name) :
    AccessChannel.originFromHeader urls received name = none := by
  rw [AccessChannel.originFromHeader, headerValue_of_not_sent hop hchannel hname
    fun key hkey => h key (mem_keys_authMetaHeaders urls req hkey)]
  rfl

theorem received_accessChannel :
    AccessChannel.headerValue received "x-access-channel" =
      (AccessChannel.resolveAccessChannelOrigin urls req.headers).bind fun origin =>
        orUndefined (JsString.trim origin) := by
  have honly : ∀ other ∈ authMetaNames, toLowerCase other = "x-access-channel" →
      other = "X-Access-Channel" := by decide
  rw [headerValue_of_sent hop "X-Access-Channel" (by decide) (by decide) (by decide)
      fun other hother => honly other (mem_keys_authMetaHeaders urls req hother),
    authMetaHeaders_accessChannel, truthy_bind_trim]

section Forwarded

include lower

theorem received_forwardedHost :
    AccessChannel.headerValue received "x-forwarded-host" =
      AccessChannel.headerValue req.headers "x-forwarded-host" := by
  have honly : ∀ other ∈ authMetaNames, toLowerCase other = "x-forwarded-host" →
      other = "X-Forwarded-Host" := by decide
  rw [headerValue_of_sent hop "X-Forwarded-Host" (by decide) (by decide) (by decide)
      fun other hother => honly other (mem_keys_authMetaHeaders urls req hother),
    authMetaHeaders_forwardedHost, truthy_bind_trim, headerValue_of_lower lower (by decide),
    AuthProxyResolver.headerValue]

theorem received_forwardedProto :
    AccessChannel.headerValue received "x-forwarded-proto" =
      AccessChannel.headerValue req.headers "x-forwarded-proto" := by
  have honly : ∀ other ∈ authMetaNames, toLowerCase other = "x-forwarded-proto" →
      other = "X-Forwarded-Proto" := by decide
  rw [headerValue_of_sent hop "X-Forwarded-Proto" (by decide) (by decide) (by decide)
      fun other hother => honly other (mem_keys_authMetaHeaders urls req hother),
    authMetaHeaders_forwardedProto, truthy_bind_trim, headerValue_of_lower lower (by decide),
    AuthProxyResolver.headerValue]

/-- Both sides derive the same from the forwarded headers. -/
theorem received_originFromForwarded :
    AccessChannel.originFromForwarded urls received =
      AccessChannel.originFromForwarded urls req.headers := by
  simp only [AccessChannel.originFromForwarded, AccessChannel.firstCommaSeparatedHeader,
    received_forwardedHost lower hop, received_forwardedProto lower hop]

end Forwarded

end Hop

theorem exists_httpUrl_of_resolve {urls : UrlParser} {req : FastifyRequest} {origin : String}
    (h : AccessChannel.resolveAccessChannelOrigin urls req.headers = some origin) :
    ∃ text url, urls.httpUrl text = some url ∧ url.origin = origin := by
  rw [resolveAccessChannelOrigin_eq] at h
  obtain ⟨url, hfirst, horigin⟩ := Option.map_eq_some_iff.mp h
  obtain ⟨text, _, hurl⟩ := List.exists_of_findSome?_eq_some hfirst
  exact ⟨text, url, hurl, horigin⟩

/-- What is left of the origin of an HTTP URL, trimmed, is not empty. -/
theorem trim_origin_ne_empty {urls : UrlParser} {text : String} {url : Url}
    (h : urls.httpUrl text = some url) : JsString.trim url.origin ≠ "" := by
  obtain ⟨hparse, hhttp⟩ := Option.filter_eq_some_iff.mp h
  have hprotocol := (decide_eq_true_iff.mp hhttp).1
  have hletter : 'h' ∈ url.protocol.toList := by
    rcases List.mem_pair.mp hprotocol with heq | heq
    · rw [heq]
      decide
    · rw [heq]
      decide
  rw [urls.origin_of_http _ url hparse hprotocol]
  refine JsString.trim_ne_empty (c := 'h') ?_ (by decide)
  rw [String.toList_append, String.toList_append]
  exact List.mem_append_left _ (List.mem_append_left _ hletter)

/-- What the auth server resolves from the headers it receives is what the gateway resolved. -/
theorem accessChannel_survives_hop {urls : UrlParser} {req : FastifyRequest}
    {authReq : FastifyRequest} (keeps : KeepsOrigins urls) (lower : LowerCased req.headers)
    (hop : Delivered (AuthProxyResolver.authMetaHeaders urls req) authReq.headers) :
    (AuthController.loginRequestMeta urls authReq).accessChannel =
      AccessChannel.resolveAccessChannelOrigin urls req.headers := by
  change AccessChannel.resolveAccessChannelOrigin urls authReq.headers = _
  have hsent : AccessChannel.resolveAccessChannelOrigin urls authReq.headers =
      (AccessChannel.originFromForwarded urls req.headers).or
        (((AccessChannel.resolveAccessChannelOrigin urls req.headers).bind fun origin =>
          orUndefined (JsString.trim origin)).bind (AccessChannel.normalizeOrigin urls)) := by
    rw [AccessChannel.resolveAccessChannelOrigin, received_originFromForwarded lower hop,
      received_origin hop "origin" (by decide) (by decide) (by decide),
      received_origin hop "referer" (by decide) (by decide) (by decide), Option.none_or,
      Option.none_or, AccessChannel.originFromHeader, received_accessChannel hop]
  rw [hsent]
  cases hforwarded : AccessChannel.originFromForwarded urls req.headers with
  | some origin => rw [AccessChannel.resolveAccessChannelOrigin, hforwarded, Option.some_or,
      Option.some_or]
  | none =>
      rw [Option.none_or]
      cases hresolve : AccessChannel.resolveAccessChannelOrigin urls req.headers with
      | none => rfl
      | some origin =>
          obtain ⟨text, url, hurl, rfl⟩ := exists_httpUrl_of_resolve hresolve
          obtain ⟨again, hagain, _, horigin⟩ := keeps text url hurl
          rw [Option.bind_some, orUndefined, if_neg (trim_origin_ne_empty hurl), Option.bind_some,
            normalizeOrigin_eq, UrlParser.httpUrl, JsString.trim_trim, ← UrlParser.httpUrl, hagain,
            Option.map_some, horigin]

theorem keepsOrigins_always {host : String} (h : host ≠ "") : KeepsOrigins (.always host) := by
  intro text url hurl
  obtain ⟨hparse, _⟩ := Option.filter_eq_some_iff.mp hurl
  obtain rfl := Option.some.inj hparse
  refine ⟨_, Option.filter_eq_some_iff.mpr ⟨rfl, ?_⟩, rfl, rfl⟩
  rw [decide_eq_true_iff]
  exact ⟨List.mem_cons_of_mem _ List.mem_cons_self, h⟩

def kioskAuthRequest : FastifyRequest where
  headers :=
    ⟨[("x-forwarded-for", .one "10.0.0.1"),
      ("x-access-channel", .one "https://admin.example.com"), ("x-user-type", .one "KIOSK")],
      (by decide : ["x-forwarded-for", "x-access-channel", "x-user-type"].Nodup)⟩
  ip := "10.0.0.2"

theorem kiosk_delivered :
    Delivered (AuthProxyResolver.authMetaHeaders (.always "admin.example.com")
      (kioskRequest "https://admin.example.com")) kioskAuthRequest.headers where
  lower := by
    rw [LowerCased]
    decide
  values := by
    intro name text h
    have hentries : (AuthProxyResolver.authMetaHeaders (.always "admin.example.com")
        (kioskRequest "https://admin.example.com")).entries =
          [("X-Forwarded-For", "10.0.0.1"), ("X-Access-Channel", "https://admin.example.com")] := by
      decide
    rw [JsMap.get, hentries, JsMap.lookup_cons, JsMap.lookup_cons] at h
    split at h
    next hname =>
      cases h
      exact ⟨_, by rw [hname]; rfl, rfl⟩
    next =>
      split at h
      next hname =>
        cases h
        exact ⟨_, by rw [hname]; rfl, rfl⟩
      next => cases h
  others := by decide

theorem accessChannel_survives_hop_sample :
    (AuthController.loginRequestMeta (.always "admin.example.com") kioskAuthRequest).accessChannel =
      AccessChannel.resolveAccessChannelOrigin (.always "admin.example.com")
        (kioskRequest "https://admin.example.com").headers :=
  accessChannel_survives_hop (keepsOrigins_always (by decide)) (by rw [LowerCased]; decide)
    kiosk_delivered

end NestGateway.Gateway
