import NestGateway.Gateway.AccessChannelHop
import NestGateway.Gateway.Correlation

/-! # The ids over whole runs

Requests reach the gateway and the auth server, and what runs for them logs and
calls other services, in any order. Every request from outside begins a trace;
what is done for it, on either service, belongs to the trace.
-/

namespace NestGateway.Gateway

open Auth Logger GoJson Runs
open JsString (truthy truthy_eq_some truthy_of_ne)

/-- A request from outside, with what its client sent. -/
structure Trace where
  id : String
  sent : Option String
  authToken : Option String
  acceptLanguage : Option String

/-- Something that belongs to a trace, or to none. -/
structure Traced (α : Type) where
  trace : Option Nat
  item : α

inductive Service where
  | gateway
  | auth
  deriving Repr, DecidableEq

/-- All that runs in one asynchronous context. -/
structure Task where
  service : Service
  store : Option RequestStore

/-- A request of the gateway to another service. -/
structure Hop where
  target : Target
  headers : SentHeaders

structure World where
  traces : List Trace := []
  tasks : List (Traced Task) := []
  pending : List (Traced Access) := []
  hops : List (Traced Hop) := []
  /-- The headers that the middleware set on responses. -/
  responses : List (Traced (String × String)) := []
  /-- The records of the Nest services. -/
  records : List (Traced Info) := []
  streamed : List (Traced String) := []

def World.init : World := {}

/-! ## Steps -/

inductive LogCall where
  | log (message : String) (context : Option String)
  | error (message : String) (trace context : Option String)
  | warn (message : String) (context : Option String)
  | debug (message : String) (context : Option String)
  | verbose (message : String) (context : Option String)

def LogCall.level : LogCall → LogLevel
  | log .. => .info
  | error .. => .error
  | warn .. => .warn
  | debug .. => .debug
  | verbose .. => .verbose

def LogCall.record (this : WinstonLoggerService) (store : Option RequestStore) : LogCall → Info
  | log message context => this.log store message context
  | error message trace context => this.error store message trace context
  | warn message context => this.warn store message context
  | debug message context => this.debug store message context
  | verbose message context => this.verbose store message context

/-- A request passes the middleware of a Nest service. -/
def World.receive (urls : UrlParser) (w : World) (service : Service) (trace : Option Nat)
    (req : IncomingMessage) (randomUUID : String) (now : Int) : World :=
  let handled := CorrelationIdMiddleware.use randomUUID req
  let store := RequestContextMiddleware.use handled.1
  let i := some (trace.getD w.traces.length)
  { w with
    traces :=
      if trace.isSome then w.traces
      else w.traces ++ [⟨handled.2.2, textOf req.headers CORRELATION_HEADER, store.authToken,
        store.acceptLanguage⟩]
    tasks := w.tasks ++ [⟨i, service, some store⟩]
    pending := w.pending ++ [⟨i, LoggerMiddleware.use urls now handled.1⟩]
    responses := w.responses ++ [⟨i, handled.2⟩] }

inductive Event where
  | request (service : Service) (req : IncomingMessage) (randomUUID : String) (now : Int)
  /-- A timer, or anything else that runs for no request. -/
  | start (service : Service)
  | log (task : Nat) (call : LogCall)
  | send (task : Nat) (call : Outgoing)
  /-- A request of the gateway reaches the auth server. -/
  | deliver (hop : Nat) (req : IncomingMessage) (randomUUID : String) (now : Int)
  /-- A request of the gateway reaches a log-streamer. -/
  | stream (hop : Nat) (r : GoRequest) (uuid : String)
  /-- A response is finished; whose store the listener sees is not fixed. -/
  | finish (pending : Nat) (store : Option RequestStore) (statusCode : Nat) (now : Int)

section Steps

variable (winston : Winston) (urls : UrlParser) (production : Bool)

/-- One step; only the gateway logs through the logger of the application and calls others. -/
def step (w : World) : Event → Option World
  | .request service req randomUUID now => some (w.receive urls service none req randomUUID now)
  | .start service => some { w with tasks := w.tasks ++ [⟨none, service, none⟩] }
  | .log k call =>
      match w.tasks[k]? with
      | some ⟨trace, .gateway, store⟩ =>
          if call.level.severity ≤ (getLogLevel production).severity then
            some { w with records := w.records ++ [⟨trace, winston.log (call.record {} store)⟩] }
          else some w
      | _ => none
  | .send k call =>
      match w.tasks[k]? with
      | some ⟨trace, .gateway, store⟩ =>
          some { w with hops := w.hops ++ [⟨trace, call.target, call.sent urls store⟩] }
      | _ => none
  | .deliver j req randomUUID now =>
      match w.hops[j]? with
      | some ⟨trace, .auth, _⟩ => some (w.receive urls .auth trace req randomUUID now)
      | _ => none
  | .stream j r uuid =>
      match w.hops[j]?, r.serve uuid with
      | some ⟨trace, .logStreamer, _⟩, some ids =>
          some { w with streamed := w.streamed ++ [⟨trace, ids.2⟩] }
      | _, _ => none
  | .finish p store statusCode now =>
      match w.pending[p]? with
      | some ⟨trace, access⟩ =>
          some { w with
            records := w.records ++
              [⟨trace, winston.log (LoggerMiddleware.finish access store statusCode now)⟩]
            pending := w.pending.eraseIdx p }
      | none => none

end Steps

def isBlank (c : Char) : Bool := c = ' ' || c = '\t'

/-- A header value as it is received, without the blanks around it. -/
def trimBlanks (value : String) : String :=
  String.ofList ((value.toList.dropWhile isBlank).rdropWhile isBlank)

def IsUuid (value : String) : Prop :=
  value.toList.length = 36 ∧ ∀ c ∈ value.toList, c ∈ "0123456789abcdef-".toList

/-- What is read of the headers that are sent. No client adds a header `x-…` of its own. -/
structure Arrives (sent : SentHeaders) (read : String → Option String) : Prop where
  value : ∀ name text, sent.get name = some text → trimBlanks text ≠ "" →
    (∀ other ∈ sent.keys, toLowerCase other = toLowerCase name → other = name) →
    read (toLowerCase name) = some (trimBlanks text)
  absent : ∀ name, Text.startsWith name "x-" → (∀ other ∈ sent.keys, toLowerCase other ≠ name) →
    read name = none

/-- `randomUUID` gives the text of a UUID that was not given before. -/
def Fresh (w : World) (randomUUID : String) : Prop :=
  IsUuid randomUUID ∧ randomUUID ∉ w.traces.map Trace.id

/-- Node has the values of headers without the blanks around them. -/
def Bare (headers : IncomingHttpHeaders) : Prop :=
  ∀ name text, textOf headers name = some text → trimBlanks text = text

/-- What Node, Go and HTTP make sure of. -/
def Genuine (w : World) : Event → Prop
  | .request _ req randomUUID _ => Fresh w randomUUID ∧ Bare req.headers
  | .deliver j req randomUUID _ => Fresh w randomUUID ∧ Bare req.headers ∧
      ∀ hop, w.hops[j]? = some hop → Arrives hop.item.headers (textOf req.headers)
  | .stream j r _ => ∀ hop, w.hops[j]? = some hop →
      Arrives hop.item.headers fun name => truthy (some (r.headerGet name))
  | _ => True

/-! ## What belongs to a trace -/

/-- What belongs to a trace is as the trace has it. -/
def Attributed {α : Type} (traces : List Trace) (P : Trace → α → Prop) (items : List (Traced α)) :
    Prop :=
  ∀ x ∈ items, ∀ i, x.trace = some i → ∃ t, traces[i]? = some t ∧ P t x.item

/-- A request to a service other than the log-streamers carries the id of its trace, and the token
and the language of the client. -/
def Trace.Carried (t : Trace) (hop : Hop) : Prop :=
  hop.target ≠ .logStreamer →
    hop.headers.get CORRELATION_HEADER = some t.id ∧
      (∀ token, truthy t.authToken = some token → hop.headers.get "Authorization" = some token) ∧
      ∀ language, truthy t.acceptLanguage = some language →
        hop.headers.get "accept-language" = some language

/-- What can be seen of the ids; a record whose message has a token to format may lack them. -/
structure World.OneId (w : World) : Prop where
  /-- A client that sends an id keeps it. -/
  kept : ∀ t ∈ w.traces, ∀ id, truthy t.sent = some id → t.id = id
  /-- No two traces have one id, unless the client of the later one chose it. -/
  apart : w.traces.Pairwise fun t t' => t.id = t'.id → truthy t'.sent = some t'.id
  hops : Attributed w.traces Trace.Carried w.hops
  responses : Attributed w.traces (fun t header => header = (CORRELATION_HEADER, t.id)) w.responses
  records : Attributed w.traces (fun t info => ¬ HasFormatToken info.message →
    info.rest.get "correlationId" = some (some (.str t.id))) w.records
  /-- A record of no trace has no id. -/
  outside : ∀ r ∈ w.records, r.trace = none → ¬ HasFormatToken r.item.message →
    r.item.rest.get "correlationId" = none
  /-- The log-streamers are not told the id. -/
  streamed : ∀ line ∈ w.streamed, line.item = "-"

def Trace.RunsIn (t : Trace) (task : Task) : Prop :=
  ∃ store, task.store = some store ∧ store.correlationId = some t.id ∧
    (task.service = .gateway →
      store.authToken = t.authToken ∧ store.acceptLanguage = t.acceptLanguage)

/-- The headers name the id under one spelling only. -/
def Spelled (headers : SentHeaders) : Prop :=
  ∀ key ∈ headers.keys, toLowerCase key = CORRELATION_HEADER → key = CORRELATION_HEADER

/-- An id that HTTP carries as it is. -/
def IsId (id : String) : Prop := id ≠ "" ∧ trimBlanks id = id

structure World.Consistent (w : World) : Prop extends w.OneId where
  named : ∀ t ∈ w.traces, IsId t.id
  tasks : Attributed w.traces Trace.RunsIn w.tasks
  idle : ∀ task ∈ w.tasks, task.trace = none → task.item.store = none
  pending : Attributed w.traces (fun t access => access.correlationId = t.id) w.pending
  begun : ∀ p ∈ w.pending, p.trace ≠ none
  spelled : ∀ hop ∈ w.hops, Spelled hop.item.headers
  own : ∀ hop ∈ w.hops, hop.item.target = .logStreamer → hop.item.headers = .empty

section Attributed

variable {α : Type} {traces : List Trace} {P : Trace → α → Prop} {items : List (Traced α)}

theorem Attributed.grow (h : Attributed traces P items) (new : List Trace) :
    Attributed (traces ++ new) P items := by
  intro x hx i hi
  obtain ⟨t, ht, hP⟩ := h x hx i hi
  have hlt := (List.getElem?_eq_some_iff.mp ht).choose
  exact ⟨t, by rw [List.getElem?_append_left hlt, ht], hP⟩

theorem Attributed.snoc (h : Attributed traces P items) {x : Traced α}
    (hx : ∀ i, x.trace = some i → ∃ t, traces[i]? = some t ∧ P t x.item) :
    Attributed traces P (items ++ [x]) := by
  intro y hy
  rcases List.mem_append.mp hy with hy | hy
  · exact h y hy
  · rw [List.mem_singleton.mp hy]
    exact hx

theorem Attributed.sublist {fewer : List (Traced α)} (h : Attributed traces P items)
    (hsub : fewer.Sublist items) : Attributed traces P fewer :=
  fun x hx => h x (hsub.subset hx)

end Attributed

theorem forall_mem_snoc {α : Type} {P : α → Prop} {items : List α} {x : α}
    (h : ∀ y ∈ items, P y) (hx : P x) : ∀ y ∈ items ++ [x], P y := by
  intro y hy
  rcases List.mem_append.mp hy with hy | hy
  · exact h y hy
  · rw [List.mem_singleton.mp hy]
    exact hx

theorem trimBlanks_eq_self {value : String} (h : ∀ c ∈ value.toList, isBlank c = false) :
    trimBlanks value = value := by
  unfold trimBlanks
  have hfirst : value.toList.dropWhile isBlank = value.toList := by
    rw [List.dropWhile_eq_self_iff]
    intro hpos
    simp [h _ (List.getElem_mem hpos)]
  have hlast : value.toList.rdropWhile isBlank = value.toList := by
    rw [List.rdropWhile_eq_self_iff]
    intro hne
    simp [h _ (List.getLast_mem hne)]
  rw [hfirst, hlast, String.ofList_toList]

theorem IsUuid.isId {value : String} (h : IsUuid value) : IsId value := by
  obtain ⟨hlength, hchars⟩ := h
  constructor
  · rintro rfl
    cases hlength
  · apply trimBlanks_eq_self
    intro c hc
    have hall : "0123456789abcdef-".toList.all fun c => !isBlank c := by decide
    simpa using List.all_eq_true.mp hall c (hchars c hc)

section Use

variable (randomUUID : String) (req : IncomingMessage)

theorem textOf_use :
    textOf (CorrelationIdMiddleware.use randomUUID req).1.headers CORRELATION_HEADER =
      some (CorrelationIdMiddleware.use randomUUID req).2.2 := by
  simp [CorrelationIdMiddleware.use, textOf, JsMap.get_set]

theorem textOf_use_ne {name : String} (h : name ≠ CORRELATION_HEADER) :
    textOf (CorrelationIdMiddleware.use randomUUID req).1.headers name =
      textOf req.headers name := by
  simp [CorrelationIdMiddleware.use, textOf, JsMap.get_set, h]

variable {randomUUID req}

theorem use_of_sent {id : String} (h : truthy (textOf req.headers CORRELATION_HEADER) = some id) :
    (CorrelationIdMiddleware.use randomUUID req).2.2 = id := by
  simp [CorrelationIdMiddleware.use, h]

theorem isId_use (huuid : IsUuid randomUUID) (hbare : Bare req.headers) :
    IsId (CorrelationIdMiddleware.use randomUUID req).2.2 := by
  unfold CorrelationIdMiddleware.use
  cases h : truthy (textOf req.headers CORRELATION_HEADER) with
  | none => exact huuid.isId
  | some id =>
      obtain ⟨htext, hne⟩ := truthy_eq_some.mp h
      exact ⟨hne, hbare _ _ htext⟩

end Use

open WinstonLoggerService in
theorem get_spread (a b : JsMap String (Option Json)) (key : String) :
    (spread a b).get key = (b.get key).or (a.get key) := by
  obtain ⟨entries, hnodup⟩ := b
  unfold spread JsMap.get
  dsimp only
  induction entries generalizing a with
  | nil => simp
  | cons entry entries ih =>
      obtain ⟨name, value⟩ := entry
      obtain ⟨hfresh, hrest⟩ := List.nodup_cons.mp hnodup
      have hset : (a.set name value).entries.lookup key =
          if key = name then some value else a.entries.lookup key := JsMap.get_set a name key value
      rw [List.foldl_cons, ih _ hrest, JsMap.lookup_cons, hset]
      by_cases h : key = name
      · subst h
        simp only [if_true, Option.some_or]
        rw [List.lookup_eq_none_iff.mpr, Option.none_or]
        intro entry hentry
        have hmem : entry.1 ∈ entries.map Prod.fst := List.mem_map_of_mem hentry
        have hne : key ≠ entry.1 := fun heq => hfresh (heq ▸ hmem)
        simpa using hne
      · simp only [if_neg h]

theorem get_requestMeta (store : Option RequestStore) :
    (WinstonLoggerService.getRequestMeta store).get "correlationId" =
      (truthy (store.bind (·.correlationId))).map fun id => some (.str id) := by
  unfold WinstonLoggerService.getRequestMeta
  cases truthy (store.bind (·.correlationId)) with
  | none => rfl
  | some id => simp [JsMap.get_set]

theorem rest_record (this : WinstonLoggerService) (store : Option RequestStore) (call : LogCall) :
    (call.record this store).rest = WinstonLoggerService.getRequestMeta store := by
  cases call <;> rfl

/-- The record of a response names the id of the request, whatever store the listener sees. -/
theorem rest_finish (access : Access) (store : Option RequestStore) (statusCode : Nat)
    (now : Int) :
    (LoggerMiddleware.finish access store statusCode now).rest.get "correlationId" =
      some (some (.str access.correlationId)) := by
  unfold LoggerMiddleware.finish
  show (WinstonLoggerService.spread _ _).get _ = _
  rw [get_spread]
  rfl

/-! ## Headers -/

theorem Spelled.set {headers : SentHeaders} (h : Spelled headers) {name value : String}
    (hname : toLowerCase name = CORRELATION_HEADER → name = CORRELATION_HEADER) :
    Spelled (headers.set name value) := by
  intro key hkey
  rcases JsMap.mem_keys_setEntry.mp hkey with heq | hmem
  · rw [heq]
    exact hname
  · exact h key hmem

theorem Spelled.setIfTruthy {headers : SentHeaders} (h : Spelled headers) {name : String}
    (value : Option String)
    (hname : toLowerCase name = CORRELATION_HEADER → name = CORRELATION_HEADER) :
    Spelled (setIfTruthy headers name value) := by
  unfold Gateway.setIfTruthy
  cases truthy value with
  | none => exact h
  | some text => exact h.set hname

theorem spelled_empty : Spelled .empty := nofun

theorem spelled_authMeta (urls : UrlParser) (req : FastifyRequest) :
    Spelled (AuthProxyResolver.authMetaHeaders urls req) := by
  intro key hkey
  have hnames : ∀ name ∈ authMetaNames, toLowerCase name = CORRELATION_HEADER →
      name = CORRELATION_HEADER := by decide
  exact hnames key (mem_keys_authMetaHeaders urls req hkey)

theorem spelled_headers (urls : UrlParser) (call : Outgoing) : Spelled (call.headers urls) := by
  cases call with
  | login loginId password req => exact (spelled_authMeta urls req).set (by decide)
  | verifyTwoFactor totpCode req => exact (spelled_authMeta urls req).set (by decide)
  | refreshToken token => exact spelled_empty
  | changePassword currentPassword newPassword req =>
      exact (spelled_empty.setIfTruthy _ (by decide)).setIfTruthy _ (by decide)
  | kioskAdmin => exact spelled_empty
  | logStreamer => exact spelled_empty

theorem spelled_sent (urls : UrlParser) (store : Option RequestStore) (call : Outgoing) :
    Spelled (call.sent urls store) := by
  have hcaller := spelled_headers urls call
  unfold Outgoing.sent
  split
  · exact hcaller
  · exact ((hcaller.setIfTruthy _ (by decide)).setIfTruthy _ (fun _ => rfl)).setIfTruthy _
      (by decide)

theorem own_sent (urls : UrlParser) (store : Option RequestStore) {call : Outgoing}
    (h : call.target = .logStreamer) : call.sent urls store = .empty := by
  cases call with
  | logStreamer => rfl
  | login | verifyTwoFactor | refreshToken | changePassword | kioskAdmin => cases h

section Intercept

variable (store : Option RequestStore) (headers : SentHeaders)

theorem intercept_id :
    (GlobalHttpModule.intercept store headers).get CORRELATION_HEADER =
      (truthy (store.bind (·.correlationId))).or (headers.get CORRELATION_HEADER) := by
  have hne : CORRELATION_HEADER ≠ "accept-language" ∧ CORRELATION_HEADER ≠ "Authorization" := by
    decide
  simp [GlobalHttpModule.intercept, get_setIfTruthy, hne]

theorem intercept_authorization :
    (GlobalHttpModule.intercept store headers).get "Authorization" =
      (truthy (store.bind (·.authToken))).or (headers.get "Authorization") := by
  have hne : "Authorization" ≠ CORRELATION_HEADER := by decide
  simp [GlobalHttpModule.intercept, get_setIfTruthy, hne]

theorem intercept_language :
    (GlobalHttpModule.intercept store headers).get "accept-language" =
      (truthy (store.bind (·.acceptLanguage))).or (headers.get "accept-language") := by
  have hne : "accept-language" ≠ CORRELATION_HEADER := by decide
  simp [GlobalHttpModule.intercept, get_setIfTruthy, hne]

end Intercept

theorem carried_sent (urls : UrlParser) {t : Trace} {store : Option RequestStore}
    (hid : IsId t.id) (hrun : t.RunsIn ⟨.gateway, store⟩) (call : Outgoing) :
    t.Carried ⟨call.target, call.sent urls store⟩ := by
  obtain ⟨context, hstore, hcorrelation, hclient⟩ := hrun
  obtain ⟨htoken, hlanguage⟩ := hclient rfl
  intro htarget
  have hsent : call.sent urls store = GlobalHttpModule.intercept store (call.headers urls) := by
    unfold Outgoing.sent
    split
    · contradiction
    · rfl
  have hbind : ∀ field : RequestStore → Option String, store.bind field = field context := by
    intro field
    rw [show store = some context from hstore, Option.bind_some]
  show (call.sent urls store).get _ = _ ∧ (∀ _, _ → (call.sent urls store).get _ = _) ∧
    ∀ _, _ → (call.sent urls store).get _ = _
  rw [hsent, intercept_id, intercept_authorization, intercept_language, hbind, hbind, hbind,
    hcorrelation, htoken, hlanguage, truthy_of_ne hid.1]
  refine ⟨rfl, fun token h => ?_, fun language h => ?_⟩
  · rw [h, Option.some_or]
  · rw [h, Option.some_or]

/-! ## The steps -/

theorem World.Consistent.log {w : World} (h : w.Consistent) {task : Traced Task}
    (htask : task ∈ w.tasks) (winston : Winston) (this : WinstonLoggerService) (call : LogCall) :
    World.Consistent
      { w with
        records := w.records ++
          [⟨task.trace, winston.log (call.record this task.item.store)⟩] } where
  toOneId :=
    { h.toOneId with
      records := by
        refine h.records.snoc fun i hi => ?_
        obtain ⟨t, ht, store, hstore, hcorrelation, _⟩ := h.tasks task htask i hi
        have hid := h.named t (List.mem_of_getElem? ht)
        refine ⟨t, ht, fun htoken => ?_⟩
        rw [Winston.rest_log htoken, rest_record, get_requestMeta, hstore, Option.bind_some,
          hcorrelation, truthy_of_ne hid.1]
        rfl
      outside := by
        refine forall_mem_snoc h.outside fun hnone htoken => ?_
        rw [Winston.rest_log htoken, rest_record, get_requestMeta, h.idle task htask hnone]
        rfl }
  named := h.named
  tasks := h.tasks
  idle := h.idle
  pending := h.pending
  begun := h.begun
  spelled := h.spelled
  own := h.own

theorem World.Consistent.send {w : World} (h : w.Consistent) (urls : UrlParser)
    {trace : Option Nat} {store : Option RequestStore}
    (htask : ⟨trace, .gateway, store⟩ ∈ w.tasks) (call : Outgoing) :
    World.Consistent
      { w with hops := w.hops ++ [⟨trace, call.target, call.sent urls store⟩] } where
  toOneId :=
    { h.toOneId with
      hops := by
        refine h.hops.snoc fun i hi => ?_
        obtain ⟨t, ht, hrun⟩ := h.tasks _ htask i hi
        exact ⟨t, ht, carried_sent urls (h.named t (List.mem_of_getElem? ht)) hrun call⟩ }
  named := h.named
  tasks := h.tasks
  idle := h.idle
  pending := h.pending
  begun := h.begun
  spelled := forall_mem_snoc h.spelled (spelled_sent urls store call)
  own := forall_mem_snoc h.own (own_sent urls store)

theorem World.Consistent.start {w : World} (h : w.Consistent) (service : Service) :
    World.Consistent { w with tasks := w.tasks ++ [⟨none, service, none⟩] } where
  toOneId := { h.toOneId with }
  named := h.named
  tasks := h.tasks.snoc nofun
  idle := forall_mem_snoc h.idle fun _ => rfl
  pending := h.pending
  begun := h.begun
  spelled := h.spelled
  own := h.own

theorem World.Consistent.finish {w : World} (h : w.Consistent) {p : Nat} {trace : Option Nat}
    {access : Access} (hpending : w.pending[p]? = some ⟨trace, access⟩) (winston : Winston)
    (store : Option RequestStore) (statusCode : Nat) (now : Int) :
    World.Consistent
      { w with
        records := w.records ++
          [⟨trace, winston.log (LoggerMiddleware.finish access store statusCode now)⟩]
        pending := w.pending.eraseIdx p } where
  toOneId :=
    { h.toOneId with
      records := by
        refine h.records.snoc fun i hi => ?_
        obtain ⟨t, ht, hid⟩ := h.pending _ (List.mem_of_getElem? hpending) i hi
        refine ⟨t, ht, fun htoken => ?_⟩
        rw [Winston.rest_log htoken, ← hid]
        exact rest_finish access store statusCode now
      outside := by
        refine forall_mem_snoc h.outside fun hnone => ?_
        exact absurd hnone (h.begun _ (List.mem_of_getElem? hpending)) }
  named := h.named
  tasks := h.tasks
  idle := h.idle
  pending := h.pending.sublist (List.eraseIdx_sublist _ _)
  begun := fun x hx => h.begun x ((List.eraseIdx_sublist _ _).subset hx)
  spelled := h.spelled
  own := h.own

/-- A log-streamer is sent no header, so its access log has a dash for the id. -/
theorem serve_of_own {r : GoRequest} {uuid : String} {ids : String × String}
    (harrives : Arrives .empty fun name => truthy (some (r.headerGet name)))
    (hserve : r.serve uuid = some ids) : ids.2 = "-" := by
  have hnone := harrives.absent CORRELATION_HEADER (by decide) nofun
  have hname : r.headerGet "X-Correlation-ID" = r.headerGet CORRELATION_HEADER := by
    have hlower : toLowerCase "X-Correlation-ID" = toLowerCase CORRELATION_HEADER := by decide
    simp only [GoRequest.headerGet, hlower]
  have hempty : r.headerGet CORRELATION_HEADER = "" := by
    by_contra hne
    rw [truthy_of_ne hne] at hnone
    cases hnone
  unfold GoRequest.serve at hserve
  split at hserve
  · cases hserve
  · rw [hname, hempty] at hserve
    obtain rfl := Option.some.inj hserve
    rfl

theorem World.Consistent.stream {w : World} (h : w.Consistent) (trace : Option Nat)
    {logged : String} (hlogged : logged = "-") :
    World.Consistent { w with streamed := w.streamed ++ [⟨trace, logged⟩] } where
  toOneId := { h.toOneId with streamed := forall_mem_snoc h.streamed hlogged }
  named := h.named
  tasks := h.tasks
  idle := h.idle
  pending := h.pending
  begun := h.begun
  spelled := h.spelled
  own := h.own

section Receive

variable {w : World} (h : w.Consistent) (urls : UrlParser) {service : Service}
  {req : IncomingMessage} {randomUUID : String} (now : Int)
include h

/-- What the middleware does for a request of trace `i`, whose id the request gets. -/
theorem World.Consistent.received {trace : Option Nat} {t : Trace}
    (htraces : ∃ new, (w.receive urls service trace req randomUUID now).traces = w.traces ++ new)
    (ht : (w.receive urls service trace req randomUUID now).traces[
      trace.getD w.traces.length]? = some t)
    (hid : (CorrelationIdMiddleware.use randomUUID req).2.2 = t.id)
    (hclient : service = .gateway → textOf req.headers "authorization" = t.authToken ∧
      textOf req.headers "accept-language" = t.acceptLanguage)
    (hnamed : ∀ t ∈ (w.receive urls service trace req randomUUID now).traces, IsId t.id)
    (hkept : ∀ t ∈ (w.receive urls service trace req randomUUID now).traces,
      ∀ id, truthy t.sent = some id → t.id = id)
    (hapart : (w.receive urls service trace req randomUUID now).traces.Pairwise
      fun t t' => t.id = t'.id → truthy t'.sent = some t'.id) :
    (w.receive urls service trace req randomUUID now).Consistent := by
  obtain ⟨new, hnew⟩ := htraces
  have hgrow : ∀ {α : Type} {P : Trace → α → Prop} {items : List (Traced α)},
      Attributed w.traces P items →
        Attributed (w.receive urls service trace req randomUUID now).traces P items := by
    intro α P items hitems
    rw [hnew]
    exact hitems.grow new
  have hthis : ∀ {α : Type} (P : Trace → α → Prop) {x : α}, P t x →
      ∀ i, some (trace.getD w.traces.length) = some i →
        ∃ t, (w.receive urls service trace req randomUUID now).traces[i]? = some t ∧ P t x := by
    intro α P x hx i hi
    obtain rfl := Option.some.inj hi
    exact ⟨t, ht, hx⟩
  have hruns : t.RunsIn ⟨service, some (RequestContextMiddleware.use
      (CorrelationIdMiddleware.use randomUUID req).1)⟩ := by
    refine ⟨_, rfl, ?_, fun hgateway => ?_⟩
    · rw [← hid]
      exact textOf_use randomUUID req
    · rw [← (hclient hgateway).1, ← (hclient hgateway).2]
      exact ⟨textOf_use_ne randomUUID req (by decide), textOf_use_ne randomUUID req (by decide)⟩
  have haccess : (LoggerMiddleware.use urls now
      (CorrelationIdMiddleware.use randomUUID req).1).correlationId = t.id := by
    have hne := (hnamed t (List.mem_of_getElem? ht)).1
    unfold LoggerMiddleware.use
    rw [textOf_use, hid, truthy_of_ne hne]
    rfl
  exact {
    kept := hkept
    apart := hapart
    hops := hgrow h.hops
    responses := (hgrow h.responses).snoc
      (hthis (fun t header => header = (CORRELATION_HEADER, t.id)) (Prod.ext rfl hid))
    records := hgrow h.records
    outside := h.outside
    streamed := h.streamed
    named := hnamed
    tasks := (hgrow h.tasks).snoc (hthis Trace.RunsIn hruns)
    idle := forall_mem_snoc h.idle nofun
    pending := (hgrow h.pending).snoc
      (hthis (fun t (access : Access) => access.correlationId = t.id) haccess)
    begun := forall_mem_snoc h.begun nofun
    spelled := h.spelled
    own := h.own }

theorem World.Consistent.receive_known {i : Nat} {t : Trace} (ht : w.traces[i]? = some t)
    (hsent : textOf req.headers CORRELATION_HEADER = some t.id) :
    (w.receive urls .auth (some i) req randomUUID now).Consistent := by
  have hne := (h.named t (List.mem_of_getElem? ht)).1
  refine h.received urls now ⟨[], (List.append_nil _).symm⟩ ht (use_of_sent ?_) nofun h.named h.kept
    h.apart
  rw [hsent, truthy_of_ne hne]

theorem World.Consistent.receive_new (fresh : Fresh w randomUUID) (bare : Bare req.headers) :
    (w.receive urls service none req randomUUID now).Consistent := by
  have hfresh : ∀ t ∈ w.traces,
      t.id = (CorrelationIdMiddleware.use randomUUID req).2.2 →
        truthy (textOf req.headers CORRELATION_HEADER) =
          some (CorrelationIdMiddleware.use randomUUID req).2.2 := by
    intro t ht heq
    unfold CorrelationIdMiddleware.use at heq ⊢
    cases hsent : truthy (textOf req.headers CORRELATION_HEADER) with
    | some id => rfl
    | none =>
        rw [hsent] at heq
        have hmem : t.id ∈ w.traces.map Trace.id := List.mem_map_of_mem ht
        exact absurd (show t.id = randomUUID from heq) fun hid => fresh.2 (hid ▸ hmem)
  refine h.received urls now ⟨_, rfl⟩ List.getElem?_concat_length rfl (fun _ => ?_) ?_ ?_ ?_
  · exact ⟨(textOf_use_ne randomUUID req (by decide)).symm,
      (textOf_use_ne randomUUID req (by decide)).symm⟩
  · exact forall_mem_snoc h.named (isId_use fresh.1 bare)
  · exact forall_mem_snoc h.kept fun id hid => use_of_sent hid
  · refine List.pairwise_append.mpr ⟨h.apart, List.pairwise_singleton _ _, fun t ht t' ht' => ?_⟩
    rw [List.mem_singleton.mp ht']
    exact hfresh t ht

end Receive

/-! ## Runs -/

theorem consistent_init : World.init.Consistent where
  kept := nofun
  apart := List.Pairwise.nil
  hops := nofun
  responses := nofun
  records := nofun
  outside := nofun
  streamed := nofun
  named := nofun
  tasks := nofun
  idle := nofun
  pending := nofun
  begun := nofun
  spelled := nofun
  own := nofun

section Runs

variable {winston : Winston} {urls : UrlParser} {production : Bool}

theorem textOf_delivered {w : World} (h : w.Consistent) {i : Nat} {headers : SentHeaders}
    {req : IncomingMessage} (hhop : ⟨some i, .auth, headers⟩ ∈ w.hops)
    (harrives : Arrives headers (textOf req.headers)) :
    ∃ t, w.traces[i]? = some t ∧ textOf req.headers CORRELATION_HEADER = some t.id := by
  obtain ⟨t, ht, hcarried⟩ := h.hops _ hhop i rfl
  obtain ⟨hne, hbare⟩ := h.named t (List.mem_of_getElem? ht)
  have hlower : toLowerCase CORRELATION_HEADER = CORRELATION_HEADER := by decide
  have hread := harrives.value CORRELATION_HEADER t.id (hcarried nofun).1 (by rwa [hbare])
    fun other hother heq => h.spelled _ hhop other hother (heq.trans hlower)
  rw [hlower, hbare] at hread
  exact ⟨t, ht, hread⟩

theorem consistent_step {w w' : World} {e : Event} (h : w.Consistent) (genuine : Genuine w e)
    (hstep : step winston urls production w e = some w') : w'.Consistent := by
  cases e with
  | request service req randomUUID now =>
      obtain rfl := Option.some.inj hstep
      exact h.receive_new urls now genuine.1 genuine.2
  | start service =>
      obtain rfl := Option.some.inj hstep
      exact h.start service
  | log k call =>
      simp only [step] at hstep
      split at hstep
      next trace store htask =>
        split at hstep
        · obtain rfl := Option.some.inj hstep
          exact h.log (List.mem_of_getElem? htask) winston {} call
        · obtain rfl := Option.some.inj hstep
          exact h
      next => cases hstep
  | send k call =>
      simp only [step] at hstep
      split at hstep
      next trace store htask =>
        obtain rfl := Option.some.inj hstep
        exact h.send urls (List.mem_of_getElem? htask) call
      next => cases hstep
  | deliver j req randomUUID now =>
      obtain ⟨fresh, bare, harrives⟩ := genuine
      simp only [step] at hstep
      split at hstep
      next trace headers hhop =>
        obtain rfl := Option.some.inj hstep
        cases trace with
        | none => exact h.receive_new urls now fresh bare
        | some i =>
            obtain ⟨t, ht, hsent⟩ :=
              textOf_delivered h (List.mem_of_getElem? hhop) (harrives _ hhop)
            exact h.receive_known urls now ht hsent
      next => cases hstep
  | stream j r uuid =>
      simp only [step] at hstep
      split at hstep
      next trace headers ids hhop hserve =>
        obtain rfl := Option.some.inj hstep
        have hown : headers = .empty := h.own _ (List.mem_of_getElem? hhop) rfl
        have harrives := genuine _ hhop
        exact h.stream trace (serve_of_own (hown ▸ harrives) hserve)
      next => cases hstep
  | finish p store statusCode now =>
      simp only [step] at hstep
      split at hstep
      next trace access hpending =>
        obtain rfl := Option.some.inj hstep
        exact h.finish hpending winston store statusCode now
      next => cases hstep

theorem consistent_run {w : World} {events : List Event}
    (genuine : EachStep (step winston urls production) (fun w e _ => Genuine w e) .init events)
    (hrun : run (step winston urls production) .init events = some w) : w.Consistent := by
  have hsteps : EachStep (step winston urls production) (fun _ _ w => w.Consistent) .init events :=
    eachStep_of_invariant (fun w e w' h hgenuine hstep =>
      ⟨consistent_step h hgenuine hstep, consistent_step h hgenuine hstep⟩) consistent_init genuine
  exact holds_of_eachStep consistent_init hsteps hrun

/-- In every run what winston is given to log, what is answered and what is sent on for a request,
on the gateway and on the auth server, has one id: the one its client sent, else one that no
request had before. -/
theorem one_id {w : World} {events : List Event}
    (genuine : EachStep (step winston urls production) (fun w e _ => Genuine w e) .init events)
    (hrun : run (step winston urls production) .init events = some w) : w.OneId :=
  (consistent_run genuine hrun).toOneId

end Runs

/-! ## A token that is refreshed -/

/-- The request as the auth server receives it. -/
def refreshRequest : IncomingMessage where
  headers :=
    ⟨[(CORRELATION_HEADER, .one "6f1c2a50-0b7e-4c58-9a55-1d1f6f0e9b01")], List.nodup_singleton _⟩

def refreshEvents : List Event :=
  [.request .gateway ⟨.empty, none, none, none⟩ "6f1c2a50-0b7e-4c58-9a55-1d1f6f0e9b01" 0,
    .send 0 (.refreshToken "token"),
    .deliver 0 refreshRequest "0d3f8f52-94c7-4f0e-8f3a-2f7f0c1be2aa" 1,
    .finish 1 none 200 2]

theorem isUuid_of_all {value : String} (hlength : value.toList.length = 36)
    (hall : value.toList.all fun c => c ∈ "0123456789abcdef-".toList) : IsUuid value :=
  ⟨hlength, fun c hc => decide_eq_true_iff.mp (List.all_eq_true.mp hall c hc)⟩

theorem uuid_refresh : IsUuid "6f1c2a50-0b7e-4c58-9a55-1d1f6f0e9b01" :=
  isUuid_of_all (by decide) (by decide)

theorem bare_empty : Bare .empty := nofun

theorem get_refresh {ν : Type} (value : ν)
    (nodup : ([(CORRELATION_HEADER, value)].map Prod.fst).Nodup) (name : String) :
    (⟨[(CORRELATION_HEADER, value)], nodup⟩ : JsMap String ν).get name =
      if name = CORRELATION_HEADER then some value else none :=
  JsMap.lookup_cons CORRELATION_HEADER name value []

theorem textOf_refresh (name : String) :
    textOf refreshRequest.headers name =
      if name = CORRELATION_HEADER then some "6f1c2a50-0b7e-4c58-9a55-1d1f6f0e9b01" else none := by
  unfold textOf refreshRequest
  rw [get_refresh]
  split <;> simp_all

theorem arrives_refresh :
    Arrives ⟨[(CORRELATION_HEADER, "6f1c2a50-0b7e-4c58-9a55-1d1f6f0e9b01")],
      List.nodup_singleton _⟩ (textOf refreshRequest.headers) where
  value := by
    intro name text h _ _
    rw [get_refresh] at h
    split at h
    next hname =>
      cases h
      subst hname
      decide
    next => cases h
  absent := by
    intro name _ hname
    rw [textOf_refresh, if_neg]
    rintro rfl
    exact hname CORRELATION_HEADER List.mem_cons_self (by decide)

theorem genuine_refresh :
    EachStep (step .standard (.always "admin.example.com") true) (fun w e _ => Genuine w e) .init
      refreshEvents := by
  have hbare : Bare refreshRequest.headers := by
    intro name text h
    rw [textOf_refresh] at h
    split at h
    · cases h
      decide
    · cases h
  refine (eachStep_cons rfl).mpr ⟨⟨⟨uuid_refresh, by decide⟩, bare_empty⟩, ?_⟩
  refine (eachStep_cons rfl).mpr ⟨trivial, ?_⟩
  have huuid : IsUuid "0d3f8f52-94c7-4f0e-8f3a-2f7f0c1be2aa" :=
    isUuid_of_all (by decide) (by decide)
  refine (eachStep_cons rfl).mpr ⟨⟨⟨huuid, by decide⟩, hbare, ?_⟩, ?_⟩
  · intro hop hhop
    obtain rfl := Option.some.inj hhop
    exact arrives_refresh
  · exact (eachStep_cons rfl).mpr ⟨trivial, trivial⟩

theorem one_id_refresh :
    ∃ w, run (step .standard (.always "admin.example.com") true) .init refreshEvents = some w ∧
      w.records.length = 1 ∧ w.OneId :=
  ⟨_, rfl, rfl, one_id genuine_refresh rfl⟩

end NestGateway.Gateway
