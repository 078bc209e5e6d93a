import NestGateway.Core.Runs
import NestGateway.Core.Text
import NestGateway.LogProxy.Messages
import NestGateway.LogStreamer.ServiceWatch

/-! # From a log line to the topics

Every stream of the log-streamer sends the lines it reads on the one socket, and
the gateway publishes each message as it comes. A container that is streamed
twice under one id, or whose last lines are streamed again, has its lines
published again.
-/

namespace NestGateway.LogProxy

open Runs LogStreamer

structure LogLine where
  streamType : String
  text : String
  deriving Repr, DecidableEq

def byteAt (line : String) (i : Nat) : Option UInt8 := line.toUTF8.data[i]?

/-- The timestamp that Docker puts before a line, and the rest; `now` when there is none. -/
def splitTimestamp (now line : String) : String × String :=
  let stamp := line.toList.takeWhile (· ≠ ' ')
  if 30 < Text.byteLen line ∧ byteAt line 4 = some 45 ∧ byteAt line 10 = some 84 ∧
      stamp ≠ [] ∧ stamp ≠ line.toList then
    (String.ofList stamp, String.ofList (line.toList.drop (stamp.length + 1)))
  else (now, line)

def logMessage (now containerId serviceName : String) (line : LogLine) : Message where
  type := "log"
  containerId := containerId
  serviceName := serviceName
  timestamp := (splitTimestamp now line.text).1
  message := (splitTimestamp now line.text).2
  stream := line.streamType

def sendLogLine (now containerId : String) (line : LogLine) : Message :=
  logMessage now containerId "" line

def sendServiceLogLine (now serviceName containerId : String) (line : LogLine) : Message :=
  logMessage now containerId serviceName line

def sendLine (now : String) (stream : LogStreamer.Stream) (line : LogLine) : List Message :=
  if line.text = "" then []
  else
    match stream.serviceName with
    | none => [sendLogLine now stream.containerId line]
    | some serviceName => [sendServiceLogLine now serviceName stream.containerId line]

/-- Where a stream that opens a log starts: at its last hundred lines. -/
def tailStart (log : List LogLine) : Nat := log.length - 100

/-! ## The gateway and one log-streamer -/

/-- A publication, with the line and the stream it comes from. -/
structure Sent where
  stream : Nat
  container : String
  line : Nat
  publication : Publication
  deriving Repr, DecidableEq

structure Hub where
  manager : SubscriptionManager
  logs : String → List LogLine
  /-- What was published since the set of subscriptions last changed. -/
  published : List Sent

namespace Hub

/-- A new connection, while the containers have these logs. -/
def init (logs : String → List LogLine) : Hub := ⟨newSubscriptionManager, logs, []⟩

inductive Event where
  /-- A message of the gateway is handled while Docker knows these containers. -/
  | handled (msg : Message) (known : List String)
  /-- The service subscription starts the stream of a container, listed or reported. -/
  | containerStarted (serviceName containerId : String)
  | containerStopped (serviceName containerId : String)
  /-- A stream opens the log of the container its id refers to. -/
  | streamOpened (i : Nat) (container : String)
  | lineRead (i : Nat) (now : String)
  /-- A stream ends: its log is over, or it was cancelled. -/
  | streamEnded (i : Nat)
  | emitted (container : String) (line : LogLine)
  deriving Repr, DecidableEq

def handled (h : Hub) (msg : Message) (known : List String) : Hub :=
  let manager := h.manager.handle (· ∈ known) msg
  { h with
    manager
    published :=
      if manager.subs.keys = h.manager.subs.keys ∧
          manager.serviceSubs.keys = h.manager.serviceSubs.keys then h.published else [] }

def containerStarted (h : Hub) (serviceName : String) (sub : ServiceSubscription)
    (containerId : String) : Hub :=
  let (sub', streams) := sub.startContainerStream h.manager.streams containerId
  { h with
    manager :=
      { h.manager with
        serviceSubs := h.manager.serviceSubs.set serviceName sub'
        streams := streams } }

def containerStopped (h : Hub) (serviceName : String) (sub : ServiceSubscription)
    (containerId : String) : Hub :=
  { h with
    manager :=
      { h.manager with
        serviceSubs := h.manager.serviceSubs.set serviceName
          (sub.stopContainerStream containerId) } }

def modifyStream (h : Hub) (i : Nat) (f : LogStreamer.Stream → LogStreamer.Stream) : Hub :=
  { h with manager := { h.manager with streams := h.manager.streams.modify i f } }

/-- A stream moves on past a line, and the gateway publishes what was sent for it. -/
def lineRead (h : Hub) (i : Nat) (now : String) (stream : LogStreamer.Stream) (container : String)
    (position : Nat) (line : LogLine) : Hub :=
  let h' := h.modifyStream i fun stream => { stream with log := some (container, position + 1) }
  { h' with
    published := h'.published ++
      ((sendLine now stream line).flatMap onMessage).map (⟨i, container, position, ·⟩) }

def step (h : Hub) : Event → Option Hub
  | .handled msg known => some (h.handled msg known)
  | .containerStarted serviceName containerId =>
      match h.manager.serviceSubs.get serviceName with
      | none => none
      | some sub => some (h.containerStarted serviceName sub containerId)
  | .containerStopped serviceName containerId =>
      match h.manager.serviceSubs.get serviceName with
      | none => none
      | some sub => some (h.containerStopped serviceName sub containerId)
  | .streamOpened i container =>
      match h.manager.streams.get i with
      | none => none
      | some stream =>
          -- the id of a service's stream is the short id of its container
          if stream.log = none ∧ stream.ended = false ∧
              (stream.serviceName = none ∨ stream.containerId = shortId container) then
            some (h.modifyStream i fun stream =>
              { stream with log := some (container, tailStart (h.logs container)) })
          else none
  | .lineRead i now =>
      match h.manager.streams.get i with
      | none => none
      | some stream =>
          match stream.log with
          | none => none
          | some (container, position) =>
              match (h.logs container)[position]? with
              | none => none
              | some line =>
                  if stream.ended then none
                  else some (h.lineRead i now stream container position line)
  | .streamEnded i =>
      match h.manager.streams.get i with
      | none => none
      | some _ => some (h.modifyStream i fun stream => { stream with ended := true })
  | .emitted container line =>
      some
        { h with
          logs := fun c => if c = container then h.logs c ++ [line] else h.logs c }

def key (sent : Sent) : String × Nat × String := (sent.container, sent.line, sent.publication.topic)

/-- How often a line was published to a topic since the set of subscriptions last changed. -/
def times (h : Hub) (container : String) (line : Nat) (topic : String) : Nat :=
  (h.published.map key).count (container, line, topic)

def AtMostOnce (h : Hub) : Prop := ∀ container line topic, h.times container line topic ≤ 1

/-- Stream `i` has the log of a container open at a position. -/
def Reads (h : Hub) (i : Nat) (stream : LogStreamer.Stream) (container : String) (position : Nat) :
    Prop :=
  h.manager.streams.get i = some stream ∧ stream.log = some (container, position)

/-- A stream opens a container alone: every other stream that has opened it under the same id
has ended, and has sent none of the lines with which this one starts. -/
def OpensAlone (h : Hub) : Event → Prop
  | .streamOpened i container => ∀ stream, h.manager.streams.get i = some stream →
      ∀ j other position, j ≠ i → h.Reads j other container position →
        other.containerId = stream.containerId →
        other.ended = true ∧ ∀ sent ∈ h.published, sent.stream = j →
          sent.line < tailStart (h.logs container)
  | _ => True

def Feeds (stream : LogStreamer.Stream) (topic : String) : Prop :=
  topic = containerTopic stream.containerId ∨
    ∃ serviceName, stream.serviceName = some serviceName ∧ topic = serviceTopic serviceName

theorem topics_logMessage (now containerId serviceName : String) (line : LogLine) :
    (onMessage (logMessage now containerId serviceName line)).map (·.topic) =
      if containerId = "" then []
      else if serviceName = "" then [containerTopic containerId]
      else [containerTopic containerId, serviceTopic serviceName] := by
  rw [onMessage, logMessage]
  by_cases hid : containerId = ""
  · simp [hid]
  · by_cases hname : serviceName = "" <;> simp [hid, hname]

/-- What a line leads to: one publication at most for each topic of its stream. -/
theorem topics_sendLine (now : String) (stream : LogStreamer.Stream) (line : LogLine) :
    (((sendLine now stream line).flatMap onMessage).map (·.topic)).Nodup ∧
      ∀ publication ∈ (sendLine now stream line).flatMap onMessage,
        Feeds stream publication.topic := by
  obtain ⟨containerId, serviceName, log, ended⟩ := stream
  have hcases : ∃ topics : List String,
      ((sendLine now ⟨containerId, serviceName, log, ended⟩ line).flatMap onMessage).map
        (·.topic) = topics ∧ topics.Nodup ∧
          ∀ topic ∈ topics, Feeds ⟨containerId, serviceName, log, ended⟩ topic := by
    refine ⟨_, rfl, ?_⟩
    rw [sendLine]
    split
    · exact ⟨List.nodup_nil, fun _ h => absurd h List.not_mem_nil⟩
    · cases serviceName with
      | none =>
          simp only [List.flatMap_singleton, sendLogLine, topics_logMessage, if_true]
          split
          · exact ⟨List.nodup_nil, fun _ h => absurd h List.not_mem_nil⟩
          · exact ⟨List.nodup_singleton _, fun topic h => Or.inl (List.mem_singleton.mp h)⟩
      | some serviceName =>
          simp only [List.flatMap_singleton, sendServiceLogLine, topics_logMessage]
          split
          · exact ⟨List.nodup_nil, fun _ h => absurd h List.not_mem_nil⟩
          · split
            · exact ⟨List.nodup_singleton _, fun topic h => Or.inl (List.mem_singleton.mp h)⟩
            · refine ⟨by simp [containerTopic_ne_serviceTopic], fun topic h => ?_⟩
              rcases List.mem_cons.mp h with rfl | h
              · exact Or.inl rfl
              · exact Or.inr ⟨serviceName, rfl, List.mem_singleton.mp h⟩
  obtain ⟨topics, htopics, hnodup, hfeeds⟩ := hcases
  refine ⟨htopics ▸ hnodup, fun publication hmem => hfeeds _ ?_⟩
  rw [← htopics]
  exact List.mem_map_of_mem hmem

theorem sameId_of_feeds {container topic : String} {stream other : LogStreamer.Stream}
    (hnamed : stream.serviceName = none ∨ stream.containerId = shortId container)
    (hnamed' : other.serviceName = none ∨ other.containerId = shortId container)
    (hfeeds : Feeds stream topic) (hfeeds' : Feeds other topic) :
    other.containerId = stream.containerId := by
  rcases hfeeds with rfl | ⟨name, hname, rfl⟩
  · rcases hfeeds' with htopic | ⟨name', _, htopic⟩
    · exact (containerTopic_inj htopic).symm
    · exact absurd htopic (containerTopic_ne_serviceTopic _ _)
  · rcases hfeeds' with htopic | ⟨name', hname', _⟩
    · exact absurd htopic.symm (containerTopic_ne_serviceTopic _ _)
    · rw [hname] at hnamed
      rw [hname'] at hnamed'
      simp only [reduceCtorEq, false_or] at hnamed hnamed'
      rw [hnamed, hnamed']

/-! ## The invariant -/

structure Once (h : Hub) : Prop where
  nodup : (h.published.map key).Nodup
  /-- What was published was read, by a stream that feeds the topic. -/
  read : ∀ sent ∈ h.published, ∃ stream position,
    h.Reads sent.stream stream sent.container position ∧ sent.line < position ∧
      Feeds stream sent.publication.topic
  named : ∀ i stream container position, h.Reads i stream container position →
    stream.serviceName = none ∨ stream.containerId = shortId container
  /-- Of the streams of a container under one id, one at most has not ended. -/
  alone : ∀ i j stream other container position position', i ≠ j →
    h.Reads i stream container position → h.Reads j other container position' →
      other.containerId = stream.containerId → stream.ended = true ∨ other.ended = true
  /-- A stream that has not ended is past all that the others under its id have sent. -/
  behind : ∀ i stream container position, h.Reads i stream container position →
    stream.ended = false → ∀ sent ∈ h.published, sent.stream ≠ i → sent.container = container →
      ∀ other position', h.Reads sent.stream other container position' →
        other.containerId = stream.containerId → sent.line < position

theorem Reads.unique {h : Hub} {i : Nat} {stream stream' : LogStreamer.Stream}
    {container container' : String} {position position' : Nat}
    (hreads : h.Reads i stream container position)
    (hreads' : h.Reads i stream' container' position') :
    stream = stream' ∧ container = container' ∧ position = position' := by
  obtain rfl := Option.some.inj (hreads.1.symm.trans hreads'.1)
  have hlog := Option.some.inj (hreads.2.symm.trans hreads'.2)
  exact ⟨rfl, (Prod.mk.inj hlog).1, (Prod.mk.inj hlog).2⟩

/-- Two streams that agree but for having ended. -/
def Agree (stream stream' : LogStreamer.Stream) : Prop :=
  stream'.containerId = stream.containerId ∧ stream'.serviceName = stream.serviceName ∧
    (stream'.ended = false → stream.ended = false)

theorem ended_of_ended {stream stream' : LogStreamer.Stream}
    (h : stream'.ended = false → stream.ended = false) (he : stream.ended = true) :
    stream'.ended = true := by
  by_contra hlasting
  rw [h (Bool.not_eq_true _ ▸ hlasting)] at he
  cases he

theorem Agree.feeds {stream stream' : LogStreamer.Stream} (agree : Agree stream stream')
    {topic : String} (hfeeds : Feeds stream topic) : Feeds stream' topic := by
  rw [Feeds, agree.1, agree.2.1]
  exact hfeeds

theorem Once.fade {h h' : Hub} (once : Once h)
    (hreads : ∀ i stream' container position, h'.Reads i stream' container position →
      ∃ stream, h.Reads i stream container position ∧ Agree stream stream')
    (hkept : ∀ i stream container position, h.Reads i stream container position →
      ∃ stream', h'.Reads i stream' container position ∧ Agree stream stream')
    (hpublished : h'.published = h.published ∨ h'.published = []) : Once h' := by
  have hold : ∀ sent ∈ h'.published, sent ∈ h.published := by
    intro sent hmem
    rcases hpublished with heq | heq
    · exact heq ▸ hmem
    · rw [heq] at hmem
      cases hmem
  refine ⟨?_, fun sent hmem => ?_, fun i stream' c pos hr => ?_,
    fun i j stream' other' c pos pos' hne hr hr' hid => ?_,
    fun i stream' c pos hr hended sent hmem hne hc other' pos' hr' hid => ?_⟩
  · rcases hpublished with heq | heq
    · exact heq ▸ once.nodup
    · rw [heq]
      exact List.nodup_nil
  · obtain ⟨stream, pos, hr, hlt, hfeeds⟩ := once.read sent (hold sent hmem)
    obtain ⟨stream', hr', agree⟩ := hkept _ _ _ _ hr
    exact ⟨stream', pos, hr', hlt, agree.feeds hfeeds⟩
  · obtain ⟨stream, hr', hid, hname, _⟩ := hreads _ _ _ _ hr
    rw [hid, hname]
    exact once.named i stream c pos hr'
  · obtain ⟨stream, hr₁, hid₁, _, hended₁⟩ := hreads _ _ _ _ hr
    obtain ⟨other, hr₂, hid₂, _, hended₂⟩ := hreads _ _ _ _ hr'
    have halone := once.alone i j stream other c pos pos' hne hr₁ hr₂
      (hid₂.symm.trans (hid.trans hid₁))
    exact halone.imp (ended_of_ended hended₁) (ended_of_ended hended₂)
  · obtain ⟨stream, hr₁, hid₁, _, hended₁⟩ := hreads _ _ _ _ hr
    obtain ⟨other, hr₂, hid₂, _⟩ := hreads _ _ _ _ hr'
    exact once.behind i stream c pos hr₁ (hended₁ hended) sent (hold sent hmem) hne hc other pos'
      hr₂ (hid₂.symm.trans (hid.trans hid₁))

theorem reads_alloc {h h' : Hub} {stream : LogStreamer.Stream} (hlog : stream.log = none)
    (hstreams : h'.manager.streams = h.manager.streams ∨
      h'.manager.streams = h.manager.streams.alloc stream)
    {i : Nat} {stream' : LogStreamer.Stream} {container : String} {position : Nat} :
    h'.Reads i stream' container position ↔ h.Reads i stream' container position := by
  rw [Reads, Reads]
  rcases hstreams with heq | heq
  · rw [heq]
  · rw [heq, Heap.get_alloc]
    split
    next hi =>
      subst hi
      constructor
      · rintro ⟨hget, hopen⟩
        obtain rfl := Option.some.inj hget
        rw [hlog] at hopen
        cases hopen
      · rintro ⟨hget, _⟩
        rw [Heap.get_size] at hget
        cases hget
    next => rfl

theorem Once.alloc {h h' : Hub} (once : Once h) (stream : LogStreamer.Stream)
    (hlog : stream.log = none)
    (hstreams : h'.manager.streams = h.manager.streams ∨
      h'.manager.streams = h.manager.streams.alloc stream)
    (hpublished : h'.published = h.published ∨ h'.published = []) : Once h' := by
  refine once.fade (fun i stream' c pos hr => ?_) (fun i stream' c pos hr => ?_) hpublished
  · exact ⟨stream', (reads_alloc hlog hstreams).mp hr, rfl, rfl, id⟩
  · exact ⟨stream', (reads_alloc hlog hstreams).mpr hr, rfl, rfl, id⟩

theorem streams_handle (containerExists : String → Bool) (m : SubscriptionManager) (msg : Message) :
    ∃ stream : LogStreamer.Stream, stream.log = none ∧
      ((m.handle containerExists msg).streams = m.streams ∨
        (m.handle containerExists msg).streams = m.streams.alloc stream) := by
  refine ⟨{ containerId := msg.containerId, serviceName := none }, rfl, ?_⟩
  rw [SubscriptionManager.handle]
  split
  · split
    · exact Or.inl rfl
    · rw [SubscriptionManager.subscribe]
      split
      · exact Or.inl rfl
      · split
        · exact Or.inl rfl
        · exact Or.inr rfl
  · refine Or.inl ?_
    split
    · split
      · rw [SubscriptionManager.unsubscribe]
        split <;> rfl
      · rfl
    · split
      · split
        · rfl
        · rw [SubscriptionManager.subscribeService]
          split <;> rfl
      · split
        · split
          · rw [SubscriptionManager.unsubscribeService]
            split <;> rfl
          · rfl
        · rfl

theorem reads_modifyStream {h : Hub} {i : Nat} {stream : LogStreamer.Stream}
    (hget : h.manager.streams.get i = some stream)
    (f : LogStreamer.Stream → LogStreamer.Stream) (j : Nat) (stream' : LogStreamer.Stream)
    (container : String) (position : Nat) :
    (h.modifyStream i f).Reads j stream' container position ↔
      (j = i ∧ stream' = f stream ∧ (f stream).log = some (container, position)) ∨
        (j ≠ i ∧ h.Reads j stream' container position) := by
  simp only [Reads, modifyStream, Heap.get_modify]
  by_cases hj : j = i
  · subst hj
    rw [if_pos rfl, hget]
    simp only [Option.map_some, Option.some.injEq, ne_eq, not_true_eq_false, false_and, or_false,
      true_and]
    constructor
    · rintro ⟨rfl, hlog⟩
      exact ⟨rfl, hlog⟩
    · rintro ⟨rfl, hlog⟩
      exact ⟨rfl, hlog⟩
  · simp [hj]

theorem Once.streamEnded {h : Hub} (once : Once h) {i : Nat} {stream : LogStreamer.Stream}
    (hget : h.manager.streams.get i = some stream) :
    Once (h.modifyStream i fun stream => { stream with ended := true }) := by
  have hreads := reads_modifyStream hget fun stream => { stream with ended := true }
  refine once.fade (fun j stream' c pos hr => ?_) (fun j stream' c pos hr => ?_) (Or.inl rfl)
  · rcases (hreads j stream' c pos).mp hr with ⟨rfl, rfl, hlog⟩ | ⟨_, hr'⟩
    · exact ⟨stream, ⟨hget, hlog⟩, rfl, rfl, fun he => by cases he⟩
    · exact ⟨stream', hr', rfl, rfl, id⟩
  · by_cases hj : j = i
    · subst hj
      obtain rfl := Option.some.inj (hget.symm.trans hr.1)
      exact ⟨_, (hreads j _ c pos).mpr (Or.inl ⟨rfl, rfl, hr.2⟩), rfl, rfl, fun he => by cases he⟩
    · exact ⟨stream', (hreads j stream' c pos).mpr (Or.inr ⟨hj, hr⟩), rfl, rfl, id⟩

theorem Once.streamOpened {h : Hub} (once : Once h) {i : Nat} {stream : LogStreamer.Stream}
    {container : String} (hget : h.manager.streams.get i = some stream)
    (hlog : stream.log = none)
    (hnamed : stream.serviceName = none ∨ stream.containerId = shortId container)
    (alone : h.OpensAlone (.streamOpened i container)) :
    Once (h.modifyStream i fun stream =>
      { stream with log := some (container, tailStart (h.logs container)) }) := by
  have hreads := reads_modifyStream hget fun stream =>
    { stream with log := some (container, tailStart (h.logs container)) }
  -- the stream has sent nothing yet
  have hsilent : ∀ sent ∈ h.published, sent.stream ≠ i := by
    rintro sent hmem rfl
    obtain ⟨stream', pos, hr, _⟩ := once.read sent hmem
    obtain rfl := Option.some.inj (hget.symm.trans hr.1)
    cases hlog.symm.trans hr.2
  have hothers := alone stream hget
  refine ⟨once.nodup, fun sent hmem => ?_, fun j stream' c pos hr => ?_,
    fun j k stream' other' c pos pos' hne hr hr' hid => ?_,
    fun j stream' c pos hr hended sent hmem hne hc other' pos' hr' hid => ?_⟩
  · obtain ⟨stream', pos, hr, hlt, hfeeds⟩ := once.read sent hmem
    exact ⟨stream', pos, (hreads _ _ _ _).mpr (Or.inr ⟨hsilent sent hmem, hr⟩), hlt, hfeeds⟩
  · rcases (hreads _ _ _ _).mp hr with ⟨rfl, rfl, hopen⟩ | ⟨_, hr'⟩
    · obtain ⟨rfl, _⟩ := Prod.mk.inj (Option.some.inj hopen)
      exact hnamed
    · exact once.named j stream' c pos hr'
  · rcases (hreads _ _ _ _).mp hr with ⟨rfl, rfl, hopen⟩ | ⟨_, hold⟩
    · obtain ⟨rfl, _⟩ := Prod.mk.inj (Option.some.inj hopen)
      rcases (hreads _ _ _ _).mp hr' with ⟨rfl, _⟩ | ⟨hk, hold'⟩
      · exact absurd rfl hne
      · exact Or.inr (hothers k other' pos' hk hold' hid).1
    · rcases (hreads _ _ _ _).mp hr' with ⟨rfl, rfl, hopen⟩ | ⟨_, hold'⟩
      · obtain ⟨rfl, _⟩ := Prod.mk.inj (Option.some.inj hopen)
        exact Or.inl (hothers j stream' pos hne hold hid.symm).1
      · exact once.alone j k stream' other' c pos pos' hne hold hold' hid
  · rcases (hreads _ _ _ _).mp hr' with ⟨hi, _⟩ | ⟨hk, hold'⟩
    · exact absurd hi (hsilent sent hmem)
    · rcases (hreads _ _ _ _).mp hr with ⟨rfl, rfl, hopen⟩ | ⟨_, hold⟩
      · obtain ⟨rfl, rfl⟩ := Prod.mk.inj (Option.some.inj hopen)
        exact (hothers sent.stream other' pos' hk hold' hid).2 sent hmem rfl
      · exact once.behind j stream' c pos hold hended sent hmem hne hc other' pos' hold' hid

section LineRead

variable {h : Hub} {i : Nat} {stream : LogStreamer.Stream} {container : String} {position : Nat}
  (hopen : h.Reads i stream container position) {now : String} {line : LogLine}
include hopen

theorem reads_of_lineRead {j : Nat} {stream' : LogStreamer.Stream} {c : String} {pos : Nat}
    (hr : (h.lineRead i now stream container position line).Reads j stream' c pos) :
    ∃ old pos₀, h.Reads j old c pos₀ ∧ Agree old stream' ∧ pos₀ ≤ pos := by
  rcases (reads_modifyStream hopen.1 _ j stream' c pos).mp hr with ⟨rfl, rfl, hlog⟩ | ⟨_, hold⟩
  · obtain ⟨rfl, rfl⟩ := Prod.mk.inj (Option.some.inj hlog)
    exact ⟨stream, position, hopen, ⟨rfl, rfl, id⟩, Nat.le_succ _⟩
  · exact ⟨stream', pos, hold, ⟨rfl, rfl, id⟩, le_rfl⟩

theorem reads_lineRead {j : Nat} {old : LogStreamer.Stream} {c : String} {pos₀ : Nat}
    (hr : h.Reads j old c pos₀) :
    ∃ stream' pos, (h.lineRead i now stream container position line).Reads j stream' c pos ∧
      Agree old stream' ∧ pos₀ ≤ pos ∧ (j = i → pos₀ < pos) := by
  have hreads := reads_modifyStream hopen.1
    (fun stream => { stream with log := some (container, position + 1) }) j
  by_cases hj : j = i
  · subst hj
    obtain ⟨rfl, rfl, rfl⟩ := Reads.unique hopen hr
    exact ⟨_, position + 1, (hreads _ _ _).mpr (Or.inl ⟨rfl, rfl, rfl⟩), ⟨rfl, rfl, id⟩,
      Nat.le_succ _, fun _ => Nat.lt_succ_self _⟩
  · exact ⟨old, pos₀, (hreads _ _ _).mpr (Or.inr ⟨hj, hr⟩), ⟨rfl, rfl, id⟩, le_rfl,
      fun heq => absurd heq hj⟩

omit hopen in
theorem mem_batch {sent : Sent}
    (hmem : sent ∈ ((sendLine now stream line).flatMap onMessage).map
      (⟨i, container, position, ·⟩ : Publication → Sent)) :
    sent.stream = i ∧ sent.container = container ∧ sent.line = position ∧
      Feeds stream sent.publication.topic := by
  obtain ⟨publication, hpub, rfl⟩ := List.mem_map.mp hmem
  exact ⟨rfl, rfl, rfl, (topics_sendLine now stream line).2 publication hpub⟩

omit hopen in
theorem mem_published_lineRead {sent : Sent}
    (hmem : sent ∈ (h.lineRead i now stream container position line).published) :
    sent ∈ h.published ∨ (sent.stream = i ∧ sent.container = container ∧
      sent.line = position ∧ Feeds stream sent.publication.topic) := by
  rcases List.mem_append.mp hmem with hold | hnew
  · exact Or.inl hold
  · exact Or.inr (mem_batch hnew)

/-- Nothing of the line was published before to a topic of the stream. -/
theorem Once.fresh (once : Once h) (hended : stream.ended = false) {sent : Sent}
    (hmem : sent ∈ h.published) (hfeeds : Feeds stream sent.publication.topic)
    (hc : sent.container = container) : sent.line ≠ position := by
  obtain ⟨other, pos, hr, hlt, hother⟩ := once.read sent hmem
  by_cases hi : sent.stream = i
  · rw [hi] at hr
    obtain ⟨_, _, rfl⟩ := Reads.unique hr hopen
    exact hlt.ne
  · rw [hc] at hr
    have hid := sameId_of_feeds (once.named i stream container position hopen)
      (once.named _ other container pos hr) hfeeds hother
    exact (once.behind i stream container position hopen hended sent hmem hi hc other pos hr hid).ne

theorem Once.nodup_lineRead (once : Once h) (hended : stream.ended = false) :
    ((h.lineRead i now stream container position line).published.map key).Nodup := by
  change ((h.published ++ _).map key).Nodup
  rw [List.map_append, List.nodup_append]
  refine ⟨once.nodup, ?_, ?_⟩
  · rw [List.map_map]
    have hkeys : (key ∘ (⟨i, container, position, ·⟩ : Publication → Sent)) =
        (fun topic => (container, position, topic)) ∘ (·.topic) := rfl
    rw [hkeys, ← List.map_map]
    exact (topics_sendLine now stream line).1.map fun _ _ heq =>
      (Prod.mk.inj (Prod.mk.inj heq).2).2
  · rintro _ hold _ hnew rfl
    obtain ⟨sent, hsent, hkey⟩ := List.mem_map.mp hold
    obtain ⟨new, hnew, heq⟩ := List.mem_map.mp hnew
    obtain ⟨_, hc, hline, hfeeds⟩ := mem_batch hnew
    rw [← heq] at hkey
    obtain ⟨hc', hrest⟩ := Prod.mk.inj hkey
    obtain ⟨hline', htopic⟩ := Prod.mk.inj hrest
    exact once.fresh hopen hended hsent (htopic ▸ hfeeds) (hc'.trans hc) (hline'.trans hline)

theorem Once.lineRead (once : Once h) (hended : stream.ended = false) :
    Once (h.lineRead i now stream container position line) := by
  refine ⟨once.nodup_lineRead hopen hended, fun sent hsent => ?_, fun j stream' c pos hr => ?_,
    fun j k stream' other' c pos pos' hne hr hr' hid => ?_,
    fun j stream' c pos hr hended' sent hsent hne hc other' pos' hr' hid => ?_⟩
  · rcases mem_published_lineRead hsent with hold | ⟨hi, hc, hline, hfeeds⟩
    · obtain ⟨other, pos, hr, hlt, hfeeds⟩ := once.read sent hold
      obtain ⟨other', pos', hr', agree, hle, _⟩ := reads_lineRead hopen hr
      exact ⟨other', pos', hr', hlt.trans_le hle, agree.feeds hfeeds⟩
    · obtain ⟨stream', pos, hr, agree, _, hpast⟩ := reads_lineRead hopen hopen
      rw [hi, hc, hline]
      exact ⟨stream', pos, hr, hpast rfl, agree.feeds hfeeds⟩
  · obtain ⟨old, pos₀, hold, ⟨hid, hname, _⟩, _⟩ := reads_of_lineRead hopen hr
    rw [hid, hname]
    exact once.named j old c pos₀ hold
  · obtain ⟨old, pos₀, hold, ⟨hid₁, _, hended₁⟩, _⟩ := reads_of_lineRead hopen hr
    obtain ⟨old', pos₀', hold', ⟨hid₂, _, hended₂⟩, _⟩ := reads_of_lineRead hopen hr'
    have halone := once.alone j k old old' c pos₀ pos₀' hne hold hold'
      (hid₂.symm.trans (hid.trans hid₁))
    exact halone.imp (ended_of_ended hended₁) (ended_of_ended hended₂)
  · obtain ⟨old, pos₀, hold, ⟨hid₁, _, hended₁⟩, hle⟩ := reads_of_lineRead hopen hr
    obtain ⟨old', pos₀', hold', ⟨hid₂, _, _⟩, _⟩ := reads_of_lineRead hopen hr'
    have hid' : old'.containerId = old.containerId := hid₂.symm.trans (hid.trans hid₁)
    rcases mem_published_lineRead hsent with hmem | ⟨hi, _, _, _⟩
    · have hlt := once.behind j old c pos₀ hold (hended₁ hended') sent hmem hne hc old' pos₀'
        hold' hid'
      exact hlt.trans_le hle
    · -- a stream that reads a line is the one under its id that has not ended
      rw [hi] at hold' hne
      obtain ⟨rfl, rfl, rfl⟩ := Reads.unique hopen hold'
      rcases once.alone i j _ _ _ _ _ hne hopen hold hid'.symm with he | he
      · rw [hended] at he
        cases he
      · rw [hended₁ hended'] at he
        cases he

end LineRead

/-! ## Runs -/

theorem Once.step {h h' : Hub} {e : Event} (once : Once h) (alone : h.OpensAlone e)
    (hs : step h e = some h') : Once h' := by
  cases e with
  | handled msg known =>
      obtain rfl := Option.some.inj hs
      obtain ⟨stream, hlog, hstreams⟩ := streams_handle (· ∈ known) h.manager msg
      refine once.alloc _ hlog hstreams ?_
      rw [handled]
      dsimp only
      split
      · exact Or.inl rfl
      · exact Or.inr rfl
  | containerStarted serviceName containerId =>
      rw [Hub.step] at hs
      split at hs
      · cases hs
      next sub _ =>
        obtain rfl := Option.some.inj hs
        refine once.alloc { containerId, serviceName := some sub.serviceName } rfl ?_ (Or.inl rfl)
        change (sub.startContainerStream h.manager.streams containerId).2 = _ ∨
          (sub.startContainerStream h.manager.streams containerId).2 = _
        rw [ServiceSubscription.startContainerStream]
        split
        · exact Or.inl rfl
        · exact Or.inr rfl
  | containerStopped serviceName containerId =>
      rw [Hub.step] at hs
      split at hs
      · cases hs
      · obtain rfl := Option.some.inj hs
        exact once.alloc ⟨"", none, none, false⟩ rfl (Or.inl rfl) (Or.inl rfl)
  | streamOpened i container =>
      rw [Hub.step] at hs
      split at hs
      · cases hs
      next stream hget =>
        split at hs
        next hguard =>
          obtain rfl := Option.some.inj hs
          exact once.streamOpened hget hguard.1 hguard.2.2 alone
        next => cases hs
  | lineRead i now =>
      rw [Hub.step] at hs
      split at hs
      · cases hs
      next stream hget =>
        split at hs
        · cases hs
        next container position hlog =>
          split at hs
          · cases hs
          next line _ =>
            split at hs
            · cases hs
            next hended =>
              obtain rfl := Option.some.inj hs
              exact once.lineRead ⟨hget, hlog⟩ (by simpa using hended)
  | streamEnded i =>
      rw [Hub.step] at hs
      split at hs
      · cases hs
      next stream hget => exact Option.some.inj hs ▸ once.streamEnded hget
  | emitted container line =>
      obtain rfl := Option.some.inj hs
      exact once.alloc ⟨"", none, none, false⟩ rfl (Or.inl rfl) (Or.inl rfl)

theorem once_init (logs : String → List LogLine) : Once (init logs) := by
  have hnone : ∀ i stream container position,
      ¬ (init logs).Reads i stream container position := by
    rintro i stream container position ⟨hget, _⟩
    cases hget
  refine ⟨List.nodup_nil, fun sent hmem => ?_, fun _ _ _ _ hr => (hnone _ _ _ _ hr).elim,
    fun _ _ _ _ _ _ _ _ hr => (hnone _ _ _ _ hr).elim,
    fun _ _ _ _ hr => (hnone _ _ _ _ hr).elim⟩
  cases hmem

theorem Once.atMostOnce {h : Hub} (once : Once h) : h.AtMostOnce := fun _ _ _ =>
  List.nodup_iff_count_le_one.mp once.nodup _

/-- In a run in which every stream opens its container alone, no line is published twice to a
topic while the set of subscriptions is unchanged. -/
theorem at_most_once (logs : String → List LogLine) (es : List Event)
    (alone : EachStep step (fun h e _ => h.OpensAlone e) (init logs) es) :
    EachStep step (fun _ _ h' => h'.AtMostOnce) (init logs) es := by
  refine eachStep_of_invariant (I := Once) ?_ (once_init logs) alone
  intro h e h' once alone hs
  have once' := once.step alone hs
  exact ⟨once', once'.atMostOnce⟩

/-- A container and a container of a service, streamed at once under different ids. -/
theorem at_most_once_two : EachStep step (fun _ _ h' => h'.AtMostOnce) (init fun _ => [])
    [.handled { type := "subscribe", containerId := "db" } ["db"], .streamOpened 0 "0db",
      .handled { type := "subscribe_service", serviceName := "api" } [],
      .containerStarted "api" "1api", .streamOpened 1 "1api", .emitted "1api" ⟨"stdout", "ready"⟩,
      .lineRead 1 "t1"] := by
  refine at_most_once _ _ ⟨trivial, ?_, trivial, trivial, ?_, trivial, trivial, trivial⟩
  · rintro stream _ j other position hne ⟨hget, hlog⟩ _
    cases j with
    | zero => exact absurd rfl hne
    | succ j => cases hget
  · rintro stream _ j other position hne ⟨hget, hlog⟩ _
    match j with
    | 0 =>
        obtain rfl := Option.some.inj hget
        exact absurd (Prod.mk.inj (Option.some.inj hlog)).1 (by decide)
    | 1 => exact absurd rfl hne
    | j + 2 => cases hget

/-- A container streamed both directly and for its service. -/
def bothWays : List Event :=
  [.handled { type := "subscribe", containerId := "1api" } ["1api"], .streamOpened 0 "1api",
    .handled { type := "subscribe_service", serviceName := "api" } [],
    .containerStarted "api" "1api", .streamOpened 1 "1api", .emitted "1api" ⟨"stdout", "ready"⟩,
    .lineRead 0 "t1", .lineRead 1 "t2"]

/-- Its line is published twice to the topic of the container. -/
theorem bothWays_twice : ∃ h, run step (init fun _ => []) bothWays = some h ∧
    h.manager.subs.keys = ["1api"] ∧ h.manager.serviceSubs.keys = ["api"] ∧
    h.times "1api" 0 (containerTopic "1api") = 2 ∧ ¬ h.AtMostOnce := by
  refine ⟨_, rfl, rfl, rfl, by decide, fun hall => ?_⟩
  have hle := hall "1api" 0 (containerTopic "1api")
  revert hle
  decide

end Hub

end NestGateway.LogProxy
