import NestGateway.LogProxy.Topics

/-! # The last lines of a container

When a container dies, its stream has its last lines to read and the watcher is
about to announce the stop. The watcher cancels the stream and announces at
once, the stream does not check again before it sends the lines it has in hand,
and a cancelled read loses what is left of the log.
-/

namespace NestGateway.LogStreamer

open Runs LogProxy

/-! ## Streams and the watcher -/

/-- What a message on the socket reports. -/
inductive Source where
  | line (containerId : String) (index : Nat)
  | started (containerId : String)
  /-- The stop of a container that had written this many lines. -/
  | stopped (containerId : String) (lines : Nat)
  deriving Repr, DecidableEq

structure Written where
  source : Source
  message : Message
  deriving Repr, DecidableEq

inductive Watcher where
  /-- `Start` is starting the streams of the containers it has listed. -/
  | listing
  /-- No event stream is open. -/
  | connecting
  | watching
  /-- The start of a container is announced, its stream is about to be started. -/
  | starting (containerId : String)
  /-- The stream of a container is cancelled, its stop is about to be announced. -/
  | stopping (containerId : String) (lines : Nat)
  deriving Repr, DecidableEq

/-- A subscription from its start until it is stopped. -/
structure Relay where
  sub : ServiceSubscription
  streams : Heap Stream
  /-- How many lines of the frame a stream has read it has not sent. -/
  inHand : Nat → Nat
  /-- Where the log that a stream reads ends, once the container has died. -/
  ends : Nat → Option Nat
  running : List Container
  logs : String → List LogLine
  watcher : Watcher
  /-- The events that are not taken, with the lines written before. -/
  queue : List (ServiceEvent × Nat)
  written : List Written

def newRelay (serviceName : String) (running : List Container) (logs : String → List LogLine) :
    Relay where
  sub := newServiceSubscription serviceName
  streams := Heap.empty
  inHand := fun _ => 0
  ends := fun _ => none
  running := running
  logs := logs
  watcher := .listing
  queue := []
  written := []

namespace Relay

def write (r : Relay) (source : Source) (message : Message) : Relay :=
  { r with written := r.written ++ [⟨source, message⟩] }

def toWatch (r : Relay) : Watch where
  running := r.running
  phase :=
    match r.watcher with
    | .listing => .starting []
    | .connecting => .opening
    | _ => .opened (r.queue.map (·.1))
  sub := r.sub
  streams := r.streams
  written := r.written.map (·.message)

/-- An event of Docker, delivered if a stream is open. -/
def deliver (r : Relay) (action : Action) (c : Container) : Relay :=
  match r.watcher with
  | .listing | .connecting => r
  | _ =>
      { r with
        queue := r.queue ++
          (serviceEvent action c).toList.map ((·, (r.logs (shortId c.id)).length)) }

def emitted (r : Relay) (c : Container) (line : LogLine) : Relay :=
  { r with logs := fun id => if id = shortId c.id then r.logs id ++ [line] else r.logs id }

/-- The logs that are open end with what the container has written. -/
def died (r : Relay) (c : Container) : Relay :=
  { r with
    running := r.running.filter (· ≠ c)
    ends := fun i =>
      match r.streams.get i with
      | none => r.ends i
      | some stream =>
          if stream.containerId = shortId c.id ∧ stream.log ≠ none ∧ r.ends i = none then
            some (r.logs (shortId c.id)).length
          else r.ends i }

def startContainerStream (r : Relay) (containerId : String) : Relay :=
  let (sub, streams) := r.sub.startContainerStream r.streams containerId
  { r with sub := sub, streams := streams }

/-- An event of the service is taken from the queue and handled up to its last statement. -/
def taken (r : Relay) (now : String) (evt : ServiceEvent) (lines : Nat) : Relay :=
  if evt.serviceName ≠ r.sub.serviceName then r
  else
    match evt.action with
    | .start =>
        { r.write (.started evt.containerId)
            (r.toWatch.lifecycleMessage now "container_started" " started" evt.containerId) with
          watcher := .starting evt.containerId }
    | .die =>
        { r with
          sub := r.sub.stopContainerStream evt.containerId
          watcher := .stopping evt.containerId lines }

def finished (r : Relay) (now : String) : Option Relay :=
  match r.watcher with
  | .starting containerId => some { r.startContainerStream containerId with watcher := .watching }
  | .stopping containerId lines =>
      some
        { r.write (.stopped containerId lines)
            (r.toWatch.lifecycleMessage now "container_stopped" " stopped" containerId) with
          watcher := .watching }
  | _ => none

def modifyStream (r : Relay) (i : Nat) (f : Stream → Stream) : Relay :=
  { r with streams := r.streams.modify i f }

def setInHand (r : Relay) (i lines : Nat) : Relay :=
  { r with inHand := fun j => if j = i then lines else r.inHand j }

/-- The log of a container that is not running ends. -/
def opened (r : Relay) (i : Nat) (containerId : String) : Relay :=
  { (r.modifyStream i fun stream => { stream with log := some (containerId, 0) }).setInHand i 0 with
    ends := fun j =>
      if j = i then
        if containerId ∈ r.running.map (shortId ·.id) then none
        else some (r.logs containerId).length
      else r.ends j }

/-- A stream was cancelled: it is no longer the stream of its container. -/
def Cancelled (r : Relay) (i : Nat) (containerId : String) : Prop :=
  r.sub.containers.get containerId ≠ some i

instance (r : Relay) (i : Nat) (containerId : String) : Decidable (r.Cancelled i containerId) :=
  inferInstanceAs (Decidable (_ ≠ _))

/-- A stream is at the end of its log and has sent all it has read. -/
def AtEnd (r : Relay) (i : Nat) (stream : Stream) : Prop :=
  r.inHand i = 0 ∧ ∃ log, stream.log = some log ∧ r.ends i = some log.2

instance (r : Relay) (i : Nat) (stream : Stream) : Decidable (r.AtEnd i stream) :=
  match hlog : stream.log with
  | none =>
      isFalse fun ⟨_, log, h, _⟩ => by
        rw [hlog] at h
        cases h
  | some log =>
      decidable_of_iff (r.inHand i = 0 ∧ r.ends i = some log.2) <| by
        rw [AtEnd, hlog]
        exact and_congr_right fun _ =>
          ⟨fun h => ⟨log, rfl, h⟩, fun ⟨_, h, h'⟩ => Option.some.inj h ▸ h'⟩

/-! ## Steps -/

inductive Event where
  | started (c : Container)
  | emitted (c : Container) (line : LogLine)
  | died (c : Container)
  /-- `Start` starts the stream of a container it has listed. -/
  | listed (containerId : String)
  /-- `Start` has started all of them. -/
  | watching
  | connected
  | lost
  | taken (now : String)
  | finished (now : String)
  | opened (i : Nat)
  /-- A stream reads a frame of some lines; a cancelled stream may still read one. -/
  | read (i lines : Nat)
  | sent (i : Nat) (now : String)
  | ended (i : Nat)
  deriving Repr, DecidableEq

def step (r : Relay) : Event → Option Relay
  | .started c =>
      if shortId c.id ∈ r.running.map (shortId ·.id) then none
      else some ({ r with running := r.running ++ [c] }.deliver .start c)
  | .emitted c line =>
      -- Docker puts a timestamp before every line
      if c ∈ r.running ∧ line.text ≠ "" then some (r.emitted c line) else none
  | .died c => if c ∈ r.running then some ((r.died c).deliver .die c) else none
  | .listed containerId =>
      match r.watcher with
      | .listing => some (r.startContainerStream containerId)
      | _ => none
  | .watching =>
      match r.watcher with
      | .listing => some { r with watcher := .connecting }
      | _ => none
  | .connected =>
      match r.watcher with
      | .connecting => some { r with watcher := .watching }
      | _ => none
  | .lost =>
      match r.watcher with
      | .watching => some { r with watcher := .connecting, queue := [] }
      | _ => none
  | .taken now =>
      match r.watcher, r.queue with
      | .watching, (evt, lines) :: queue => some ({ r with queue := queue }.taken now evt lines)
      | _, _ => none
  | .finished now => r.finished now
  | .opened i =>
      match r.streams.get i with
      | none => none
      | some stream =>
          if stream.log = none ∧ stream.ended = false then some (r.opened i stream.containerId)
          else none
  | .read i lines =>
      match r.streams.get i with
      | none => none
      | some stream =>
          match stream.log with
          | none => none
          | some (containerId, position) =>
              if stream.ended = false ∧ r.inHand i = 0 ∧ 0 < lines ∧
                  position + lines ≤ (r.ends i).getD (r.logs containerId).length then
                some ((r.modifyStream i fun stream =>
                  { stream with log := some (containerId, position + lines) }).setInHand i lines)
              else none
  | .sent i now =>
      match r.streams.get i with
      | none => none
      | some stream =>
          match stream.log with
          | none => none
          | some (_, position) =>
              match (r.logs stream.containerId)[position - r.inHand i]? with
              | none => none
              | some line =>
                  if stream.ended = false ∧ 0 < r.inHand i then
                    some ((r.write (.line stream.containerId (position - r.inHand i))
                      (sendServiceLogLine now r.sub.serviceName stream.containerId line)).setInHand
                        i (r.inHand i - 1))
                  else none
  | .ended i =>
      match r.streams.get i with
      | none => none
      | some stream =>
          if stream.ended = false ∧ r.inHand i = 0 ∧
              (r.Cancelled i stream.containerId ∨ r.AtEnd i stream) then
            some (r.modifyStream i fun stream => { stream with ended := true })
          else none

def Sent (written : List Written) (containerId : String) (line : Nat) : Prop :=
  ∃ msg ∈ written, msg.source = .line containerId line

/-- The stop of a container is announced, and no start since. -/
def Stopped (written : List Written) (containerId : String) : Prop :=
  ∃ before msg after lines, written = before ++ msg :: after ∧
    msg.source = .stopped containerId lines ∧ ∀ later ∈ after, later.source ≠ .started containerId

/-- A stop comes after all the lines of the container, a line only while the container is not
announced as stopped. -/
def Timely (before : List Written) (msg : Written) : Prop :=
  match msg.source with
  | .line containerId _ => ¬ Stopped before containerId
  | .started _ => True
  | .stopped containerId lines => ∀ line < lines, Sent before containerId line

structure InOrder (r : Relay) : Prop where
  timely : ∀ before msg after, r.written = before ++ msg :: after → Timely before msg
  /-- A stream ends when all that its container wrote before it died is sent. -/
  complete : ∀ i stream lines, r.streams.get i = some stream → stream.ended = true →
    r.ends i = some lines → ∀ line < lines, Sent r.written stream.containerId line

/-- When the watcher takes the die event of a container, a stream has sent all that the
container wrote, and the one that is cancelled has come to the end of its log. -/
def WaitsForLog (r : Relay) : Event → Prop
  | .taken _ => ∀ evt lines queue, r.queue = (evt, lines) :: queue →
      evt.serviceName = r.sub.serviceName → evt.action = .die →
        (lines = 0 ∨ ∃ i stream log, r.streams.get i = some stream ∧
          stream.containerId = evt.containerId ∧ stream.log = some log ∧
          lines + r.inHand i ≤ log.2) ∧
        ∀ i stream, r.sub.containers.get evt.containerId = some i →
          r.streams.get i = some stream → r.AtEnd i stream
  | _ => True

theorem eq_or_mem_of_append {written before after : List Written} {msg last : Written}
    (h : written ++ [last] = before ++ msg :: after) :
    (after = [] ∧ before = written ∧ msg = last) ∨
      ∃ after', after = after' ++ [last] ∧ written = before ++ msg :: after' := by
  rcases List.eq_nil_or_concat after with rfl | ⟨after', last', rfl⟩
  · obtain ⟨rfl, hlast⟩ := List.append_inj' h rfl
    exact Or.inl ⟨rfl, rfl, (List.singleton_inj.mp hlast).symm⟩
  · rw [List.concat_eq_append, ← List.cons_append, ← List.append_assoc] at h
    obtain ⟨rfl, hlast⟩ := List.append_inj' h rfl
    obtain rfl := List.singleton_inj.mp hlast
    exact Or.inr ⟨after', List.concat_eq_append, rfl⟩

theorem Sent.append {written : List Written} {containerId : String} {line : Nat}
    (h : Sent written containerId line) (msg : Written) :
    Sent (written ++ [msg]) containerId line := by
  obtain ⟨sent, hmem, hsource⟩ := h
  exact ⟨sent, List.mem_append_left _ hmem, hsource⟩

theorem Stopped.of_append {written : List Written} {msg : Written} {containerId : String}
    (h : Stopped (written ++ [msg]) containerId) :
    (∃ lines, msg.source = .stopped containerId lines) ∨
      (msg.source ≠ .started containerId ∧ Stopped written containerId) := by
  obtain ⟨before, stop, after, lines, heq, hsource, hlater⟩ := h
  rcases eq_or_mem_of_append heq with ⟨rfl, rfl, rfl⟩ | ⟨after', rfl, rfl⟩
  · exact Or.inl ⟨lines, hsource⟩
  · refine Or.inr ⟨hlater msg (List.mem_append_right _ (List.mem_singleton_self msg)), before, stop,
      after', lines, rfl, hsource, fun later hmem => hlater later (List.mem_append_left _ hmem)⟩

theorem not_stopped_nil (containerId : String) : ¬ Stopped [] containerId := by
  rintro ⟨before, msg, after, _, heq, _⟩
  cases before <;> cases heq

/-- What the half of a handling that is done has achieved. -/
def Halfway (r : Relay) : Prop :=
  match r.watcher with
  | .listing => ∀ containerId, ¬ Stopped r.written containerId
  | .connecting => True
  | .watching => True
  | .starting containerId => ¬ Stopped r.written containerId
  | .stopping containerId lines =>
      r.sub.containers.get containerId = none ∧ ∀ line < lines, Sent r.written containerId line

structure Orderly (r : Relay) : Prop where
  timely : ∀ before msg after, r.written = before ++ msg :: after → Timely before msg
  /-- A stream has sent what it has read, but for what it has in hand. -/
  sent : ∀ i stream log, r.streams.get i = some stream → stream.log = some log →
    r.inHand i ≤ log.2 ∧ ∀ line < log.2 - r.inHand i, Sent r.written stream.containerId line
  /-- No stream is left before the end of its log. -/
  drained : ∀ i stream, r.streams.get i = some stream →
    stream.ended = true ∨ r.Cancelled i stream.containerId → r.AtEnd i stream
  stopped : ∀ containerId, Stopped r.written containerId →
    r.sub.containers.get containerId = none
  halfway : r.Halfway

theorem Orderly.inOrder {r : Relay} (orderly : Orderly r) : InOrder r := by
  refine ⟨orderly.timely, fun i stream lines hget hended hends line hlt => ?_⟩
  obtain ⟨hnone, log, hlog, hends'⟩ := orderly.drained i stream hget (Or.inl hended)
  obtain rfl := Option.some.inj (hends.symm.trans hends')
  refine (orderly.sent i stream log hget hlog).2 line ?_
  rw [hnone]
  exact hlt

/-! ## Steps keep the order -/

theorem Orderly.of_same {r r' : Relay} (orderly : Orderly r) (hsub : r'.sub = r.sub)
    (hstreams : r'.streams = r.streams) (hinHand : r'.inHand = r.inHand)
    (hends : r'.ends = r.ends) (hwatcher : r'.watcher = r.watcher)
    (hwritten : r'.written = r.written) : Orderly r' := by
  obtain ⟨sub, streams, inHand, ends, running, logs, watcher, queue, written⟩ := r'
  cases hsub
  cases hstreams
  cases hinHand
  cases hends
  cases hwatcher
  cases hwritten
  exact ⟨orderly.timely, orderly.sent, orderly.drained, orderly.stopped, orderly.halfway⟩

theorem Orderly.deliver {r : Relay} (orderly : Orderly r) (action : Action) (c : Container) :
    Orderly (r.deliver action c) := by
  rw [Relay.deliver]
  split
  · exact orderly
  · exact orderly
  · exact orderly.of_same rfl rfl rfl rfl rfl rfl

theorem AtEnd.of_ends {r r' : Relay} {i : Nat} {stream : Stream} (h : r.AtEnd i stream)
    (hinHand : r'.inHand i = r.inHand i) (hends : ∀ n, r.ends i = some n → r'.ends i = some n) :
    r'.AtEnd i stream := by
  obtain ⟨hnone, log, hlog, hend⟩ := h
  exact ⟨hinHand.trans hnone, log, hlog, hends _ hend⟩

theorem Orderly.died {r : Relay} (orderly : Orderly r) (c : Container) : Orderly (r.died c) := by
  refine ⟨orderly.timely, orderly.sent, fun i stream hget hgone => ?_, orderly.stopped,
    orderly.halfway⟩
  refine (orderly.drained i stream hget hgone).of_ends rfl fun n hends => ?_
  rw [Relay.died]
  dsimp only
  split
  · exact hends
  · rw [if_neg fun h => Option.some_ne_none n (hends.symm.trans h.2.2)]
    exact hends

theorem get_startContainerStream (s : ServiceSubscription) (streams : Heap Stream)
    (containerId id : String) (hne : id ≠ containerId) :
    (s.startContainerStream streams containerId).1.containers.get id = s.containers.get id := by
  rw [ServiceSubscription.startContainerStream]
  split
  · rfl
  · exact (JsMap.get_set _ _ _ _).trans (if_neg hne)

theorem Orderly.startContainerStream {r : Relay} (orderly : Orderly r) {containerId : String}
    (hrunning : ¬ Stopped r.written containerId) (watcher : Watcher)
    (hhalfway : Halfway { r.startContainerStream containerId with watcher := watcher }) :
    Orderly { r.startContainerStream containerId with watcher := watcher } := by
  have hstopped : ∀ id, Stopped r.written id →
      (r.sub.startContainerStream r.streams containerId).1.containers.get id = none := by
    intro id hstopped
    rw [get_startContainerStream]
    · exact orderly.stopped id hstopped
    · rintro rfl
      exact hrunning hstopped
  by_cases hhas : r.sub.containers.has containerId = true
  · refine ⟨orderly.timely, ?_, ?_, hstopped, hhalfway⟩
    all_goals
      rw [Relay.startContainerStream, ServiceSubscription.startContainerStream, if_pos hhas]
    · exact orderly.sent
    · exact orderly.drained
  · have habsent : r.sub.containers.get containerId = none := by
      simpa [JsMap.has] using hhas
    refine ⟨orderly.timely, ?_, ?_, hstopped, hhalfway⟩
    all_goals
      rw [Relay.startContainerStream, ServiceSubscription.startContainerStream, if_neg hhas]
    · intro i stream log hget hlog
      change (r.streams.alloc _).get i = some stream at hget
      rcases Heap.get_of_alloc hget with ⟨_, rfl⟩ | hget
      · cases hlog
      · exact orderly.sent i stream log hget hlog
    · intro i stream hget hgone
      change (r.streams.alloc _).get i = some stream at hget
      rw [Heap.get_alloc] at hget
      split at hget
      next hnew =>
        obtain rfl := Option.some.inj hget
        rcases hgone with hended | hcancelled
        · cases hended
        · refine absurd ?_ hcancelled
          exact ((JsMap.get_set _ _ _ _).trans (if_pos rfl)).trans (congrArg some hnew.symm)
      next hold =>
        refine orderly.drained i stream hget (hgone.imp_right fun hcancelled => ?_)
        intro hcurrent
        refine hcancelled (((JsMap.get_set _ _ _ _).trans (if_neg ?_)).trans hcurrent)
        rintro hsame
        rw [hsame, habsent] at hcurrent
        cases hcurrent

theorem get_stopContainerStream (s : ServiceSubscription) (containerId id : String) :
    (s.stopContainerStream containerId).containers.get id =
      if id = containerId then none else s.containers.get id := by
  rw [ServiceSubscription.stopContainerStream]
  split
  · exact JsMap.get_delete _ _ _
  next habsent =>
    split
    next heq => simpa [JsMap.has, heq] using habsent
    next => rfl

/-- A message is written when it is timely, and a container it announces as stopped has no
stream. -/
theorem Orderly.write {r : Relay} (orderly : Orderly r) (source : Source) (message : Message)
    (htimely : Timely r.written ⟨source, message⟩)
    (hstop : ∀ containerId lines, source = .stopped containerId lines →
      r.sub.containers.get containerId = none) (watcher : Watcher)
    (hhalfway : Halfway { r.write source message with watcher := watcher }) :
    Orderly { r.write source message with watcher := watcher } := by
  refine ⟨fun before msg after heq => ?_, fun i stream log hget hlog => ?_, orderly.drained,
    fun containerId hstopped => ?_, hhalfway⟩
  · rcases eq_or_mem_of_append heq with ⟨_, rfl, rfl⟩ | ⟨after', _, heq'⟩
    · exact htimely
    · exact orderly.timely before msg after' heq'
  · obtain ⟨hle, hsent⟩ := orderly.sent i stream log hget hlog
    exact ⟨hle, fun line hlt => (hsent line hlt).append _⟩
  · rcases hstopped.of_append with ⟨lines, hsource⟩ | ⟨_, hold⟩
    · exact hstop containerId lines hsource
    · exact orderly.stopped containerId hold

theorem Orderly.taken {r : Relay} (orderly : Orderly r)
    {now : String} {evt : ServiceEvent} {lines : Nat}
    (waits : evt.serviceName = r.sub.serviceName → evt.action = .die →
      (lines = 0 ∨ ∃ i stream log, r.streams.get i = some stream ∧
        stream.containerId = evt.containerId ∧ stream.log = some log ∧
        lines + r.inHand i ≤ log.2) ∧
      ∀ i stream, r.sub.containers.get evt.containerId = some i →
        r.streams.get i = some stream → r.AtEnd i stream) :
    Orderly (r.taken now evt lines) := by
  rw [Relay.taken]
  split
  · exact orderly
  next hname =>
    cases haction : evt.action with
    | start =>
        refine orderly.write (.started evt.containerId) _ trivial (fun _ _ h => by cases h) _ ?_
        intro hstopped
        rcases hstopped.of_append with ⟨_, h⟩ | ⟨hne, _⟩
        · cases h
        · exact hne rfl
    | die =>
        obtain ⟨hsent, hcurrent⟩ := waits (not_not.mp hname) haction
        refine ⟨orderly.timely, orderly.sent, fun i stream hget hgone => ?_,
          fun id hstopped => ?_, ?_, ?_⟩
        · rcases hgone with hended | hcancelled
          · exact orderly.drained i stream hget (Or.inl hended)
          · by_cases hwas : r.Cancelled i stream.containerId
            · exact orderly.drained i stream hget (Or.inr hwas)
            · have hcur : r.sub.containers.get stream.containerId = some i := not_not.mp hwas
              by_cases hid : stream.containerId = evt.containerId
              · exact hcurrent i stream (hid ▸ hcur) hget
              · refine absurd ?_ hcancelled
                exact (get_stopContainerStream _ _ _).trans ((if_neg hid).trans hcur)
        · change (r.sub.stopContainerStream evt.containerId).containers.get id = none
          rw [get_stopContainerStream]
          split
          · rfl
          · exact orderly.stopped id hstopped
        · exact (get_stopContainerStream _ _ _).trans (if_pos rfl)
        · intro line hlt
          rcases hsent with rfl | ⟨i, stream, log, hget, hid, hlog, hle⟩
          · cases hlt
          · rw [← hid]
            exact (orderly.sent i stream log hget hlog).2 line (by omega)

theorem Orderly.finished {r r' : Relay} (orderly : Orderly r) {now : String}
    (h : r.finished now = some r') : Orderly r' := by
  have hhalfway := orderly.halfway
  rw [Relay.finished] at h
  rw [Halfway] at hhalfway
  split at h
  next containerId hwatcher =>
    obtain rfl := Option.some.inj h
    rw [hwatcher] at hhalfway
    exact orderly.startContainerStream hhalfway _ trivial
  next containerId lines hwatcher =>
    obtain rfl := Option.some.inj h
    rw [hwatcher] at hhalfway
    obtain ⟨hnone, hsent⟩ := hhalfway
    refine orderly.write (.stopped containerId lines) _ hsent (fun id n hsource => ?_) _ trivial
    cases hsource
    exact hnone
  next => cases h

theorem Orderly.streamed {r r' : Relay} (orderly : Orderly r) {i : Nat} (stream stream' : Stream)
    (hid : stream'.containerId = stream.containerId)
    (hstreams : ∀ j, r'.streams.get j = if j = i then some stream' else r.streams.get j)
    (hinHand : ∀ j, j ≠ i → r'.inHand j = r.inHand j)
    (hends : ∀ j, j ≠ i → r'.ends j = r.ends j)
    (hsent : ∀ log, stream'.log = some log →
      r'.inHand i ≤ log.2 ∧ ∀ line < log.2 - r'.inHand i, Sent r.written stream.containerId line)
    (hdrained : stream'.ended = true ∨ r.Cancelled i stream.containerId → r'.AtEnd i stream')
    (hsub : r'.sub = r.sub) (hwatcher : r'.watcher = r.watcher)
    (hwritten : r'.written = r.written) : Orderly r' := by
  refine ⟨hwritten ▸ orderly.timely, fun j other log hget hlog => ?_, fun j other hget hgone => ?_,
    hwritten ▸ hsub ▸ orderly.stopped, ?_⟩
  · rw [hstreams] at hget
    rw [hwritten]
    split at hget
    next heq =>
      obtain rfl := Option.some.inj hget
      rw [heq, hid]
      exact hsent log hlog
    next hne =>
      rw [hinHand j hne]
      exact orderly.sent j other log hget hlog
  · rw [Cancelled, hsub] at hgone
    rw [hstreams] at hget
    split at hget
    next heq =>
      obtain rfl := Option.some.inj hget
      rw [heq, hid] at hgone
      rw [heq]
      exact hdrained hgone
    next hne =>
      refine (orderly.drained j other hget hgone).of_ends (hinHand j hne) fun n hn => ?_
      rw [hends j hne]
      exact hn
  · have hhalfway := orderly.halfway
    rw [Halfway] at hhalfway ⊢
    rw [hwatcher, hwritten, hsub]
    exact hhalfway

theorem get_modifyStream {r : Relay} {i : Nat} {stream : Stream}
    (hget : r.streams.get i = some stream) (f : Stream → Stream) (j : Nat) :
    (r.modifyStream i f).streams.get j = if j = i then some (f stream) else r.streams.get j := by
  rw [modifyStream, Heap.get_modify, hget]
  rfl

/-- No stream opens its log after it is cancelled: it would be left before the end of it. -/
theorem Orderly.opened {r : Relay} (orderly : Orderly r) {i : Nat} {stream : Stream}
    (hget : r.streams.get i = some stream) (hlog : stream.log = none)
    (hended : stream.ended = false) : Orderly (r.opened i stream.containerId) := by
  refine orderly.streamed stream { stream with log := some (stream.containerId, 0) } rfl
    (get_modifyStream hget _) (fun j hne => if_neg hne) (fun j hne => if_neg hne) ?_ ?_ rfl rfl rfl
  · rintro log hlog
    obtain rfl := Option.some.inj hlog
    refine ⟨Nat.le_of_eq (if_pos rfl), fun line hlt => ?_⟩
    exact absurd (Nat.lt_of_lt_of_le hlt (Nat.sub_le _ _)) (Nat.not_lt_zero line)
  · rintro (h | hcancelled)
    · rw [hended] at h
      cases h
    · obtain ⟨_, log, hlog', _⟩ := orderly.drained i stream hget (Or.inr hcancelled)
      rw [hlog] at hlog'
      cases hlog'

theorem Orderly.read {r : Relay} (orderly : Orderly r) {i : Nat} {stream : Stream}
    (hget : r.streams.get i = some stream) {containerId : String} {position lines : Nat}
    (hlog : stream.log = some (containerId, position)) (hended : stream.ended = false)
    (hnone : r.inHand i = 0) (hpos : 0 < lines)
    (hle : position + lines ≤ (r.ends i).getD (r.logs containerId).length) :
    Orderly ((r.modifyStream i fun stream =>
      { stream with log := some (containerId, position + lines) }).setInHand i lines) := by
  refine orderly.streamed stream { stream with log := some (containerId, position + lines) } rfl
    (get_modifyStream hget _) (fun j hne => if_neg hne) (fun _ _ => rfl) ?_ ?_ rfl rfl rfl
  · rintro log hlog'
    obtain rfl := Option.some.inj hlog'
    obtain ⟨_, hsent⟩ := orderly.sent i stream _ hget hlog
    rw [setInHand]
    simp only [if_true]
    refine ⟨by omega, fun line hlt => hsent line ?_⟩
    rw [hnone]
    omega
  · rintro (h | hcancelled)
    · rw [hended] at h
      cases h
    · obtain ⟨_, log, hlog', hends⟩ := orderly.drained i stream hget (Or.inr hcancelled)
      obtain rfl := Option.some.inj (hlog.symm.trans hlog')
      rw [hends, Option.getD_some] at hle
      dsimp only at hle
      omega

/-- A stream with lines in hand is the current one of its container, which is not announced as
stopped. -/
theorem Orderly.current {r : Relay} (orderly : Orderly r) {i : Nat} {stream : Stream}
    (hget : r.streams.get i = some stream) (hpos : 0 < r.inHand i) :
    r.sub.containers.get stream.containerId = some i ∧ ¬ Stopped r.written stream.containerId := by
  have hcurrent : r.sub.containers.get stream.containerId = some i := by
    by_contra hcancelled
    obtain ⟨hnone, _⟩ := orderly.drained i stream hget (Or.inr hcancelled)
    omega
  refine ⟨hcurrent, fun hstopped => ?_⟩
  rw [orderly.stopped _ hstopped] at hcurrent
  cases hcurrent

theorem Orderly.halfway_line {r : Relay} (orderly : Orderly r) (containerId : String) (line : Nat)
    (message : Message) : (r.write (.line containerId line) message).Halfway := by
  have hkept : ∀ id, Stopped (r.write (.line containerId line) message).written id →
      Stopped r.written id := by
    intro id hstopped
    rcases hstopped.of_append with ⟨_, h⟩ | ⟨_, hold⟩
    · cases h
    · exact hold
  have hhalfway := orderly.halfway
  rw [Halfway] at hhalfway ⊢
  split
  next hwatcher =>
    have hwatcher : r.watcher = .listing := hwatcher
    rw [hwatcher] at hhalfway
    exact fun id hstopped => hhalfway id (hkept id hstopped)
  next => trivial
  next => trivial
  next id hwatcher =>
    have hwatcher : r.watcher = .starting id := hwatcher
    rw [hwatcher] at hhalfway
    exact fun hstopped => hhalfway (hkept _ hstopped)
  next id lines hwatcher =>
    have hwatcher : r.watcher = .stopping id lines := hwatcher
    rw [hwatcher] at hhalfway
    exact ⟨hhalfway.1, fun line hlt => (hhalfway.2 line hlt).append _⟩

theorem Orderly.lineSent {r : Relay} (orderly : Orderly r) {i : Nat} {stream : Stream}
    (hget : r.streams.get i = some stream) {containerId : String} {position : Nat}
    (hlog : stream.log = some (containerId, position)) (hended : stream.ended = false)
    (hpos : 0 < r.inHand i) (message : Message) :
    Orderly ((r.write (.line stream.containerId (position - r.inHand i)) message).setInHand i
      (r.inHand i - 1)) := by
  obtain ⟨hcurrent, hrunning⟩ := orderly.current hget hpos
  have hwritten : Orderly (r.write (.line stream.containerId (position - r.inHand i)) message) :=
    orderly.write (.line stream.containerId (position - r.inHand i)) message hrunning
      (fun _ _ h => by cases h) r.watcher (orderly.halfway_line _ _ message)
  obtain ⟨hle, hsent⟩ := hwritten.sent i stream _ hget hlog
  have hle : r.inHand i ≤ position := hle
  refine hwritten.streamed stream stream rfl (fun j => ?_)
    (fun j hne => if_neg hne) (fun _ _ => rfl) ?_ ?_ rfl rfl rfl
  · split
    next heq => exact heq ▸ hget
    next => rfl
  · intro log hlog'
    obtain rfl := Option.some.inj (hlog.symm.trans hlog')
    rw [setInHand]
    simp only [if_true]
    refine ⟨by omega, fun line hlt => ?_⟩
    by_cases hlast : line = position - r.inHand i
    · refine ⟨_, List.mem_append_right _ (List.mem_singleton_self _), ?_⟩
      rw [hlast]
    · refine hsent line ?_
      change line < position - r.inHand i
      omega
  · rintro (h | hcancelled)
    · rw [hended] at h
      cases h
    · exact absurd hcurrent hcancelled

theorem Orderly.ended {r : Relay} (orderly : Orderly r) {i : Nat} {stream : Stream}
    (hget : r.streams.get i = some stream)
    (hwhy : r.Cancelled i stream.containerId ∨ r.AtEnd i stream) :
    Orderly (r.modifyStream i fun stream => { stream with ended := true }) := by
  have hend : r.AtEnd i stream := by
    rcases hwhy with hcancelled | hend
    · exact orderly.drained i stream hget (Or.inr hcancelled)
    · exact hend
  exact orderly.streamed stream { stream with ended := true } rfl
    (get_modifyStream hget _) (fun _ _ => rfl) (fun _ _ => rfl)
    (fun log hlog => orderly.sent i stream log hget hlog) (fun _ => hend) rfl rfl rfl

/-! ## Runs -/

theorem Orderly.step_listed {r r' : Relay} (orderly : Orderly r) {containerId : String}
    (h : Relay.step r (.listed containerId) = some r') : Orderly r' := by
  unfold Relay.step at h
  dsimp only at h
  split at h
  next hwatcher =>
    obtain rfl := Option.some.inj h
    have hhalfway := orderly.halfway
    rw [Halfway, hwatcher] at hhalfway
    refine orderly.startContainerStream (hhalfway containerId) r.watcher ?_
    rw [Halfway]
    dsimp only
    rw [hwatcher]
    exact hhalfway
  next => cases h

theorem Orderly.step_taken {r r' : Relay} (orderly : Orderly r) {now : String}
    (waits : r.WaitsForLog (.taken now)) (h : Relay.step r (.taken now) = some r') :
    Orderly r' := by
  unfold Relay.step at h
  dsimp only at h
  split at h
  next evt lines queue _ hqueue =>
    obtain rfl := Option.some.inj h
    have orderly' : Orderly { r with queue := queue } :=
      orderly.of_same rfl rfl rfl rfl rfl rfl
    exact orderly'.taken (waits evt lines queue hqueue)
  next => cases h

theorem Orderly.step_opened {r r' : Relay} (orderly : Orderly r) {i : Nat}
    (h : Relay.step r (.opened i) = some r') : Orderly r' := by
  unfold Relay.step at h
  dsimp only at h
  split at h
  · cases h
  next stream hget =>
    split at h
    next hguard =>
      obtain rfl := Option.some.inj h
      exact orderly.opened hget hguard.1 hguard.2
    next => cases h

theorem Orderly.step_read {r r' : Relay} (orderly : Orderly r) {i lines : Nat}
    (h : Relay.step r (.read i lines) = some r') : Orderly r' := by
  unfold Relay.step at h
  dsimp only at h
  split at h
  · cases h
  next stream hget =>
    split at h
    · cases h
    next containerId position hlog =>
      split at h
      next hguard =>
        obtain rfl := Option.some.inj h
        exact orderly.read hget hlog hguard.1 hguard.2.1 hguard.2.2.1 hguard.2.2.2
      next => cases h

theorem Orderly.step_sent {r r' : Relay} (orderly : Orderly r) {i : Nat} {now : String}
    (h : Relay.step r (.sent i now) = some r') : Orderly r' := by
  unfold Relay.step at h
  dsimp only at h
  split at h
  · cases h
  next stream hget =>
    split at h
    · cases h
    next containerId position hlog =>
      split at h
      · cases h
      next line _ =>
        split at h
        next hguard =>
          obtain rfl := Option.some.inj h
          exact orderly.lineSent hget hlog hguard.1 hguard.2 _
        next => cases h

theorem Orderly.step_ended {r r' : Relay} (orderly : Orderly r) {i : Nat}
    (h : Relay.step r (.ended i) = some r') : Orderly r' := by
  unfold Relay.step at h
  dsimp only at h
  split at h
  · cases h
  next stream hget =>
    split at h
    next hguard =>
      obtain rfl := Option.some.inj h
      exact orderly.ended hget hguard.2.2
    next => cases h

theorem Orderly.step {r r' : Relay} {e : Event} (orderly : Orderly r) (waits : r.WaitsForLog e)
    (h : step r e = some r') : Orderly r' := by
  cases e with
  | started c =>
      rw [Relay.step] at h
      split at h
      · cases h
      · obtain rfl := Option.some.inj h
        have orderly' : Orderly { r with running := r.running ++ [c] } :=
          orderly.of_same rfl rfl rfl rfl rfl rfl
        exact orderly'.deliver .start c
  | emitted c line =>
      rw [Relay.step] at h
      split at h
      · obtain rfl := Option.some.inj h
        unfold emitted
        exact orderly.of_same rfl rfl rfl rfl rfl rfl
      · cases h
  | died c =>
      rw [Relay.step] at h
      split at h
      · obtain rfl := Option.some.inj h
        exact (orderly.died c).deliver .die c
      · cases h
  | listed containerId => exact orderly.step_listed h
  | watching =>
      rw [Relay.step] at h
      split at h
      · obtain rfl := Option.some.inj h
        exact ⟨orderly.timely, orderly.sent, orderly.drained, orderly.stopped, trivial⟩
      · cases h
  | connected =>
      rw [Relay.step] at h
      split at h
      · obtain rfl := Option.some.inj h
        exact ⟨orderly.timely, orderly.sent, orderly.drained, orderly.stopped, trivial⟩
      · cases h
  | lost =>
      rw [Relay.step] at h
      split at h
      · obtain rfl := Option.some.inj h
        exact ⟨orderly.timely, orderly.sent, orderly.drained, orderly.stopped, trivial⟩
      · cases h
  | taken now => exact orderly.step_taken waits h
  | finished now => exact orderly.finished h
  | opened i => exact orderly.step_opened h
  | read i lines => exact orderly.step_read h
  | sent i now => exact orderly.step_sent h
  | ended i => exact orderly.step_ended h

theorem orderly_newRelay (serviceName : String) (running : List Container)
    (logs : String → List LogLine) : Orderly (newRelay serviceName running logs) := by
  refine ⟨fun before msg after heq => ?_, fun i stream log hget => ?_, fun i stream hget => ?_,
    fun id hstopped => (not_stopped_nil id hstopped).elim, not_stopped_nil⟩
  · cases before <;> cases heq
  · cases hget
  · cases hget

/-- In a run in which the watcher takes no die event before the stream is through with the log,
a stop comes after all lines of its container, no line follows it before the next start, and
streams end when all is sent. -/
theorem in_order (serviceName : String) (running : List Container) (logs : String → List LogLine)
    (es : List Event)
    (waits : EachStep step (fun r e _ => r.WaitsForLog e) (newRelay serviceName running logs) es) :
    EachStep step (fun _ _ r' => r'.InOrder) (newRelay serviceName running logs) es := by
  refine eachStep_of_invariant (I := Orderly) ?_ (orderly_newRelay serviceName running logs) waits
  intro r e r' orderly waits h
  have orderly' := orderly.step waits h
  exact ⟨orderly', orderly'.inOrder⟩

def panicking : Container := ⟨"c1", "api"⟩

def beforePanic : List Event :=
  [.watching, .connected, .started panicking, .taken "t1", .finished "t2", .opened 0,
    .emitted panicking ⟨"stderr", "panic"⟩]

/-- Its stream is through with the log before the watcher takes the die event. -/
theorem in_order_panic : EachStep step (fun _ _ r' => r'.InOrder) (newRelay "api" [] fun _ => [])
    (beforePanic ++ [.died panicking, .read 0 1, .sent 0 "t3", .taken "t4", .ended 0,
      .finished "t5"]) := by
  refine in_order _ _ _ _ ⟨trivial, trivial, trivial, ?_, trivial, trivial, trivial, trivial,
    trivial, trivial, ?_, trivial, trivial, trivial⟩
  · rintro evt lines queue hqueue _ hdie
    cases hqueue
    cases hdie
  · rintro evt lines queue hqueue _ _
    cases hqueue
    refine ⟨Or.inr ⟨0, _, ("c1", 1), rfl, rfl, rfl, by decide⟩, ?_⟩
    rintro i stream hcurrent hget
    cases hcurrent
    cases hget
    exact ⟨rfl, ("c1", 1), rfl, rfl⟩

/-- The line is sent after the stop is announced. -/
theorem panic_late : ∃ r, run step (newRelay "api" [] fun _ => [])
    (beforePanic ++ [.read 0 1, .died panicking, .taken "t3", .finished "t4", .sent 0 "t5"]) =
      some r ∧
    r.written.map (·.source) = [.started "c1", .stopped "c1" 1, .line "c1" 0] ∧ ¬ r.InOrder := by
  refine ⟨_, rfl, by decide, fun horder => ?_⟩
  obtain ⟨msg, hmem, hsource⟩ := horder.timely [_] _ [_] rfl 0 (by decide)
  obtain rfl := List.mem_singleton.mp hmem
  cases hsource

/-- The line is lost: the stream is cancelled before it reads it. -/
theorem panic_lost : ∃ r, run step (newRelay "api" [] fun _ => [])
    (beforePanic ++ [.died panicking, .taken "t3", .finished "t4", .ended 0]) = some r ∧
    r.written.map (·.source) = [.started "c1", .stopped "c1" 1] ∧ ¬ r.InOrder := by
  refine ⟨_, rfl, by decide, fun horder => ?_⟩
  obtain ⟨msg, hmem, hsource⟩ := horder.timely [_] _ [] rfl 0 (by decide)
  obtain rfl := List.mem_singleton.mp hmem
  cases hsource

end Relay

end NestGateway.LogStreamer
