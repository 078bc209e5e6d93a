import NestGateway.Core.Runs
import NestGateway.LogStreamer.Subscription

/-! # Following a service

A service subscription lists the running containers of its service, starts their
streams and then watches Docker events. An event stream delivers what happens
after it was opened, and nothing is listed again: a container that starts or dies
while no stream is open is missed.
-/

namespace NestGateway.LogStreamer

open Runs

/-- A container and its `com.docker.swarm.service.name` label, empty when there is none. -/
structure Container where
  id : String
  serviceName : String
  deriving Repr, DecidableEq

def shortId (id : String) : String := String.ofList (id.toList.take 12)

inductive Action where
  | start
  | die
  deriving Repr, DecidableEq

structure ServiceEvent where
  action : Action
  containerId : String
  serviceName : String
  deriving Repr, DecidableEq

/-- What `WatchServiceEvents` makes of a lifecycle event. -/
def serviceEvent (action : Action) (c : Container) : Option ServiceEvent :=
  if c.serviceName = "" then none else some ⟨action, shortId c.id, c.serviceName⟩

def listContainersByService (running : List Container) (serviceName : String) : List String :=
  (running.filter (·.serviceName = serviceName)).map (shortId ·.id)

/-! ## The subscription -/

inductive Phase where
  /-- `Start` is about to list the containers. -/
  | created
  /-- The streams of the listed containers that are still to be started. -/
  | starting (containers : List String)
  /-- `watchEvents` is about to open an event stream. -/
  | opening
  /-- The events of the open stream that have not been handled. -/
  | opened (queue : List ServiceEvent)
  /-- The stream is lost; the next one is opened in two seconds. -/
  | waiting
  | stopped
  deriving Repr, DecidableEq

structure Watch where
  running : List Container
  phase : Phase
  sub : ServiceSubscription
  streams : Heap Stream
  written : List Message

def newWatch (serviceName : String) (running : List Container) : Watch :=
  ⟨running, .created, newServiceSubscription serviceName, Heap.empty, []⟩

namespace Watch

def setPhase (w : Watch) (phase : Phase) : Watch := { w with phase }

def writeJSON (w : Watch) (msg : Message) : Watch := { w with written := w.written ++ [msg] }

def startContainerStream (w : Watch) (containerId : String) : Watch :=
  let (sub, streams) := w.sub.startContainerStream w.streams containerId
  { w with sub := sub, streams := streams }

def stopContainerStream (w : Watch) (containerId : String) : Watch :=
  { w with sub := w.sub.stopContainerStream containerId }

/-- `Start`, once the containers are listed. -/
def listed (w : Watch) (now : String) (containers : List String) : Watch :=
  let w' := w.setPhase (.starting containers)
  if containers = [] then
    w'.writeJSON
      { type := "service_event"
        serviceName := w.sub.serviceName
        event := "no_containers"
        message := "No running containers found for service " ++ w.sub.serviceName ++
          ", waiting for new containers..."
        stream := "event"
        timestamp := now }
  else w'

/-- `Start`, when the listing fails. -/
def listFailed (w : Watch) (now error : String) : Watch :=
  (w.writeJSON
    { type := "error"
      serviceName := w.sub.serviceName
      message := "failed to list containers: " ++ error }).listed now []

def lifecycleMessage (w : Watch) (now event done containerId : String) : Message where
  type := "service_event"
  serviceName := w.sub.serviceName
  containerId := containerId
  event := event
  message := "Container " ++ containerId ++ done
  stream := "event"
  timestamp := now

/-- One event in the loop of `watchEvents`. -/
def handleEvent (w : Watch) (now : String) (evt : ServiceEvent) : Watch :=
  if evt.serviceName ≠ w.sub.serviceName then w
  else
    match evt.action with
    | .start =>
        (w.writeJSON (w.lifecycleMessage now "container_started" " started"
          evt.containerId)).startContainerStream evt.containerId
    | .die =>
        (w.stopContainerStream evt.containerId).writeJSON
          (w.lifecycleMessage now "container_stopped" " stopped" evt.containerId)

def stop (w : Watch) : Watch := { w with sub := w.sub.stop, phase := .stopped }

/-- An event of Docker, delivered if a stream is open. -/
def deliver (w : Watch) (action : Action) (c : Container) : Watch :=
  match w.phase with
  | .opened queue => { w with phase := .opened (queue ++ (serviceEvent action c).toList) }
  | _ => w

end Watch

namespace Watch

inductive Event where
  | started (c : Container)
  | died (c : Container)
  | listed (now : String)
  | listFailed (now error : String)
  | streamStarted
  | watching
  | opened
  | handled (now : String)
  | lost
  | retried
  | stopped
  deriving Repr, DecidableEq

def step (w : Watch) : Event → Option Watch
  | .started c =>
      if c.id ∈ w.running.map (·.id) then none
      else some ({ w with running := w.running ++ [c] }.deliver .start c)
  | .died c =>
      if c ∈ w.running then
        some ({ w with running := w.running.filter (· ≠ c) }.deliver .die c)
      else none
  | .listed now =>
      match w.phase with
      | .created => some (w.listed now (listContainersByService w.running w.sub.serviceName))
      | _ => none
  | .listFailed now error =>
      match w.phase with
      | .created => some (w.listFailed now error)
      | _ => none
  | .streamStarted =>
      match w.phase with
      | .starting (containerId :: rest) =>
          some ((w.startContainerStream containerId).setPhase (.starting rest))
      | _ => none
  | .watching =>
      match w.phase with
      | .starting [] => some (w.setPhase .opening)
      | _ => none
  | .opened =>
      match w.phase with
      | .opening => some (w.setPhase (.opened []))
      | _ => none
  | .handled now =>
      match w.phase with
      | .opened (evt :: queue) => some ((w.handleEvent now evt).setPhase (.opened queue))
      | _ => none
  | .lost =>
      match w.phase with
      | .opening => some (w.setPhase .waiting)
      | .opened _ => some (w.setPhase .waiting)
      | _ => none
  | .retried =>
      match w.phase with
      | .waiting => some (w.setPhase .opening)
      | _ => none
  | .stopped => some w.stop

/-- A running container of the service has this id. -/
def Runs (w : Watch) (id : String) : Prop :=
  ∃ c ∈ w.running, c.serviceName = w.sub.serviceName ∧ shortId c.id = id

def Follows (w : Watch) : Prop := ∀ id, id ∈ w.sub.containers.keys ↔ w.Runs id

/-- The ids after an event. -/
def track (serviceName : String) (ids : String → Prop) (evt : ServiceEvent) (id : String) : Prop :=
  if evt.serviceName ≠ serviceName then ids id
  else
    match evt.action with
    | .start => id = evt.containerId ∨ ids id
    | .die => id ≠ evt.containerId ∧ ids id

/-- The ids, once the listed streams are started and the delivered events are handled. -/
def settled (w : Watch) : String → Prop :=
  match w.phase with
  | .starting containers => fun id => id ∈ containers ∨ id ∈ w.sub.containers.keys
  | .opened queue => queue.foldl (track w.sub.serviceName) (· ∈ w.sub.containers.keys)
  | _ => (· ∈ w.sub.containers.keys)

/-- Until the listing nothing is followed; from then on, what will be is what runs. -/
def Settles (w : Watch) : Prop :=
  match w.phase with
  | .created => w.sub.containers.keys = []
  | .stopped => True
  | _ => ∀ id, w.settled id ↔ w.Runs id

/-- When a lifecycle event is not missed: it is of another service, or it comes before the
listing, while a stream is open, or after the subscription is stopped. -/
def Seen (w : Watch) (c : Container) : Prop :=
  c.serviceName = w.sub.serviceName →
    w.phase = .created ∨ (∃ queue, w.phase = .opened queue) ∨ w.phase = .stopped

/-- No lifecycle event of the service is missed: none falls between the listing and the opening
of the stream or between a loss and the next opening, none is lost with its stream, the
listing succeeds, and no two running containers share their first twelve characters. -/
def NoneMissed (w : Watch) : Event → Prop
  | .started c => w.Seen c
  | .died c => w.Seen c ∧ ∀ c' ∈ w.running, c' ≠ c → c'.serviceName = c.serviceName →
      shortId c'.id ≠ shortId c.id
  | .listFailed _ _ => ∀ c ∈ w.running, c.serviceName ≠ w.sub.serviceName
  | .lost => ∀ queue, w.phase = .opened queue →
      ∀ evt ∈ queue, evt.serviceName ≠ w.sub.serviceName
  | _ => True

/-! ## Steps keep what will be followed -/

theorem track_other {serviceName : String} {ids : String → Prop} {evt : ServiceEvent}
    (h : evt.serviceName ≠ serviceName) : track serviceName ids evt = ids := by
  funext id
  rw [track, if_pos h]

theorem foldl_track_others {serviceName : String} {queue : List ServiceEvent}
    (h : ∀ evt ∈ queue, evt.serviceName ≠ serviceName) (ids : String → Prop) :
    queue.foldl (track serviceName) ids = ids := by
  induction queue with
  | nil => rfl
  | cons evt queue ih =>
      rw [List.foldl_cons, track_other (h evt List.mem_cons_self)]
      exact ih fun evt' hmem => h evt' (List.mem_cons_of_mem _ hmem)

@[simp] theorem serviceName_handleEvent (w : Watch) (now : String) (evt : ServiceEvent) :
    (w.handleEvent now evt).sub.serviceName = w.sub.serviceName := by
  rw [handleEvent]
  split
  · rfl
  · cases evt.action with
    | start => exact ServiceSubscription.serviceName_startContainerStream _ _ _
    | die => exact ServiceSubscription.serviceName_stopContainerStream _ _

theorem mem_handleEvent (w : Watch) (now : String) (evt : ServiceEvent) (id : String) :
    id ∈ (w.handleEvent now evt).sub.containers.keys ↔
      track w.sub.serviceName (· ∈ w.sub.containers.keys) evt id := by
  rw [handleEvent, track]
  split
  · rfl
  · cases evt.action with
    | start => exact ServiceSubscription.mem_startContainerStream
    | die => exact ServiceSubscription.mem_stopContainerStream

theorem runs_started (w : Watch) (c : Container) (id : String) :
    { w with running := w.running ++ [c] }.Runs id ↔
      track w.sub.serviceName w.Runs ⟨.start, shortId c.id, c.serviceName⟩ id := by
  simp only [Runs, track, List.mem_append, List.mem_singleton]
  split
  next hother =>
    constructor
    · rintro ⟨c', hmem | rfl, hname, hid⟩
      · exact ⟨c', hmem, hname, hid⟩
      · exact absurd hname hother
    · rintro ⟨c', hmem, hname, hid⟩
      exact ⟨c', Or.inl hmem, hname, hid⟩
  next hname =>
    constructor
    · rintro ⟨c', hmem | rfl, hname', hid⟩
      · exact Or.inr ⟨c', hmem, hname', hid⟩
      · exact Or.inl hid.symm
    · rintro (rfl | ⟨c', hmem, hname', hid⟩)
      · exact ⟨c, Or.inr rfl, not_not.mp hname, rfl⟩
      · exact ⟨c', Or.inl hmem, hname', hid⟩

theorem runs_died {w : Watch} {c : Container}
    (alone : ∀ c' ∈ w.running, c' ≠ c → c'.serviceName = c.serviceName →
      shortId c'.id ≠ shortId c.id) (id : String) :
    { w with running := w.running.filter (· ≠ c) }.Runs id ↔
      track w.sub.serviceName w.Runs ⟨.die, shortId c.id, c.serviceName⟩ id := by
  simp only [Runs, track, List.mem_filter, decide_eq_true_eq]
  split
  next hother =>
    constructor
    · rintro ⟨c', ⟨hmem, _⟩, hname, hid⟩
      exact ⟨c', hmem, hname, hid⟩
    · rintro ⟨c', hmem, hname, hid⟩
      refine ⟨c', ⟨hmem, ?_⟩, hname, hid⟩
      rintro rfl
      exact hother hname
  next hname =>
    have hname := not_not.mp hname
    constructor
    · rintro ⟨c', ⟨hmem, hne⟩, hname', rfl⟩
      exact ⟨alone c' hmem hne (hname'.trans hname.symm), c', hmem, hname', rfl⟩
    · rintro ⟨hid, c', hmem, hname', rfl⟩
      refine ⟨c', ⟨hmem, ?_⟩, hname', rfl⟩
      rintro rfl
      exact hid rfl

theorem foldl_serviceEvent {serviceName : String} (hname : serviceName ≠ "") (action : Action)
    (c : Container) (ids : String → Prop) :
    (serviceEvent action c).toList.foldl (track serviceName) ids =
      track serviceName ids ⟨action, shortId c.id, c.serviceName⟩ := by
  rw [serviceEvent]
  split
  next hnone => exact (track_other fun h => hname (h.symm.trans hnone)).symm
  next => rfl

theorem Settles.deliver {w : Watch} (settles : w.Settles) (hname : w.sub.serviceName ≠ "")
    {running : List Container} {action : Action} {c : Container} (seen : w.Seen c)
    (hruns : ∀ id, { w with running := running }.Runs id ↔
      track w.sub.serviceName w.Runs ⟨action, shortId c.id, c.serviceName⟩ id) :
    ({ w with running := running }.deliver action c).Settles := by
  obtain ⟨running₀, phase, sub, streams, written⟩ := w
  -- while no stream is open, the event is of another service
  have hquiet : phase ≠ .created → (∀ queue, phase ≠ .opened queue) → phase ≠ .stopped → ∀ id,
      Runs ⟨running₀, phase, sub, streams, written⟩ id ↔
        Runs ⟨running, phase, sub, streams, written⟩ id := by
    intro hcreated hopened hstopped id
    have hother : c.serviceName ≠ sub.serviceName := by
      intro hsame
      rcases seen hsame with h | ⟨queue, h⟩ | h
      · exact hcreated h
      · exact hopened queue h
      · exact hstopped h
    refine Iff.trans ?_ (hruns id).symm
    rw [track_other hother]
  cases phase with
  | created => exact settles
  | stopped => trivial
  | opened queue =>
      intro id
      refine Iff.trans ?_ (hruns id).symm
      change ((queue ++ (serviceEvent action c).toList).foldl (track sub.serviceName)
        (· ∈ sub.containers.keys)) id ↔ _
      have hsettled : queue.foldl (track sub.serviceName) (· ∈ sub.containers.keys) =
          Runs ⟨running₀, .opened queue, sub, streams, written⟩ :=
        funext fun id => propext (settles id)
      rw [List.foldl_append, foldl_serviceEvent hname, hsettled]
  | starting containers =>
      exact fun id => (settles id).trans (hquiet (by simp) (by simp) (by simp) id)
  | opening =>
      exact fun id => (settles id).trans (hquiet (by simp) (by simp) (by simp) id)
  | waiting =>
      exact fun id => (settles id).trans (hquiet (by simp) (by simp) (by simp) id)

theorem mem_listContainersByService {w : Watch} {id : String} :
    id ∈ listContainersByService w.running w.sub.serviceName ↔ w.Runs id := by
  simp only [listContainersByService, List.mem_map, List.mem_filter, decide_eq_true_eq, Runs,
    and_assoc]

theorem Settles.listed {w : Watch} (settles : w.Settles) (hphase : w.phase = .created)
    {containers : List String} (hlist : ∀ id, id ∈ containers ↔ w.Runs id) (now : String) :
    (w.listed now containers).Settles := by
  have hempty : w.sub.containers.keys = [] := by simpa only [Settles, hphase] using settles
  have hall : { w with phase := .starting containers }.Settles := by
    intro id
    change id ∈ containers ∨ id ∈ w.sub.containers.keys ↔ w.Runs id
    rw [hempty, hlist]
    simp
  rw [Watch.listed]
  split
  · exact hall
  · exact hall

theorem serviceName_deliver (w : Watch) (action : Action) (c : Container) :
    (w.deliver action c).sub.serviceName = w.sub.serviceName := by
  rw [deliver]
  split <;> rfl

theorem serviceName_listed (w : Watch) (now : String) (containers : List String) :
    (w.listed now containers).sub.serviceName = w.sub.serviceName := by
  rw [Watch.listed]
  split <;> rfl

theorem running_handleEvent (w : Watch) (now : String) (evt : ServiceEvent) :
    (w.handleEvent now evt).running = w.running := by
  rw [handleEvent]
  split
  · rfl
  · cases evt.action <;> rfl

theorem runs_congr {w v : Watch} (hrunning : v.running = w.running)
    (hname : v.sub.serviceName = w.sub.serviceName) : v.Runs = w.Runs := by
  funext id
  rw [Runs, Runs, hrunning, hname]

theorem Settles.listFailed {w : Watch} (settles : w.Settles) (hphase : w.phase = .created)
    (hnone : ∀ id, ¬ w.Runs id) (now : String) (message : Message) :
    ((w.writeJSON message).listed now []).Settles := by
  refine Settles.listed (w := w.writeJSON message) ?_ hphase (fun id => ?_) now
  · simpa only [Settles, writeJSON, hphase] using settles
  · exact iff_of_false List.not_mem_nil (hnone id)

theorem Settles.streamStarted {w : Watch} (settles : w.Settles) {containerId : String}
    {rest : List String} (hphase : w.phase = .starting (containerId :: rest)) :
    ((w.startContainerStream containerId).setPhase (.starting rest)).Settles := by
  have hsame :=
    ServiceSubscription.serviceName_startContainerStream w.sub w.streams containerId
  have hruns :
      ((w.startContainerStream containerId).setPhase (.starting rest)).Runs = w.Runs :=
    runs_congr rfl hsame
  intro id
  rw [hruns]
  simp only [Settles, settled, hphase] at settles
  refine Iff.trans ?_ (settles id)
  change id ∈ rest ∨
    id ∈ (w.sub.startContainerStream w.streams containerId).1.containers.keys ↔ _
  rw [ServiceSubscription.mem_startContainerStream, List.mem_cons]
  tauto

theorem Settles.handled {w : Watch} (settles : w.Settles) {evt : ServiceEvent}
    {queue : List ServiceEvent} (hphase : w.phase = .opened (evt :: queue)) (now : String) :
    ((w.handleEvent now evt).setPhase (.opened queue)).Settles := by
  have hsame := serviceName_handleEvent w now evt
  have hkeys : (· ∈ (w.handleEvent now evt).sub.containers.keys) =
      track w.sub.serviceName (· ∈ w.sub.containers.keys) evt :=
    funext fun id => propext (mem_handleEvent w now evt id)
  have hruns : ((w.handleEvent now evt).setPhase (.opened queue)).Runs = w.Runs :=
    runs_congr (running_handleEvent w now evt) hsame
  intro id
  rw [hruns]
  simp only [Settles, settled, hphase, List.foldl_cons] at settles
  refine Iff.trans ?_ (settles id)
  change queue.foldl (track (w.handleEvent now evt).sub.serviceName)
    (· ∈ (w.handleEvent now evt).sub.containers.keys) id ↔ _
  rw [hsame, hkeys]

theorem Settles.step_started {w w' : Watch} (settles : w.Settles) {c : Container}
    (hname : w.sub.serviceName ≠ "") (missed : w.NoneMissed (.started c))
    (h : step w (.started c) = some w') :
    w'.sub.serviceName = w.sub.serviceName ∧ w'.Settles := by
  unfold Watch.step at h
  dsimp only at h
  split at h
  · cases h
  · obtain rfl := Option.some.inj h
    exact ⟨serviceName_deliver _ _ _, settles.deliver hname missed (runs_started w c)⟩

theorem Settles.step_died {w w' : Watch} (settles : w.Settles) {c : Container}
    (hname : w.sub.serviceName ≠ "") (missed : w.NoneMissed (.died c))
    (h : step w (.died c) = some w') :
    w'.sub.serviceName = w.sub.serviceName ∧ w'.Settles := by
  unfold Watch.step at h
  dsimp only at h
  split at h
  · obtain rfl := Option.some.inj h
    exact ⟨serviceName_deliver _ _ _, settles.deliver hname missed.1 (runs_died missed.2)⟩
  · cases h

theorem Settles.step_listed {w w' : Watch} (settles : w.Settles) {now : String}
    (h : step w (.listed now) = some w') :
    w'.sub.serviceName = w.sub.serviceName ∧ w'.Settles := by
  unfold Watch.step at h
  dsimp only at h
  split at h
  next hphase =>
    obtain rfl := Option.some.inj h
    exact ⟨serviceName_listed _ _ _,
      settles.listed hphase (fun _ => mem_listContainersByService) now⟩
  next => cases h

theorem Settles.step_listFailed {w w' : Watch} (settles : w.Settles) {now error : String}
    (missed : w.NoneMissed (.listFailed now error)) (h : step w (.listFailed now error) = some w') :
    w'.sub.serviceName = w.sub.serviceName ∧ w'.Settles := by
  unfold Watch.step at h
  dsimp only at h
  split at h
  next hphase =>
    obtain rfl := Option.some.inj h
    refine ⟨serviceName_listed _ _ _, settles.listFailed hphase ?_ now _⟩
    rintro id ⟨c, hmem, hsame, _⟩
    exact missed c hmem hsame
  next => cases h

theorem Settles.step_streamStarted {w w' : Watch} (settles : w.Settles)
    (h : step w .streamStarted = some w') :
    w'.sub.serviceName = w.sub.serviceName ∧ w'.Settles := by
  unfold Watch.step at h
  dsimp only at h
  split at h
  next containerId rest hphase =>
    obtain rfl := Option.some.inj h
    exact ⟨ServiceSubscription.serviceName_startContainerStream w.sub w.streams containerId,
      settles.streamStarted hphase⟩
  next => cases h

theorem Settles.step_watching {w w' : Watch} (settles : w.Settles)
    (h : step w .watching = some w') :
    w'.sub.serviceName = w.sub.serviceName ∧ w'.Settles := by
  unfold Watch.step at h
  dsimp only at h
  split at h
  next hphase =>
    obtain rfl := Option.some.inj h
    refine ⟨rfl, fun id => ?_⟩
    simp only [Settles, settled, hphase, List.not_mem_nil, false_or] at settles
    exact settles id
  next => cases h

theorem Settles.step_handled {w w' : Watch} (settles : w.Settles) {now : String}
    (h : step w (.handled now) = some w') :
    w'.sub.serviceName = w.sub.serviceName ∧ w'.Settles := by
  unfold Watch.step at h
  dsimp only at h
  split at h
  next evt queue hphase =>
    obtain rfl := Option.some.inj h
    exact ⟨serviceName_handleEvent w now evt, settles.handled hphase now⟩
  next => cases h

theorem Settles.step_lost {w w' : Watch} (settles : w.Settles)
    (missed : w.NoneMissed .lost) (h : step w .lost = some w') :
    w'.sub.serviceName = w.sub.serviceName ∧ w'.Settles := by
  unfold Watch.step at h
  dsimp only at h
  split at h
  next hphase =>
    obtain rfl := Option.some.inj h
    simp only [Settles, settled, hphase] at settles
    exact ⟨rfl, settles⟩
  next queue hphase =>
    obtain rfl := Option.some.inj h
    simp only [Settles, settled, hphase] at settles
    rw [foldl_track_others (missed queue hphase)] at settles
    exact ⟨rfl, settles⟩
  next => cases h

/-- A step that misses nothing keeps what will be followed. -/
theorem Settles.step {w w' : Watch} {e : Event} (settles : w.Settles)
    (hname : w.sub.serviceName ≠ "") (missed : w.NoneMissed e) (h : step w e = some w') :
    w'.sub.serviceName = w.sub.serviceName ∧ w'.Settles := by
  cases e with
  | started c => exact settles.step_started hname missed h
  | died c => exact settles.step_died hname missed h
  | listed now => exact settles.step_listed h
  | listFailed now error => exact settles.step_listFailed missed h
  | streamStarted => exact settles.step_streamStarted h
  | watching => exact settles.step_watching h
  | opened =>
      rw [Watch.step] at h
      split at h
      next hphase =>
        obtain rfl := Option.some.inj h
        simp only [Settles, settled, hphase] at settles
        exact ⟨rfl, settles⟩
      next => cases h
  | handled now => exact settles.step_handled h
  | lost => exact settles.step_lost missed h
  | retried =>
      rw [Watch.step] at h
      split at h
      next hphase =>
        obtain rfl := Option.some.inj h
        simp only [Settles, settled, hphase] at settles
        exact ⟨rfl, settles⟩
      next => cases h
  | stopped => exact Option.some.inj h ▸ ⟨rfl, trivial⟩

/-- In a run that misses no lifecycle event, whenever a stream is open and all it has delivered
is handled, the followed containers are those that run. -/
theorem follows_service {serviceName : String} (hname : serviceName ≠ "")
    (running : List Container) (es : List Event)
    (missed : EachStep step (fun w e _ => w.NoneMissed e) (newWatch serviceName running) es) :
    EachStep step (fun _ _ w' => w'.phase = .opened [] → w'.Follows)
      (newWatch serviceName running) es := by
  refine eachStep_of_invariant
    (I := fun w => w.sub.serviceName = serviceName ∧ w.Settles) ?_ ⟨rfl, rfl⟩ missed
  rintro w e w' ⟨hsame, settles⟩ missed h
  obtain ⟨hsame', settles'⟩ := settles.step (hsame.symm ▸ hname) missed h
  refine ⟨⟨hsame'.trans hsame, settles'⟩, fun hphase id => ?_⟩
  simp only [Settles, settled, hphase] at settles'
  exact settles' id

def web (id : String) : Container := ⟨id, "web"⟩

/-- A listed container, one that starts while the stream is open, and a loss. -/
theorem follows_service_web :
    EachStep step (fun _ _ w' => w'.phase = .opened [] → w'.Follows)
      (newWatch "web" [web "c0ffee01"])
      [.listed "t0", .streamStarted, .watching, .opened, .started (web "c0ffee02"), .handled "t1",
        .died (web "c0ffee01"), .handled "t2", .lost, .retried, .opened] := by
  have hseen : ∀ {w : Watch} {c : Container} (queue : List ServiceEvent),
      w.phase = .opened queue → w.Seen c := fun queue h _ => Or.inr (Or.inl ⟨queue, h⟩)
  refine follows_service (by decide) _ _ ⟨trivial, trivial, trivial, trivial, hseen [] rfl,
    trivial, ⟨hseen [] rfl, by decide⟩, trivial, ?_, trivial, trivial, trivial⟩
  intro queue hqueue evt hmem
  cases hqueue
  cases hmem

/-- A container that starts after the listing and before the stream opens is not followed. -/
theorem startedBetween_missed : ∃ w, run step (newWatch "web" [])
      [.listed "t0", .watching, .started (web "c0ffee01"), .opened] = some w ∧
    w.phase = .opened [] ∧ w.running = [web "c0ffee01"] ∧ w.sub.containers.keys = [] ∧
    ¬ w.Follows := by
  refine ⟨_, rfl, rfl, rfl, rfl, fun h => ?_⟩
  have hmem := (h "c0ffee01").mpr
    ⟨web "c0ffee01", List.mem_singleton.mpr rfl, rfl, by decide⟩
  cases hmem

end Watch

end NestGateway.LogStreamer
