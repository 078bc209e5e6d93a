import NestGateway.LogProxy.Containers
import NestGateway.Ui.ContainerList

/-! # The viewer of a service

The viewer keeps the containers of its service that it takes for active: those
it was opened with, those that a message starts or that write a line, less those
that a message stops; when it is resumed it lists them again. It polls the
statistics of the active ones and gives every container a colour.
-/

namespace NestGateway.Ui

open ContainerList GoBytes LogProxy LogStreamer.Listing LogStreamer.Stats Runs

namespace ServiceViewer

def REPLICA_COLORS : List String :=
  ["text-cyan-400", "text-yellow-400", "text-green-400", "text-pink-400", "text-orange-400",
    "text-indigo-400"]

/-- `REPLICA_COLORS[i % REPLICA_COLORS.length]` -/
def replicaColor (i : Nat) : String :=
  (REPLICA_COLORS[i % REPLICA_COLORS.length]?).getD ""

/-- The fields of an entry that the viewer looks at. -/
structure ServiceLogEntry where
  containerId : Bytes
  event : Option String

/-- `nodeName` of a container, which the log-streamer omits when it is empty. -/
def nodeNameOf (c : ContainerInfo) : Option Bytes :=
  if c.nodeName = [] then none else some c.nodeName

structure State where
  activeContainers : JsMap Bytes (Option Bytes)
  /-- `containerColorMapRef.current` -/
  colors : JsMap Bytes String
  /-- `colorIndexRef.current` -/
  colorIndex : Nat
  isPaused : Bool
  /-- The queries of `syncServiceContainers` that are not settled. -/
  queries : Nat

def init (service : ServiceGroup) : State where
  activeContainers :=
    service.containers.foldl (fun initial c => initial.set c.id (nodeNameOf c)) .empty
  colors :=
    service.containers.zipIdx.foldl (fun m c => m.set c.1.id (replicaColor c.2)) .empty
  colorIndex := service.containers.length
  isPaused := false
  queries := 0

namespace State

/-- `getContainerColor`; the colour it returns is the one the map has then. -/
def getContainerColor (s : State) (containerId : Bytes) : State :=
  if s.colors.has containerId then s
  else
    { s with
      colors := s.colors.set containerId (replicaColor s.colorIndex)
      colorIndex := s.colorIndex + 1 }

/-- The update of `ensureActiveContainer`. -/
def ensured (prev : JsMap Bytes (Option Bytes)) (containerId : Bytes) (nodeName : Option Bytes) :
    JsMap Bytes (Option Bytes) :=
  match prev.get containerId with
  | some current =>
      if nodeName = none ∨ nodeName = some [] ∨ current = nodeName then prev
      else prev.set containerId (nodeName.or current)
  | none => prev.set containerId nodeName

def ensureActiveContainer (s : State) (containerId : Bytes) (nodeName : Option Bytes) : State :=
  if containerId = [] then s
  else
    { s.getContainerColor containerId with
      activeContainers := ensured s.activeContainers containerId nodeName }

/-- `syncServiceContainers`, once its query has returned. -/
def synced (serviceName : Bytes) (s : State) (containers : List ContainerInfo) : State :=
  let ours := ofService serviceName containers
  { ours.foldl (fun s c => s.getContainerColor c.id) s with
    activeContainers := ours.foldl (fun next c => next.set c.id (nodeNameOf c)) .empty }

def resumeStream (s : State) : State := { s with isPaused := false, queries := s.queries + 1 }

end State

inductive Event where
  | data (entry : ServiceLogEntry)
  | togglePause
  | scrollToBottom
  /-- A query of `syncServiceContainers` is settled, with no list when it failed. -/
  | settled (containers : Option (List ContainerInfo))
  /-- A row is rendered in the colour of its container. -/
  | row (containerId : Bytes)

/-- `onData`; the viewer is not subscribed while it is paused. -/
def onData (s : State) (entry : ServiceLogEntry) : State :=
  if entry.event = some "container_started" then s.ensureActiveContainer entry.containerId none
  else if entry.event = some "container_stopped" then
    { s with activeContainers := s.activeContainers.delete entry.containerId }
  else s.ensureActiveContainer entry.containerId none

def step (serviceName : Bytes) (s : State) : Event → Option State
  | .data entry => if s.isPaused then none else some (onData s entry)
  | .togglePause => some (if s.isPaused then s.resumeStream else { s with isPaused := true })
  | .scrollToBottom => some (if s.isPaused then s.resumeStream else s)
  | .settled containers =>
      if s.queries = 0 then none
      else
        let s := { s with queries := s.queries - 1 }
        match containers with
        | none => some s
        | some containers => some (s.synced serviceName containers)
  | .row containerId => some (s.getContainerColor containerId)

def State.containerIds (s : State) : List Bytes := s.activeContainers.keys

/-! ## The active containers -/

/-- What an event says of a container, if it says whether it is active. -/
def Event.word (serviceName id : Bytes) : Event → Option Bool
  | .data entry =>
      if entry.containerId ≠ id then none
      else if entry.event = some "container_stopped" then some false
      else if id = [] then none
      else some true
  | .settled (some containers) =>
      some ((ofService serviceName containers).any fun c => c.id = id)
  | .settled none | .togglePause | .scrollToBottom | .row _ => none

section Active

variable {serviceName id : Bytes}

theorem mem_keys_foldl_set {α β : Type} (key : α → Bytes) (value : α → β) (xs : List α)
    (m : JsMap Bytes β) :
    id ∈ (xs.foldl (fun m x => m.set (key x) (value x)) m).keys ↔
      id ∈ m.keys ∨ ∃ x ∈ xs, key x = id := by
  induction xs generalizing m with
  | nil => simp
  | cons x xs ih =>
      rw [List.foldl_cons, ih, JsMap.mem_keys_set, List.exists_mem_cons_iff, or_assoc]
      simp only [eq_comm (a := id), or_left_comm]

@[simp] theorem getContainerColor_active (s : State) (containerId : Bytes) :
    (s.getContainerColor containerId).activeContainers = s.activeContainers := by
  unfold State.getContainerColor
  split <;> rfl

theorem mem_ensured {prev : JsMap Bytes (Option Bytes)} {containerId : Bytes}
    {nodeName : Option Bytes} :
    id ∈ (State.ensured prev containerId nodeName).keys ↔ id = containerId ∨ id ∈ prev.keys := by
  unfold State.ensured
  split
  next current hcurrent =>
    have hhas : prev.has containerId = true := by
      rw [JsMap.has, hcurrent]
      rfl
    split
    · exact JsMap.mem_keys_of_has hhas
    · exact JsMap.mem_keys_set
  next => exact JsMap.mem_keys_set

theorem mem_ensureActive {s : State} {containerId : Bytes} {nodeName : Option Bytes}
    (hne : containerId ≠ []) :
    id ∈ (s.ensureActiveContainer containerId nodeName).containerIds ↔
      id = containerId ∨ id ∈ s.containerIds := by
  unfold State.ensureActiveContainer
  rw [if_neg hne]
  exact mem_ensured

theorem mem_synced {s : State} {containers : List ContainerInfo} :
    id ∈ (s.synced serviceName containers).containerIds ↔
      ∃ c ∈ ofService serviceName containers, c.id = id := by
  show id ∈ (List.foldl _ JsMap.empty _).keys ↔ _
  rw [mem_keys_foldl_set]
  simp

theorem onData_starting {s : State} {entry : ServiceLogEntry}
    (h : entry.event ≠ some "container_stopped") :
    onData s entry = s.ensureActiveContainer entry.containerId none := by
  unfold onData
  rw [if_neg h, ite_self]

theorem mem_onData {s : State} {entry : ServiceLogEntry} :
    id ∈ (onData s entry).containerIds ↔
      (Event.data entry).word serviceName id = some true ∨
        ((Event.data entry).word serviceName id = none ∧ id ∈ s.containerIds) := by
  by_cases hstop : entry.event = some "container_stopped"
  · have hdata : (onData s entry).containerIds =
        (s.activeContainers.delete entry.containerId).keys := by
      unfold onData
      rw [if_neg (by rw [hstop]; decide), if_pos hstop]
      rfl
    rw [hdata, JsMap.mem_keys_delete]
    by_cases hid : entry.containerId = id
    · simp [Event.word, hstop, hid]
    · simp [Event.word, hid, State.containerIds, Ne.symm hid]
  · rw [onData_starting hstop]
    by_cases hempty : entry.containerId = []
    · unfold State.ensureActiveContainer
      rw [if_pos hempty]
      by_cases hid : entry.containerId = id
      · simp [Event.word, hstop, hid, hid.symm.trans hempty]
      · simp [Event.word, hid]
    · rw [mem_ensureActive hempty]
      by_cases hid : entry.containerId = id
      · have hne : id ≠ [] := hid ▸ hempty
        simp [Event.word, hstop, hid, hne]
      · simp [Event.word, hid, Ne.symm hid]

/-- What an event says of a container is so after it; of what it is silent stays. -/
theorem mem_step {s s' : State} {e : Event} (h : step serviceName s e = some s') :
    id ∈ s'.containerIds ↔
      e.word serviceName id = some true ∨ (e.word serviceName id = none ∧ id ∈ s.containerIds) := by
  cases e with
  | data entry =>
      simp only [step] at h
      split at h
      next => cases h
      next =>
        obtain rfl := Option.some.inj h
        exact mem_onData
  | togglePause =>
      obtain rfl := Option.some.inj h
      split <;> simp [Event.word, State.containerIds, State.resumeStream]
  | scrollToBottom =>
      obtain rfl := Option.some.inj h
      split <;> simp [Event.word, State.containerIds, State.resumeStream]
  | settled containers =>
      simp only [step] at h
      split at h
      next => cases h
      next =>
        split at h
        next =>
          obtain rfl := Option.some.inj h
          simp [Event.word, State.containerIds]
        next listed =>
          obtain rfl := Option.some.inj h
          rw [mem_synced]
          simp [Event.word]
  | row containerId =>
      obtain rfl := Option.some.inj h
      simp [Event.word, State.containerIds]

/-- The last thing that the events say of a container. -/
def lastWord (serviceName id : Bytes) (events : List Event) : Option Bool :=
  events.reverse.findSome? (Event.word serviceName id)

theorem lastWord_cons (e : Event) (events : List Event) :
    lastWord serviceName id (e :: events) =
      (lastWord serviceName id events).or (e.word serviceName id) := by
  unfold lastWord
  rw [List.reverse_cons, List.findSome?_append, List.findSome?_cons, List.findSome?_nil]
  cases e.word serviceName id <;> rfl

theorem mem_run {s s' : State} {events : List Event}
    (h : run (step serviceName) s events = some s') :
    id ∈ s'.containerIds ↔ lastWord serviceName id events = some true ∨
      (lastWord serviceName id events = none ∧ id ∈ s.containerIds) := by
  induction events generalizing s with
  | nil =>
      obtain rfl := Option.some.inj h
      simp [lastWord]
  | cons e events ih =>
      unfold run at h
      split at h
      next => cases h
      next t hstep =>
        rw [ih h, mem_step hstep, lastWord_cons]
        cases lastWord serviceName id events <;> simp

end Active

theorem mem_init {service : ServiceGroup} {id : Bytes} :
    id ∈ (init service).containerIds ↔ ∃ c ∈ service.containers, c.id = id := by
  show id ∈ (List.foldl _ JsMap.empty _).keys ↔ _
  rw [mem_keys_foldl_set]
  simp

/-- A container is active when the last that was said of it is that it runs, or nothing was said
and the viewer was opened with it. -/
theorem active_containers {service : ServiceGroup} {events : List Event} {s : State}
    (hrun : run (step service.serviceName) (init service) events = some s) (id : Bytes) :
    id ∈ s.containerIds ↔ lastWord service.serviceName id events = some true ∨
      (lastWord service.serviceName id events = none ∧ ∃ c ∈ service.containers, c.id = id) := by
  rw [mem_run hrun, mem_init]

def shop : ServiceGroup := ⟨web.serviceName, [web]⟩

/-- A second container writes a line, and the first one stops. -/
def replaced : List Event :=
  [.data ⟨text "ba9876543210", none⟩, .row web.id, .data ⟨web.id, some "container_stopped"⟩]

theorem active_containers_replaced :
    ∃ s, run (step shop.serviceName) (init shop) replaced = some s ∧
      text "ba9876543210" ∈ s.containerIds ∧ web.id ∉ s.containerIds := by
  refine ⟨_, rfl, ?_, ?_⟩
  · exact (@active_containers shop replaced _ rfl _).mpr (Or.inl (by decide))
  · intro hactive
    exact absurd ((@active_containers shop replaced _ rfl web.id).mp hactive) (by decide)

/-! ## Colours -/

/-- The colours are dealt in turn, in the order in which containers come up. -/
structure Dealt (s : State) : Prop where
  inTurn : s.colors.entries = s.colors.keys.zipIdx.map fun k => (k.1, replicaColor k.2)
  next : s.colorIndex = s.colors.keys.length
  active : ∀ id ∈ s.containerIds, id ∈ s.colors.keys

/-- A colour that was given stays. -/
def Keeps (s s' : State) : Prop :=
  ∀ id color, s.colors.get id = some color → s'.colors.get id = some color

theorem Keeps.refl (s : State) : Keeps s s := fun _ _ h => h

theorem Keeps.trans {s t u : State} (h : Keeps s t) (h' : Keeps t u) : Keeps s u :=
  fun id color hget => h' id color (h id color hget)

section Colors

variable {s : State} {id : Bytes}

theorem keeps_getContainerColor (s : State) (id : Bytes) : Keeps s (s.getContainerColor id) := by
  intro other color hother
  unfold State.getContainerColor
  split
  · exact hother
  next hnew =>
    show (s.colors.set id _).get other = some color
    rw [JsMap.get_set, if_neg]
    · exact hother
    · rintro rfl
      rw [JsMap.get_of_not_has hnew] at hother
      cases hother

theorem mem_colors_getContainerColor (s : State) (id : Bytes) :
    id ∈ (s.getContainerColor id).colors.keys := by
  unfold State.getContainerColor
  split
  next hhas => exact JsMap.has_iff.mp hhas
  next => exact JsMap.mem_keys_set.mpr (Or.inl rfl)

theorem Keeps.mem {s' : State} (h : Keeps s s') (hmem : id ∈ s.colors.keys) :
    id ∈ s'.colors.keys := by
  obtain ⟨color, hget⟩ := JsMap.mem_keys.mp hmem
  exact JsMap.mem_keys.mpr ⟨color, h id color hget⟩

theorem dealt_getContainerColor (h : Dealt s) (id : Bytes) : Dealt (s.getContainerColor id) := by
  unfold State.getContainerColor
  split
  · exact h
  next hnew =>
    have hentries := JsMap.entries_set_new hnew (replicaColor s.colorIndex)
    have hkeys : (s.colors.set id (replicaColor s.colorIndex)).keys = s.colors.keys ++ [id] := by
      unfold JsMap.keys
      rw [hentries, List.map_append]
      rfl
    constructor
    · show (s.colors.set id _).entries = _
      rw [hentries, h.inTurn, hkeys, List.zipIdx_append, List.map_append, h.next]
      simp
    · show s.colorIndex + 1 = (s.colors.set id _).keys.length
      rw [hkeys, List.length_append, h.next]
      rfl
    · intro other hother
      exact JsMap.mem_keys_set.mpr (Or.inr (h.active other hother))

/-- The active containers may be any that have a colour. -/
theorem Dealt.active_of (h : Dealt s) {activeContainers : JsMap Bytes (Option Bytes)}
    (hactive : ∀ id ∈ activeContainers.keys, id ∈ s.colors.keys) :
    Dealt { s with activeContainers } :=
  ⟨h.inTurn, h.next, hactive⟩

theorem dealt_ensureActive (h : Dealt s) (id : Bytes) (nodeName : Option Bytes) :
    Dealt (s.ensureActiveContainer id nodeName) ∧
      Keeps s (s.ensureActiveContainer id nodeName) := by
  unfold State.ensureActiveContainer
  split
  · exact ⟨h, Keeps.refl s⟩
  · have hkeeps := keeps_getContainerColor s id
    refine ⟨(dealt_getContainerColor h id).active_of fun other hother => ?_, hkeeps⟩
    rcases mem_ensured.mp hother with rfl | hold
    · exact mem_colors_getContainerColor s other
    · exact hkeeps.mem (h.active other hold)

theorem dealt_onData (h : Dealt s) (entry : ServiceLogEntry) :
    Dealt (onData s entry) ∧ Keeps s (onData s entry) := by
  by_cases hstop : entry.event = some "container_stopped"
  · unfold onData
    rw [if_neg (by rw [hstop]; decide), if_pos hstop]
    refine ⟨h.active_of fun other hother => ?_, Keeps.refl s⟩
    exact h.active other (JsMap.mem_keys_delete.mp hother).2
  · rw [onData_starting hstop]
    exact dealt_ensureActive h entry.containerId none

theorem dealt_foldl (h : Dealt s) (containers : List ContainerInfo) :
    let t := containers.foldl (fun s c => s.getContainerColor c.id) s
    Dealt t ∧ Keeps s t ∧ ∀ c ∈ containers, c.id ∈ t.colors.keys := by
  induction containers generalizing s with
  | nil => exact ⟨h, Keeps.refl s, nofun⟩
  | cons c containers ih =>
      obtain ⟨hdealt, hkeeps, hmem⟩ := ih (dealt_getContainerColor h c.id)
      refine ⟨hdealt, (keeps_getContainerColor s c.id).trans hkeeps, ?_⟩
      intro c' hc'
      rcases List.mem_cons.mp hc' with rfl | hc'
      · exact hkeeps.mem (mem_colors_getContainerColor s c'.id)
      · exact hmem c' hc'

theorem dealt_synced (h : Dealt s) (serviceName : Bytes) (containers : List ContainerInfo) :
    Dealt (s.synced serviceName containers) ∧ Keeps s (s.synced serviceName containers) := by
  obtain ⟨hdealt, hkeeps, hmem⟩ := dealt_foldl h (ofService serviceName containers)
  refine ⟨hdealt.active_of fun id hid => ?_, hkeeps⟩
  obtain ⟨c, hc, rfl⟩ := mem_synced (s := s).mp hid
  exact hmem c hc

theorem dealt_step {serviceName : Bytes} {s' : State} {e : Event} (h : Dealt s)
    (hstep : step serviceName s e = some s') : Dealt s' ∧ Keeps s s' := by
  cases e with
  | data entry =>
      simp only [step] at hstep
      split at hstep
      next => cases hstep
      next =>
        obtain rfl := Option.some.inj hstep
        exact dealt_onData h entry
  | togglePause =>
      obtain rfl := Option.some.inj hstep
      split <;> exact ⟨⟨h.inTurn, h.next, h.active⟩, Keeps.refl s⟩
  | scrollToBottom =>
      obtain rfl := Option.some.inj hstep
      split <;> exact ⟨⟨h.inTurn, h.next, h.active⟩, Keeps.refl s⟩
  | settled containers =>
      simp only [step] at hstep
      split at hstep
      next => cases hstep
      next =>
        have hqueries : Dealt { s with queries := s.queries - 1 } := ⟨h.inTurn, h.next, h.active⟩
        split at hstep
        next =>
          obtain rfl := Option.some.inj hstep
          exact ⟨hqueries, Keeps.refl s⟩
        next listed =>
          obtain rfl := Option.some.inj hstep
          exact dealt_synced hqueries serviceName listed
  | row containerId =>
      obtain rfl := Option.some.inj hstep
      exact ⟨dealt_getContainerColor h containerId, keeps_getContainerColor s containerId⟩

theorem dealt_run {serviceName : Bytes} {s' : State} {events : List Event} (h : Dealt s)
    (hrun : run (step serviceName) s events = some s') : Dealt s' ∧ Keeps s s' := by
  induction events generalizing s with
  | nil =>
      obtain rfl := Option.some.inj hrun
      exact ⟨h, Keeps.refl s⟩
  | cons e events ih =>
      unfold run at hrun
      split at hrun
      next => cases hrun
      next t hstep =>
        obtain ⟨hdealt, hkeeps⟩ := dealt_step h hstep
        obtain ⟨hdealt', hkeeps'⟩ := ih hdealt hrun
        exact ⟨hdealt', hkeeps.trans hkeeps'⟩

end Colors

theorem dealt_init {service : ServiceGroup} (nodup : (service.containers.map (·.id)).Nodup) :
    Dealt (init service) := by
  have hkeys : service.containers.zipIdx.map (fun c => c.1.id) = service.containers.map (·.id) := by
    have hfst := congrArg (List.map ContainerInfo.id) (List.zipIdx_map_fst 0 service.containers)
    rwa [List.map_map] at hfst
  have hentries : (init service).colors.entries =
      service.containers.zipIdx.map fun c => (c.1.id, replicaColor c.2) := by
    exact JsMap.entries_foldl_set (fun c : ContainerInfo × Nat => c.1.id)
      (fun c => replicaColor c.2) service.containers.zipIdx (hkeys ▸ nodup)
      fun _ _ => List.not_mem_nil
  have hcolors : (init service).colors.keys = service.containers.map (·.id) := by
    unfold JsMap.keys
    rw [hentries, List.map_map]
    exact hkeys
  constructor
  · rw [hentries, hcolors, List.zipIdx_map, List.map_map]
    rfl
  · rw [hcolors, List.length_map]
    rfl
  · intro id hid
    obtain ⟨c, hc, rfl⟩ := mem_init.mp hid
    rw [hcolors]
    exact List.mem_map_of_mem hc

theorem get_colors {s : State} (h : Dealt s) {i : Nat} {id : Bytes}
    (hid : s.colors.keys[i]? = some id) : s.colors.get id = some (replicaColor i) := by
  refine JsMap.get_of_mem ?_
  rw [h.inTurn]
  exact List.mem_map.mpr ⟨(id, i), List.mem_zipIdx_iff_getElem?.mpr hid, rfl⟩

theorem replicaColor_ne {i j : Nat} (hij : i < j) (hnear : j < i + 6) :
    replicaColor i ≠ replicaColor j := by
  have hcolors : ∀ a < 6, ∀ b < 6, a ≠ b →
      (REPLICA_COLORS[a]?).getD "" ≠ (REPLICA_COLORS[b]?).getD "" := by
    decide
  have hne : i % 6 ≠ j % 6 := by
    omega
  exact hcolors _ (Nat.mod_lt i (by decide)) _ (Nat.mod_lt j (by decide)) hne

/-- Every active container has a colour, which it keeps whatever happens; and of any six containers
that got theirs one after the other, no two look the same. -/
theorem colors_kept {service : ServiceGroup} (nodup : (service.containers.map (·.id)).Nodup)
    {events later : List Event} {s s' : State}
    (hrun : run (step service.serviceName) (init service) events = some s)
    (hlater : run (step service.serviceName) s later = some s') :
    (∀ id ∈ s.containerIds, ∃ color, s.colors.get id = some color) ∧
      (∀ id color, s.colors.get id = some color → s'.colors.get id = some color) ∧
      ∀ i j id id', i < j → j < i + 6 → s.colors.keys[i]? = some id →
        s.colors.keys[j]? = some id' → s.colors.get id ≠ s.colors.get id' := by
  obtain ⟨hdealt, _⟩ := dealt_run (dealt_init nodup) hrun
  refine ⟨fun id hid => JsMap.mem_keys.mp (hdealt.active id hid), (dealt_run hdealt hlater).2, ?_⟩
  intro i j id id' hij hnear hid hid'
  rw [get_colors hdealt hid, get_colors hdealt hid']
  exact fun heq => replicaColor_ne hij hnear (Option.some.inj heq)

theorem colors_kept_replaced :
    ∃ s s', run (step shop.serviceName) (init shop) replaced = some s ∧
      run (step shop.serviceName) s [.data ⟨web.id, none⟩] = some s' ∧
      s.colors.get web.id = some "text-cyan-400" ∧ s'.colors.get web.id = some "text-cyan-400" := by
  refine ⟨_, _, rfl, rfl, by decide, ?_⟩
  exact (@colors_kept shop (List.nodup_singleton _) replaced [.data ⟨web.id, none⟩] _ _ rfl
    rfl).2.1 web.id _ (by decide)

/-! ## Statistics -/

section Poll

variable {Percent : Type}

def statsMap (containerStats : List (ContainerStats Percent)) :
    JsMap Bytes (ContainerStats Percent) :=
  containerStats.foldl (fun map s => map.set s.id s) .empty

/-- The statistics of the active containers, when their poll has been answered. -/
def State.poll (s : State) (hosts : List (StatsHost Percent)) :
    JsMap Bytes (ContainerStats Percent) :=
  if s.containerIds = [] then .empty
  else statsMap (getContainerStats s.containerIds fun idsParam => hosts.map (·.respond idsParam))

theorem get_statsMap {containerStats : List (ContainerStats Percent)}
    (nodup : (containerStats.map (·.id)).Nodup) (id : Bytes) :
    (statsMap containerStats).get id = containerStats.find? (·.id = id) := by
  have hentries : (statsMap containerStats).entries =
      containerStats.map fun s => (s.id, s) :=
    JsMap.entries_foldl_set (fun s : ContainerStats Percent => s.id) (fun s => s) containerStats
      nodup fun _ _ => List.not_mem_nil
  unfold JsMap.get
  rw [hentries]
  clear hentries nodup
  induction containerStats with
  | nil => rfl
  | cons stats rest ih =>
      rw [List.map_cons, JsMap.lookup_cons, List.find?_cons, ih]
      by_cases hid : id = stats.id
      · simp [hid]
      · simp [hid, Ne.symm hid]

/-- A list as the gateway gives it, whichever hosts answer. -/
def Answered (containers : List ContainerInfo) : Prop :=
  ∃ (dockers : List Docker) (answers : Docker → Bool),
    (∀ docker ∈ dockers, docker.Genuine) ∧
      containers = listContainers (dockers.map fun docker =>
        if answers docker then (ListContainers docker).toOption else none)

/-- The service was picked in the side bar, where a search may hide some containers. -/
def Picked (service : ServiceGroup) : Prop :=
  ∃ containers shown, Answered containers ∧ (∀ c ∈ shown, c ∈ containers) ∧
    service ∈ (groupByService shown).services

/-- The entries and the lists come from the log-streamers. -/
def Event.Genuine : Event → Prop
  | .data entry =>
      entry.containerId = [] ∨ ∃ full, IsContainerId full ∧ entry.containerId = shorten full
  | .settled (some containers) => Answered containers
  | .settled none | .togglePause | .scrollToBottom | .row _ => True

theorem isShortId_of_answered {containers : List ContainerInfo} (h : Answered containers)
    {c : ContainerInfo} (hc : c ∈ containers) : IsShortId c.id := by
  obtain ⟨dockers, answers, genuine, rfl⟩ := h
  exact isShortId_listContainers genuine hc

theorem isShortId_of_word {serviceName id : Bytes} {e : Event} (genuine : e.Genuine)
    (h : e.word serviceName id = some true) : IsShortId id := by
  cases e with
  | data entry =>
      simp only [Event.word] at h
      split at h
      next => cases h
      next hid =>
        split at h
        next => cases h
        next =>
          split at h
          next => cases h
          next hne =>
            rw [not_not] at hid
            rcases genuine with hempty | ⟨full, hfull, hshort⟩
            · exact absurd (hid.symm.trans hempty) hne
            · rw [← hid, hshort]
              exact isShortId_shorten hfull
  | settled containers =>
      cases containers with
      | none => cases h
      | some containers =>
          have hany := Option.some.inj h
          obtain ⟨c, hc, hid⟩ := List.any_eq_true.mp hany
          rw [← of_decide_eq_true hid]
          exact isShortId_of_answered genuine (List.mem_of_mem_filter hc)
  | togglePause => cases h
  | scrollToBottom => cases h
  | row containerId => cases h

theorem isShortId_of_active {service : ServiceGroup} (picked : Picked service)
    {events : List Event} (genuine : ∀ e ∈ events, e.Genuine) {s : State}
    (hrun : run (step service.serviceName) (init service) events = some s) :
    ∀ id ∈ s.containerIds, IsShortId id := by
  intro id hid
  rw [mem_run hrun, mem_init] at hid
  rcases hid with hsaid | ⟨_, c, hc, rfl⟩
  · obtain ⟨e, he, hword⟩ := List.exists_of_findSome?_eq_some hsaid
    exact isShortId_of_word (genuine e (List.mem_reverse.mp he)) hword
  · obtain ⟨containers, shown, hanswered, hshown, hpicked⟩ := picked
    rw [groupByService_eq] at hpicked
    obtain ⟨name, _, rfl⟩ := List.mem_map.mp hpicked
    exact isShortId_of_answered hanswered (hshown c (List.mem_of_mem_filter hc))

/-- The poll of a viewer brings no log-streamer down, in whatever order the goroutines end; it
shows of each active container what the first host that responds has of it, and nothing else. -/
theorem poll_shows {service : ServiceGroup} (picked : Picked service) {events : List Event}
    (genuine : ∀ e ∈ events, e.Genuine) {s : State}
    (hrun : run (step service.serviceName) (init service) events = some s)
    (hosts : List (StatsHost Percent)) :
    (∀ host ∈ hosts, ∀ order r,
        host.after (requestedIds (joinIds s.containerIds)) order = some r → r.crashed = false) ∧
      ∀ id, (s.poll hosts).get id =
        if id ∈ s.containerIds then
          (hosts.filter fun host => host.Done s.containerIds).findSome? (·.answer id)
        else none := by
  have hshort := isShortId_of_active picked genuine hrun
  constructor
  · intro host _ order r hafter
    rw [requestedIds_joinIds hshort] at hafter
    exact not_crashed hshort hafter
  · intro id
    unfold State.poll
    split
    next hnone => simp [hnone]
    next =>
      rw [get_statsMap (nodup_getContainerStats _ _)]
      split
      next hid => exact find?_getContainerStats hshort hosts hid
      next hid =>
        rw [List.find?_eq_none]
        intro stats hmem hkey
        rw [← of_decide_eq_true hkey] at hid
        exact hid (id_mem_of_getContainerStats hshort hmem)

end Poll

/-- The id of a container, as Docker makes it of one letter. -/
def fullId (letter : UInt8) : Bytes := List.replicate 64 letter

def listedContainer (letter : UInt8) (name : String) : Container where
  id := fullId letter
  names := [text name]
  image := text "nginx"
  status := text "Up 2 hours"
  state := text "running"
  created := 0
  ports := []
  labels := JsMap.empty.set serviceNameLabel (text "shop_web")

/-- A node on which two containers of the service run. -/
def node : Docker where
  containerList := some [listedContainer 97 "/shop_web.1", listedContainer 98 "/shop_web.2"]
  nodeList := none

def listed : List ContainerInfo := listContainers [(ListContainers node).toOption]

def picked : ServiceGroup := ⟨text "shop_web", listed⟩

def lostStats : StatsHost Nat := ⟨false, fun _ => ⟨none, none⟩, [0, 1]⟩

/-- Docker has statistics of the first container only; its goroutine ends last. -/
def nodeStats : StatsHost Nat where
  reached := true
  docker id := ⟨if id.head? = some 97 then some (some ⟨7, 1, 2⟩) else none, none⟩
  order := [1, 0]

theorem genuine_node : node.Genuine := by
  intro containers hcontainers ctr hctr
  obtain rfl := Option.some.inj hcontainers
  rcases List.mem_pair.mp hctr with rfl | rfl
  all_goals
    refine ⟨rfl, fun b hb => ?_⟩
    rw [List.eq_of_mem_replicate hb]
    decide

theorem poll_shows_picked :
    ∃ s, run (step picked.serviceName) (init picked) [.togglePause] = some s ∧
      (∀ host ∈ [lostStats, nodeStats], ∀ order r,
        host.after (requestedIds (joinIds s.containerIds)) order = some r → r.crashed = false) ∧
      (s.poll [lostStats, nodeStats]).get (List.replicate 12 97) =
        nodeStats.answer (List.replicate 12 97) ∧
      (nodeStats.answer (List.replicate 12 97)).isSome = true ∧
      (s.poll [lostStats, nodeStats]).get (List.replicate 12 98) = none := by
  have hpicked : Picked picked :=
    ⟨listed, listed, ⟨[node], fun _ => true, by simpa using genuine_node, rfl⟩, fun _ h => h,
      List.mem_singleton.mpr rfl⟩
  refine ⟨_, rfl, ?_⟩
  obtain ⟨hsafe, hshown⟩ := @poll_shows Nat picked hpicked [.togglePause]
    (by simp [Event.Genuine]) _ rfl [lostStats, nodeStats]
  refine ⟨hsafe, ?_, ?_, ?_⟩
  · rw [hshown, if_pos (by decide)]
    rfl
  · rfl
  · rw [hshown, if_pos (by decide)]
    rfl

end ServiceViewer

end NestGateway.Ui
