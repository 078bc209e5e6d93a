import NestGateway.Core.JsMap
import NestGateway.LogStreamer.ContainerStats

/-! # The running containers of a node

`ListContainers` shortens the ids that Docker lists to twelve bytes, and does so
with slices that panic when an id is shorter.
-/

namespace NestGateway.LogStreamer.Listing

open GoBytes Stats

structure Port where
  ip : Bytes
  publicPort : UInt16
  privatePort : UInt16

structure Container where
  id : Bytes
  names : List Bytes
  image : Bytes
  status : Bytes
  state : Bytes
  created : Int
  ports : List Port
  labels : JsMap Bytes Bytes

structure Docker where
  /-- The running containers, none on an error. -/
  containerList : Option (List Container)
  /-- The ids and host names of the nodes of the swarm, none outside of a swarm. -/
  nodeList : Option (List (Bytes × Bytes))

def text (s : String) : Bytes := ascii s.toList

def serviceNameLabel : Bytes := text "com.docker.swarm.service.name"

def taskIdLabel : Bytes := text "com.docker.swarm.task.id"

def nodeIdLabel : Bytes := text "com.docker.swarm.node.id"

/-- A field that the encoder omits when it is empty is empty here. -/
structure ContainerInfo where
  id : Bytes
  name : Bytes
  image : Bytes
  status : Bytes
  state : Bytes
  created : Int
  ports : List Bytes
  serviceName : Bytes
  taskSlot : Bytes
  nodeName : Bytes

def shortLength : Nat := 12

def firstName (names : List Bytes) : Bytes :=
  match names with
  | [] => []
  | name :: _ => withoutSlash name

/-- `%s:%d->%d` -/
def portText (p : Port) : Bytes :=
  p.ip ++ text ":" ++ text (toString p.publicPort) ++ text "->" ++ text (toString p.privatePort)

/-- `TaskSlot` of a container, none when the slice is out of range. -/
def taskSlot (ctr : Container) : Option Bytes :=
  match ctr.labels.get taskIdLabel with
  | none => some []
  | some slot => slice slot shortLength

/-- `NodeName` of a container, none when the slice is out of range. -/
def nodeName (nodeNames : JsMap Bytes Bytes) (ctr : Container) : Option Bytes :=
  match ctr.labels.get nodeIdLabel with
  | none => some []
  | some nodeID =>
      match nodeNames.get nodeID with
      | some hostname => some hostname
      | none => slice nodeID shortLength

/-- The entry of a container, none when a slice is out of range. -/
def containerInfo (nodeNames : JsMap Bytes Bytes) (ctr : Container) : Option ContainerInfo :=
  match slice ctr.id shortLength, taskSlot ctr, nodeName nodeNames ctr with
  | some id, some taskSlot, some nodeName =>
      some {
        id
        name := firstName ctr.names
        image := ctr.image
        status := ctr.status
        state := ctr.state
        created := ctr.created
        ports := (ctr.ports.filter fun p => 0 < p.publicPort).map portText
        serviceName := (ctr.labels.get serviceNameLabel).getD []
        taskSlot
        nodeName }
  | _, _, _ => none

def containerInfos (nodeNames : JsMap Bytes Bytes) : List Container → Option (List ContainerInfo)
  | [] => some []
  | ctr :: rest =>
      match containerInfo nodeNames ctr with
      | none => none
      | some info => (containerInfos nodeNames rest).map (info :: ·)

/-- Why a request for the list has no answer. -/
inductive Failure where
  | error
  /-- The handler panicked, and the server closes the connection. -/
  | panic
  deriving Repr, DecidableEq

def ListContainers (docker : Docker) : Except Failure (List ContainerInfo) :=
  match docker.containerList with
  | none => .error .error
  | some containers =>
      let nodeNames := (docker.nodeList.getD []).foldl (fun m node => m.set node.1 node.2) .empty
      match containerInfos nodeNames containers with
      | none => .error .panic
      | some result => .ok result

def isHex (b : UInt8) : Bool := b ∈ text "0123456789abcdef"

def IsContainerId (id : Bytes) : Prop := id.length = 64 ∧ ∀ b ∈ id, isHex b = true

/-- An id as the lists and the messages have it. -/
def IsShortId (id : Bytes) : Prop := ∃ full, IsContainerId full ∧ id = full.take shortLength

/-- The containers have the ids that Docker generates. -/
def Docker.Genuine (docker : Docker) : Prop :=
  ∀ containers, docker.containerList = some containers →
    ∀ ctr ∈ containers, IsContainerId ctr.id

/-- `ListContainersByService` and `WatchServiceEvents` slice an id only if it is longer. -/
def shorten (id : Bytes) : Bytes := if shortLength < id.length then id.take shortLength else id

theorem isShortId_shorten {id : Bytes} (h : IsContainerId id) : IsShortId (shorten id) := by
  refine ⟨id, h, ?_⟩
  unfold shorten
  rw [if_pos (by rw [h.1, shortLength]; decide)]

theorem IsShortId.length {id : Bytes} (h : IsShortId id) : id.length = shortLength := by
  obtain ⟨full, hfull, rfl⟩ := h
  rw [List.length_take, hfull.1, shortLength]
  rfl

theorem IsShortId.no_comma {id : Bytes} (h : IsShortId id) : comma ∉ id := by
  obtain ⟨full, hfull, rfl⟩ := h
  intro hmem
  have hhex := hfull.2 comma (List.mem_of_mem_take hmem)
  exact absurd hhex (by decide)

theorem containerInfo_id {nodeNames : JsMap Bytes Bytes} {ctr : Container} {info : ContainerInfo}
    (h : containerInfo nodeNames ctr = some info) : info.id = ctr.id.take shortLength := by
  unfold containerInfo at h
  split at h
  next id slot name hid _ _ =>
    unfold slice at hid
    split at hid
    · rw [← Option.some.inj h, ← Option.some.inj hid]
    · cases hid
  next => cases h

theorem exists_container {nodeNames : JsMap Bytes Bytes} {containers : List Container}
    {infos : List ContainerInfo} (h : containerInfos nodeNames containers = some infos)
    {info : ContainerInfo} (hmem : info ∈ infos) :
    ∃ ctr ∈ containers, containerInfo nodeNames ctr = some info := by
  induction containers generalizing infos with
  | nil =>
      obtain rfl := Option.some.inj h
      cases hmem
  | cons ctr rest ih =>
      unfold containerInfos at h
      split at h
      next => cases h
      next first hfirst =>
        obtain ⟨others, hothers, rfl⟩ := Option.map_eq_some_iff.mp h
        rcases List.mem_cons.mp hmem with rfl | hmem
        · exact ⟨ctr, List.mem_cons_self, hfirst⟩
        · obtain ⟨other, hother, hinfo⟩ := ih hothers hmem
          exact ⟨other, List.mem_cons_of_mem _ hother, hinfo⟩

theorem isShortId_of_listed {docker : Docker} (genuine : docker.Genuine)
    {listed : List ContainerInfo} (h : ListContainers docker = .ok listed) {info : ContainerInfo}
    (hmem : info ∈ listed) : IsShortId info.id := by
  unfold ListContainers at h
  split at h
  next => cases h
  next containers hcontainers =>
    dsimp only at h
    split at h
    next => cases h
    next result hresult =>
      cases h
      obtain ⟨ctr, hctr, hinfo⟩ := exists_container hresult hmem
      exact ⟨ctr.id, genuine containers hcontainers ctr hctr, containerInfo_id hinfo⟩

end NestGateway.LogStreamer.Listing
