import NestGateway.Core.JsMap
import NestGateway.LogHistory.Streamer
import NestGateway.LogReader.Confinement

/-! # The apps of the log history

A log-streamer offers the directories below its base directory. The gateway puts
the offers of all nodes together, one for every app and node, and sorts them by
name. A directory that is offered stays within its base directory, so a search
for it reads no file outside.
-/

namespace NestGateway.LogReader

/-- What the operating system promises of a listed directory: every entry has a name of its own,
without a slash, and the dots are left out. -/
def FileSystem.NamesEntries (fs : FileSystem) : Prop :=
  ∀ dir entries, fs.readDir dir = some entries → ∀ e ∈ entries, IsName e.name

theorem FileSystem.NamesEntries.wellNamed {fs : FileSystem} (h : fs.NamesEntries) :
    fs.WellNamed :=
  fun dir entries hread e hmem => (h dir entries hread e hmem).no_slash

theorem staysWithin_of_isName {app : String} (h : IsName app) (baseDir : String) :
    StaysWithin baseDir app := by
  have hwalk : ∀ stack, walkApp baseDir app stack = app :: stack := by
    intro stack
    rw [walkApp, pathElements_of_not_mem h.no_slash, List.foldl_cons, List.foldl_nil,
      cleanElement_name h]
  unfold StaysWithin
  rw [hwalk, hwalk]
  refine ⟨⟨[app], rfl, ?_⟩, ⟨[app, "archive"], rfl, ?_⟩⟩
  · simpa using h.ne_dotDot.symm
  · simpa using h.ne_dotDot.symm

/-- A directory of the base directory other than the archive. -/
def Reader.HasApp (r : Reader) (app : String) : Prop :=
  ∃ entries, r.fs.readDir r.baseDir = some entries ∧
    ∃ e ∈ entries, e.isDir = true ∧ e.name ≠ "archive" ∧ e.name = app

theorem hasApp_iff {r : Reader} {app : String} :
    r.HasApp app ↔ ∃ apps, r.listApps = some apps ∧ app ∈ apps := by
  unfold Reader.HasApp Reader.listApps
  cases r.fs.readDir r.baseDir with
  | none => simp
  | some entries => simp [and_assoc]

theorem Reader.HasApp.isName {r : Reader} {app : String} (h : r.HasApp app)
    (named : r.fs.NamesEntries) : IsName app := by
  obtain ⟨entries, hread, e, he, _, _, rfl⟩ := h
  exact named _ entries hread e he

end NestGateway.LogReader

namespace NestGateway.LogHistory

open Text LogReader List

structure LogApp where
  name : String
  node : String
  deriving Repr, DecidableEq

def LogApp.key (app : LogApp) : String := app.name ++ "@" ++ app.node

def addApp (appMap : JsMap String LogApp) (app : LogApp) : JsMap String LogApp :=
  if !appMap.has app.key then appMap.set app.key app else appMap

def appsOf : Option LogAppsResponse → List LogApp
  | none => []
  | some ⟨apps, node⟩ => (apps.getD []).map fun name => ⟨name, node⟩

/-- The order of `listApps`. -/
def byName (collator : Collator) (a b : LogApp) : Prop :=
  collator.localeCompare a.name b.name ≤ 0

instance (collator : Collator) : DecidableRel (byName collator) :=
  fun a b => inferInstanceAs (Decidable (collator.localeCompare a.name b.name ≤ 0))

/-- `LogHistoryService.listApps` -/
def listApps {Host : Type} (collator : Collator) (getApps : Host → Option LogAppsResponse)
    (hosts : List Host) : List LogApp :=
  let appMap := (hosts.map getApps).foldl (fun appMap result => (appsOf result).foldl addApp appMap)
    JsMap.empty
  appMap.values.insertionSort (byName collator)

/-! ## One app for every key -/

theorem values_foldl_addApp (apps : List LogApp) (appMap : JsMap String LogApp)
    {seen : List String} (hseen : ∀ k, k ∈ seen ↔ k ∈ appMap.keys) :
    (apps.foldl addApp appMap).values = appMap.values ++ firstOfKey LogApp.key seen apps := by
  induction apps generalizing appMap seen with
  | nil => simp [firstOfKey]
  | cons app apps ih =>
      rw [foldl_cons, firstOfKey]
      by_cases hmem : app.key ∈ seen
      · have hhas : appMap.has app.key = true := JsMap.has_iff.mpr ((hseen _).mp hmem)
        rw [if_pos hmem, addApp, hhas]
        exact ih appMap hseen
      · have hfresh : app.key ∉ appMap.keys := mt (hseen _).mpr hmem
        have hhas : appMap.has app.key = false :=
          Bool.eq_false_iff.mpr (mt JsMap.has_iff.mp hfresh)
        have hadd : addApp appMap app = appMap.set app.key app := by
          simp [addApp, hhas]
        have hvalues : (appMap.set app.key app).values = appMap.values ++ [app] := by
          simp [JsMap.values, JsMap.set, JsMap.setEntry_of_not_mem app hfresh]
        have hmore : ∀ k, k ∈ app.key :: seen ↔ k ∈ (appMap.set app.key app).keys := by
          intro k
          rw [mem_cons, JsMap.mem_keys_set, hseen]
        rw [if_neg hmem, hadd, ih _ hmore, hvalues, append_assoc]
        rfl

section Lists

variable {Host : Type} (collator : Collator) (getApps : Host → Option LogAppsResponse)
  (hosts : List Host)

def answeredApps : List LogApp := hosts.flatMap fun h => appsOf (getApps h)

theorem listApps_eq : listApps collator getApps hosts =
    (firstOfKey LogApp.key [] (answeredApps getApps hosts)).insertionSort (byName collator) := by
  have hfold : ∀ (hosts : List Host) (appMap : JsMap String LogApp),
      (hosts.map getApps).foldl (fun appMap result => (appsOf result).foldl addApp appMap) appMap =
        (answeredApps getApps hosts).foldl addApp appMap := by
    intro hosts
    induction hosts with
    | nil => exact fun _ => rfl
    | cons h hosts ih =>
        intro appMap
        rw [map_cons, foldl_cons, ih]
        show _ = (appsOf (getApps h) ++ answeredApps getApps hosts).foldl addApp appMap
        rw [foldl_append]
  have hseen : ∀ k, k ∈ ([] : List String) ↔ k ∈ (JsMap.empty : JsMap String LogApp).keys := by
    simp
  have hvalues := values_foldl_addApp (answeredApps getApps hosts) JsMap.empty hseen
  simp only [listApps, hfold, hvalues]
  rfl

theorem mem_listApps {app : LogApp} : app ∈ listApps collator getApps hosts ↔
    app ∈ firstOfKey LogApp.key [] (answeredApps getApps hosts) := by
  rw [listApps_eq]
  exact (perm_insertionSort _ _).mem_iff

theorem mem_answeredApps {app : LogApp} : app ∈ answeredApps getApps hosts ↔
    ∃ h ∈ hosts, ∃ apps, getApps h = some ⟨some apps, app.node⟩ ∧ app.name ∈ apps := by
  unfold answeredApps
  rw [mem_flatMap]
  refine exists_congr fun h => and_congr_right fun _ => ?_
  cases hanswer : getApps h with
  | none => simp [appsOf]
  | some response =>
      obtain ⟨apps, node⟩ := response
      cases apps with
      | none => simp [appsOf]
      | some apps =>
          obtain ⟨name, node'⟩ := app
          simp only [appsOf, Option.getD_some, mem_map, LogApp.mk.injEq, Option.some.injEq,
            LogAppsResponse.mk.injEq]
          constructor
          · rintro ⟨_, hmem, rfl, rfl⟩
            exact ⟨apps, ⟨rfl, rfl⟩, hmem⟩
          · rintro ⟨_, ⟨rfl, rfl⟩, hmem⟩
            exact ⟨name, hmem, rfl, rfl⟩

theorem nodup_keys_listApps : ((listApps collator getApps hosts).map LogApp.key).Nodup := by
  rw [listApps_eq]
  exact ((perm_insertionSort _ _).map _).nodup_iff.mpr (nodup_firstOfKey [] _)

theorem of_mem_listApps {app : LogApp} (h : app ∈ listApps collator getApps hosts) :
    app ∈ answeredApps getApps hosts :=
  mem_of_mem_firstOfKey ((mem_listApps _ _ _).mp h)

theorem key_mem_listApps {app : LogApp} (h : app ∈ answeredApps getApps hosts) :
    app.key ∈ (listApps collator getApps hosts).map LogApp.key := by
  cases hfirst : (answeredApps getApps hosts).find? (fun x => x.key = app.key) with
  | none => simpa using find?_eq_none.mp hfirst app h
  | some first =>
      have hsame : first.key = app.key := by simpa using find?_some hfirst
      have hkept : first ∈ firstOfKey LogApp.key [] (answeredApps getApps hosts) := by
        rw [mem_firstOfKey, hsame]
        exact ⟨not_mem_nil, hfirst⟩
      exact mem_map.mpr ⟨first, (mem_listApps _ _ _).mpr hkept, hsame⟩

/-- No answered app is left out exactly if different ones have different keys. -/
theorem complete_listApps_iff :
    (∀ app ∈ answeredApps getApps hosts, app ∈ listApps collator getApps hosts) ↔
      Set.InjOn LogApp.key {app | app ∈ answeredApps getApps hosts} := by
  constructor
  · intro hall a ha b hb hkey
    exact inj_on_of_nodup_map (nodup_keys_listApps collator getApps hosts) (hall a ha) (hall b hb)
      hkey
  · intro hinj app hmem
    obtain ⟨other, hother, hkey⟩ := mem_map.mp (key_mem_listApps collator getApps hosts hmem)
    exact hinj (of_mem_listApps collator getApps hosts hother) hmem hkey ▸ hother

/-- The list is sorted by name, has one app for every key that is answered and no other app; it
leaves out an answered app exactly if two different ones share a key. -/
theorem listApps_lists :
    let apps := listApps collator getApps hosts
    apps.Pairwise (byName collator) ∧ (apps.map LogApp.key).Nodup ∧
      (∀ app ∈ apps, app ∈ answeredApps getApps hosts) ∧
      (∀ app ∈ answeredApps getApps hosts, app.key ∈ apps.map LogApp.key) ∧
      ((∀ app ∈ answeredApps getApps hosts, app ∈ apps) ↔
        Set.InjOn LogApp.key {app | app ∈ answeredApps getApps hosts}) := by
  intro apps
  refine ⟨?_, nodup_keys_listApps collator getApps hosts,
    fun _ => of_mem_listApps collator getApps hosts,
    fun _ => key_mem_listApps collator getApps hosts, complete_listApps_iff collator getApps hosts⟩
  have : Std.Total (byName collator) := ⟨fun a b => collator.total a.name b.name⟩
  have : IsTrans LogApp (byName collator) := ⟨fun a b c => collator.trans a.name b.name c.name⟩
  simp only [apps, listApps_eq]
  exact pairwise_insertionSort (byName collator) _

end Lists

/-! ## The apps of the nodes -/

theorem eq_of_key {a b : LogApp} (ha : '@' ∉ a.node.toList) (hb : '@' ∉ b.node.toList)
    (h : a.key = b.key) : a = b := by
  have hchars : a.name.toList ++ '@' :: a.node.toList = b.name.toList ++ '@' :: b.node.toList := by
    have htext := congrArg String.toList h
    simp only [LogApp.key, String.toList_append, append_assoc] at htext
    exact htext
  have hsame : a.name.toList = b.name.toList ∧ a.node.toList = b.node.toList := by
    rcases append_eq_append_iff.mp hchars with ⟨m, hname, hnode⟩ | ⟨m, hname, hnode⟩
    · cases m with
      | nil => simpa using And.intro hname.symm hnode
      | cons c m =>
          obtain ⟨_, hrest⟩ := cons.inj hnode
          exact absurd (by simp [hrest]) ha
    · cases m with
      | nil => simpa using And.intro hname hnode.symm
      | cons c m =>
          obtain ⟨_, hrest⟩ := cons.inj hnode
          exact absurd (by simp [hrest]) hb
  obtain ⟨aName, aNode⟩ := a
  obtain ⟨bName, bNode⟩ := b
  simp only [LogApp.mk.injEq]
  exact ⟨String.toList_inj.mp hsame.1, String.toList_inj.mp hsame.2⟩

section Nodes

variable (collator : Collator) (answers : LogFilesHandler → Bool) (nodes : List LogFilesHandler)

/-- What the gateway is answered: nothing by the nodes that are down. -/
def reachedApps (h : LogFilesHandler) : Option LogAppsResponse :=
  if answers h then h.apps else none

theorem mem_answeredApps_reached {app : LogApp} :
    app ∈ answeredApps (reachedApps answers) nodes ↔ ∃ h ∈ nodes, answers h = true ∧
      h.nodeName = app.node ∧ h.reader.HasApp app.name := by
  simp only [hasApp_iff]
  rw [mem_answeredApps]
  refine exists_congr fun h => and_congr_right fun _ => ?_
  unfold reachedApps LogFilesHandler.apps
  cases hanswers : answers h
  · simp
  · cases happs : h.reader.listApps with
    | none => simp
    | some names =>
        cases names with
        | nil => simp
        | cons name names => simp [and_comm]

/-- The offered apps are the directories of the nodes that answer, other than the archive, each
with its node and once, and a search for one of them reads no file outside the base directory. -/
theorem offered_apps (plain : ∀ h ∈ nodes, '@' ∉ h.nodeName.toList)
    (named : ∀ h ∈ nodes, h.reader.fs.NamesEntries) :
    let apps := listApps collator (reachedApps answers) nodes
    apps.Nodup ∧
      (∀ app, app ∈ apps ↔
        ∃ h ∈ nodes, answers h = true ∧ h.nodeName = app.node ∧ h.reader.HasApp app.name) ∧
      ∀ app ∈ apps, ∀ h ∈ nodes, h.reader.baseDir ≠ "" → ∀ fromDate toDate,
        ∀ f ∈ h.reader.listFiles app.name fromDate toDate, Inside h.reader.baseDir f.fullPath := by
  intro apps
  have hnode : ∀ app ∈ answeredApps (reachedApps answers) nodes, '@' ∉ app.node.toList := by
    intro app hmem
    obtain ⟨h, hh, _, heq, _⟩ := (mem_answeredApps_reached answers nodes).mp hmem
    exact heq ▸ plain h hh
  have hinj : Set.InjOn LogApp.key {app | app ∈ answeredApps (reachedApps answers) nodes} :=
    fun a ha b hb => eq_of_key (hnode a ha) (hnode b hb)
  have hall := (complete_listApps_iff collator (reachedApps answers) nodes).mpr hinj
  refine ⟨(nodup_keys_listApps _ _ _).of_map, fun app => ?_, fun app hmem h hh hbase => ?_⟩
  · rw [← mem_answeredApps_reached]
    exact ⟨of_mem_listApps collator _ _, hall app⟩
  · intro fromDate toDate f hf
    obtain ⟨g, hg, _, _, happ⟩ :=
      (mem_answeredApps_reached answers nodes).mp (of_mem_listApps collator _ _ hmem)
    exact inside_of_staysWithin hbase (named h hh).wellNamed
      (staysWithin_of_isName (happ.isName (named g hg)) h.reader.baseDir) hf

end Nodes

def appNode (nodeName : String) : LogFilesHandler where
  reader :=
    { baseDir := "/opt/logs"
      fs :=
        { readDir := fun _ =>
            some [⟨"archive", true, none⟩, ⟨"auth", true, none⟩, ⟨"notes.txt", false, none⟩]
          openFile := fun _ => none } }
  nodeName := nodeName

theorem offered_apps_two :
    ⟨"auth", "node-1"⟩ ∈ listApps Collator.codePoint (reachedApps (·.nodeName == "node-1"))
      [appNode "node-1", appNode "node-2"] :=
  ((offered_apps Collator.codePoint (·.nodeName == "node-1")
    [appNode "node-1", appNode "node-2"] (by decide)
    (by
      intro h hh dir entries hread e he
      have hentries : entries = [⟨"archive", true, none⟩, ⟨"auth", true, none⟩,
          ⟨"notes.txt", false, none⟩] := by
        rcases mem_pair.mp hh with rfl | rfl <;> exact (Option.some.inj hread).symm
      subst hentries
      simp only [mem_cons, not_mem_nil, or_false] at he
      rcases he with rfl | rfl | rfl <;> exact ⟨by decide, by decide, by decide, by decide⟩)).2.1
    ⟨"auth", "node-1"⟩).mpr
      ⟨appNode "node-1", by simp, by decide, rfl, _, rfl, ⟨"auth", true, none⟩, by simp, rfl,
        by decide, rfl⟩

end NestGateway.LogHistory
