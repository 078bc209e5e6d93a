import NestGateway.LogReader.Paths
import NestGateway.LogReader.Search

/-! # Which files an app name reaches

The app of a request is joined into directory paths as it comes. The files that
are listed lie inside the base directory exactly if the walk along the app name,
from the base directory and from its archive, ends inside.
-/

namespace NestGateway.LogReader

open Text

/-- What the operating system promises: a name in a directory has no slash. -/
def FileSystem.WellNamed (fs : FileSystem) : Prop :=
  ∀ dir entries, fs.readDir dir = some entries → ∀ e ∈ entries, '/' ∉ e.name.toList

/-- The stack leads to the base directory or below it. -/
def Within (base stack : List String) : Prop := ∃ below, stack = below ++ base ∧ ".." ∉ below

/-- The cleaned path has the base directory as a proper prefix. -/
def Inside (baseDir path : String) : Prop :=
  startsWith path "/" = startsWith baseDir "/" ∧
    ∃ below, below ≠ [] ∧ place path = below ++ place baseDir ∧ ".." ∉ below

/-- Where the elements of the app name lead to from a directory. -/
def walkApp (baseDir app : String) (stack : List String) : List String :=
  (pathElements app).foldl (cleanElement (startsWith baseDir "/")) stack

/-- Walking the elements of the app name from the base directory, and from the archive in it, ends
in the base directory or below it. -/
def StaysWithin (baseDir app : String) : Prop :=
  Within (place baseDir) (walkApp baseDir app (place baseDir)) ∧
    Within (place baseDir) (walkApp baseDir app ("archive" :: place baseDir))

section Directories

variable {baseDir : String}

/-- The directory of an app, and its archive in the common archive directory. -/
def appDir (baseDir app : String) : String := joinPath [baseDir, app]

def topArchiveDir (baseDir app : String) : String := joinPath [baseDir, "archive", app]

theorem isName_archive : IsName "archive" := ⟨by decide, by decide, by decide, by decide⟩

theorem appDir_leads (h : baseDir ≠ "") (app : String) :
    startsWith (appDir baseDir app) "/" = startsWith baseDir "/" ∧
      place (appDir baseDir app) = walkApp baseDir app (place baseDir) := by
  rw [appDir, joinPath_pair h]
  exact join_leads h app

theorem topArchiveDir_leads (h : baseDir ≠ "") (app : String) :
    startsWith (topArchiveDir baseDir app) "/" = startsWith baseDir "/" ∧
      place (topArchiveDir baseDir app) = walkApp baseDir app ("archive" :: place baseDir) := by
  rw [topArchiveDir, joinPath_triple h]
  obtain ⟨hrooted, hplace⟩ := join_leads h ("archive" ++ "/" ++ app)
  refine ⟨hrooted, hplace.trans ?_⟩
  rw [pathElements_append, List.foldl_append, pathElements_of_not_mem isName_archive.no_slash,
    List.foldl_cons, List.foldl_nil, cleanElement_name isName_archive]
  rfl

theorem name_leads {dir name : String} (h : dir ≠ "") (hname : IsName name) :
    startsWith (joinPath [dir, name]) "/" = startsWith dir "/" ∧
      place (joinPath [dir, name]) = name :: place dir := by
  rw [joinPath_pair h]
  obtain ⟨hrooted, hplace⟩ := join_leads h name
  refine ⟨hrooted, hplace.trans ?_⟩
  rw [pathElements_of_not_mem hname.no_slash, List.foldl_cons, List.foldl_nil,
    cleanElement_name hname]

theorem joinPath_ne_empty {a : String} (h : a ≠ "") (elems : List String) :
    joinPath (a :: elems) ≠ "" := by
  rw [joinPath_cons h]
  exact cleanPath_ne_empty _

theorem inside_iff {dir name : String} (h : dir ≠ "") (hname : IsName name)
    (hrooted : startsWith dir "/" = startsWith baseDir "/") :
    Inside baseDir (joinPath [dir, name]) ↔ Within (place baseDir) (place dir) := by
  obtain ⟨hstarts, hplace⟩ := name_leads h hname
  rw [Inside, hplace, hstarts]
  constructor
  · rintro ⟨_, below, hne, hbelow, hup⟩
    cases below with
    | nil => exact absurd rfl hne
    | cons top below =>
        obtain ⟨_, hrest⟩ := List.cons.inj hbelow
        exact ⟨below, hrest, fun hmem => hup (List.mem_cons_of_mem _ hmem)⟩
  · rintro ⟨below, hbelow, hup⟩
    refine ⟨hrooted, name :: below, List.cons_ne_nil _ _, ?_, ?_⟩
    · rw [hbelow, List.cons_append]
    · rw [List.mem_cons, not_or]
      exact ⟨hname.ne_dotDot.symm, hup⟩

end Directories

theorem isName_of_log {name : String} (hlog : contains name ".log" = true)
    (hslash : '/' ∉ name.toList) : IsName name := by
  refine ⟨?_, ?_, ?_, hslash⟩
  all_goals
    rintro rfl
    exact absurd hlog (by decide)

theorem scanDir_path {fs : FileSystem} (named : fs.WellNamed)
    {dir dirPrefix fromDate toDate : String} {f : LogFile}
    (h : f ∈ scanDir fs dir dirPrefix fromDate toDate) :
    ∃ name, IsName name ∧ f.fullPath = joinPath [dir, name] := by
  obtain ⟨entries, hread, e, hmem, hscans⟩ := mem_scanDir h
  exact ⟨e.name, isName_of_log hscans.log (named dir entries hread e hmem), hscans.fullPath⟩

theorem mem_of_mem_uniqueNames {seen : List String} {files : List LogFile} {f : LogFile}
    (h : f ∈ uniqueNames seen files) : f ∈ files :=
  mem_of_mem_firstOfKey (uniqueNames_eq seen files ▸ h)

/-- The files of the three directories, before repeated names are dropped. -/
def Reader.scanned (r : Reader) (app fromDate toDate : String) : List LogFile :=
  let appArchiveDir := joinPath [appDir r.baseDir app, "archive"]
  scanDir r.fs (appDir r.baseDir app) "" fromDate toDate ++
    scanDir r.fs appArchiveDir "archive" fromDate toDate ++
    (if topArchiveDir r.baseDir app != appArchiveDir then
      scanDir r.fs (topArchiveDir r.baseDir app) "archive" fromDate toDate
    else [])

theorem mem_listFiles {r : Reader} {app fromDate toDate : String} {f : LogFile} :
    f ∈ r.listFiles app fromDate toDate ↔ f ∈ uniqueNames [] (r.scanned app fromDate toDate) :=
  (List.perm_insertionSort _ _).mem_iff

/-- An app name that stays within the base directory reaches no file outside. -/
theorem inside_of_staysWithin {r : Reader} (hbase : r.baseDir ≠ "") (named : r.fs.WellNamed)
    {app fromDate toDate : String} (h : StaysWithin r.baseDir app) {f : LogFile}
    (hf : f ∈ r.listFiles app fromDate toDate) : Inside r.baseDir f.fullPath := by
  obtain ⟨happ, htop⟩ := h
  obtain ⟨hrooted, hplace⟩ := appDir_leads hbase app
  obtain ⟨hrooted', hplace'⟩ := topArchiveDir_leads hbase app
  have hdir : appDir r.baseDir app ≠ "" := joinPath_ne_empty hbase _
  have htopDir : topArchiveDir r.baseDir app ≠ "" := joinPath_ne_empty hbase _
  have harchive := name_leads hdir isName_archive
  have hscanned := mem_of_mem_uniqueNames (mem_listFiles.mp hf)
  rw [Reader.scanned] at hscanned
  rcases List.mem_append.mp hscanned with hmem | hmem
  · rcases List.mem_append.mp hmem with hmem | hmem
    · obtain ⟨name, hname, hpath⟩ := scanDir_path named hmem
      rw [hpath, inside_iff hdir hname hrooted]
      exact hplace ▸ happ
    · obtain ⟨name, hname, hpath⟩ := scanDir_path named hmem
      rw [hpath, inside_iff (joinPath_ne_empty hdir _) hname (harchive.1.trans hrooted)]
      obtain ⟨below, hbelow, hup⟩ := happ
      refine ⟨"archive" :: below, ?_, ?_⟩
      · rw [harchive.2, hplace, hbelow, List.cons_append]
      · rw [List.mem_cons, not_or]
        exact ⟨isName_archive.ne_dotDot.symm, hup⟩
  · split at hmem
    · obtain ⟨name, hname, hpath⟩ := scanDir_path named hmem
      rw [hpath, inside_iff htopDir hname hrooted']
      exact hplace' ▸ htop
    · cases hmem

/-- A disk with one dated log file, in one directory. -/
def oneFile (dir : String) : FileSystem where
  readDir d :=
    if d = dir then some [⟨"app.2024-01-15.log", false, some ⟨"2024-01-15", 1⟩⟩] else none
  openFile _ := none

theorem oneFile_wellNamed (dir : String) : (oneFile dir).WellNamed := by
  intro d entries hread e hmem
  rw [oneFile] at hread
  dsimp only at hread
  split at hread
  · obtain rfl := Option.some.inj hread
    rw [List.mem_singleton.mp hmem]
    decide
  · cases hread

theorem isName_oneFile : IsName "app.2024-01-15.log" :=
  ⟨by decide, by decide, by decide, by decide⟩

theorem scanDir_oneFile (dir dirPrefix : String) :
    scanDir (oneFile dir) dir dirPrefix "" "" ≠ [] := by
  have hread : (oneFile dir).readDir dir =
      some [⟨"app.2024-01-15.log", false, some ⟨"2024-01-15", 1⟩⟩] := if_pos rfl
  have hdate : extractDate "app.2024-01-15.log" = "2024-01-15" := by decide
  have hlog : contains "app.2024-01-15.log" ".log" = true := by decide
  have hentry : entryDate dirPrefix ⟨"app.2024-01-15.log", false, some ⟨"2024-01-15", 1⟩⟩ =
      some "2024-01-15" := by
    rw [entryDate, hdate]
    rfl
  have hscan : ∃ f, scanEntry dir dirPrefix "" ""
      ⟨"app.2024-01-15.log", false, some ⟨"2024-01-15", 1⟩⟩ = some f := by
    rw [scanEntry, hentry, hlog]
    exact ⟨_, rfl⟩
  obtain ⟨f, hf⟩ := hscan
  rw [scanDir, hread]
  simp only [List.filterMap_cons, hf, List.filterMap_nil]
  exact List.cons_ne_nil _ _

theorem uniqueNames_ne_nil {files : List LogFile} (h : files ≠ []) : uniqueNames [] files ≠ [] := by
  cases files with
  | nil => exact absurd rfl h
  | cons f files => simp [uniqueNames]

theorem scanned_oneFile (baseDir app : String) {dir : String}
    (h : dir = appDir baseDir app ∨ dir = topArchiveDir baseDir app) :
    (Reader.mk baseDir (oneFile dir)).scanned app "" "" ≠ [] := by
  intro hnil
  rw [Reader.scanned] at hnil
  obtain ⟨hfirst, hlast⟩ := List.append_eq_nil_iff.mp hnil
  obtain ⟨happ, harchive⟩ := List.append_eq_nil_iff.mp hfirst
  rcases h with rfl | rfl
  · exact scanDir_oneFile _ _ happ
  · by_cases hsame : topArchiveDir baseDir app = joinPath [appDir baseDir app, "archive"]
    · exact scanDir_oneFile _ _ (hsame ▸ harchive)
    · rw [if_pos (bne_iff_ne.mpr hsame)] at hlast
      exact scanDir_oneFile _ _ hlast

theorem scanDir_oneFile_path {dir d dirPrefix fromDate toDate : String} {f : LogFile}
    (h : f ∈ scanDir (oneFile dir) d dirPrefix fromDate toDate) :
    f.fullPath = joinPath [dir, "app.2024-01-15.log"] := by
  rw [scanDir, oneFile] at h
  by_cases hd : d = dir
  · subst hd
    simp only [if_true] at h
    obtain ⟨e, hmem, hscan⟩ := List.mem_filterMap.mp h
    rw [(scans_of_scanEntry hscan).fullPath, List.mem_singleton.mp hmem]
  · simp only [if_neg hd] at h
    cases h

/-- When every disk keeps the app inside, each directory it leads to is within. -/
theorem within_of_oneFile {baseDir app dir : String} (hdir : dir ≠ "")
    (hrooted : startsWith dir "/" = startsWith baseDir "/")
    (hscan : dir = appDir baseDir app ∨ dir = topArchiveDir baseDir app)
    (h : ∀ f ∈ (Reader.mk baseDir (oneFile dir)).listFiles app "" "", Inside baseDir f.fullPath) :
    Within (place baseDir) (place dir) := by
  obtain ⟨f, hf⟩ :=
    List.exists_mem_of_ne_nil _ (uniqueNames_ne_nil (scanned_oneFile baseDir app hscan))
  have hpath : f.fullPath = joinPath [dir, "app.2024-01-15.log"] := by
    have hmem := mem_of_mem_uniqueNames hf
    rw [Reader.scanned] at hmem
    rcases List.mem_append.mp hmem with hmem | hmem
    · rcases List.mem_append.mp hmem with hmem | hmem
      · exact scanDir_oneFile_path hmem
      · exact scanDir_oneFile_path hmem
    · split at hmem
      · exact scanDir_oneFile_path hmem
      · cases hmem
  have hinside := h f (mem_listFiles.mpr hf)
  rwa [hpath, inside_iff hdir isName_oneFile hrooted] at hinside

/-- Every file an app name reaches lies inside the base directory, on every disk and for every
range of dates, exactly if the name stays within it. -/
theorem listed_inside_iff (baseDir app : String) (hbase : baseDir ≠ "") :
    (∀ fs : FileSystem, fs.WellNamed → ∀ fromDate toDate,
      ∀ f ∈ (Reader.mk baseDir fs).listFiles app fromDate toDate, Inside baseDir f.fullPath) ↔
      StaysWithin baseDir app := by
  constructor
  · intro h
    obtain ⟨hrooted, hplace⟩ := appDir_leads hbase app
    obtain ⟨hrooted', hplace'⟩ := topArchiveDir_leads hbase app
    refine ⟨?_, ?_⟩
    · have hwithin := within_of_oneFile (joinPath_ne_empty hbase _) hrooted (Or.inl rfl)
        (h (oneFile (appDir baseDir app)) (oneFile_wellNamed _) "" "")
      exact hplace ▸ hwithin
    · have hwithin := within_of_oneFile (joinPath_ne_empty hbase _) hrooted' (Or.inr rfl)
        (h (oneFile (topArchiveDir baseDir app)) (oneFile_wellNamed _) "" "")
      exact hplace' ▸ hwithin
  · intro h fs named fromDate toDate f hf
    exact inside_of_staysWithin (r := ⟨baseDir, fs⟩) hbase named h hf

/-- An ordinary name stays within. -/
theorem listed_inside_gateway :
    (∀ fs : FileSystem, fs.WellNamed → ∀ fromDate toDate,
      ∀ f ∈ (Reader.mk "/opt/logs" fs).listFiles "gateway" fromDate toDate,
        Inside "/opt/logs" f.fullPath) ↔ StaysWithin "/opt/logs" "gateway" :=
  listed_inside_iff "/opt/logs" "gateway" (by decide)

/-- Two dots lead from the log directory to its sibling. -/
theorem climbing_name_escapes : ∃ fs : FileSystem, fs.WellNamed ∧
    ∃ f ∈ (Reader.mk "/opt/logs" fs).listFiles "../nginx" "" "",
      f.fullPath = "/opt/nginx/app.2024-01-15.log" ∧ ¬ Inside "/opt/logs" f.fullPath := by
  refine ⟨oneFile "/opt/nginx", oneFile_wellNamed _,
    ⟨"app.2024-01-15.log", "2024-01-15", 1, false, "/opt/nginx/app.2024-01-15.log"⟩,
    by decide, rfl, ?_⟩
  rintro ⟨_, below, _, hplace, _⟩
  have hpath : place "/opt/nginx/app.2024-01-15.log" = ["app.2024-01-15.log", "nginx", "opt"] := by
    decide
  have hbase : place "/opt/logs" = ["logs", "opt"] := by decide
  rw [hpath, hbase] at hplace
  have hsecond := congrArg (fun stack => stack.reverse[1]?) hplace
  simp at hsecond

end NestGateway.LogReader
