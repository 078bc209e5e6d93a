import NestGateway.Core.FirstOfKey
import NestGateway.LogReader.Parser

/-! # Log files on disk

Which files of an app the log-streamer reads, and in which order: the app
directory, its archive and the common archive, within a range of dates, by date
and rotation number.
-/

namespace NestGateway.LogReader

open Text Regex Re

/-- The elements of a path, split at the slashes. -/
def pathElements (path : String) : List String :=
  (path.toList.splitOn '/').map String.ofList

/-- One element of a path, on the stack of those before it. -/
def cleanElement (rooted : Bool) (stack : List String) (elem : String) : List String :=
  if elem = "" || elem = "." then stack
  else if elem = ".." then
    match stack with
    | [] => if rooted then [] else [".."]
    | top :: below => if top = ".." then ".." :: stack else below
  else elem :: stack

def cleanPath (path : String) : String :=
  let rooted := startsWith path "/"
  let body := String.intercalate "/" ((pathElements path).foldl (cleanElement rooted) []).reverse
  if rooted then "/" ++ body else if body = "" then "." else body

def joinPath (elems : List String) : String :=
  match elems.dropWhile (· = "") with
  | [] => ""
  | rest => cleanPath (String.intercalate "/" rest)

def basePath (path : String) : String :=
  if path = "" then "."
  else
    match (pathElements path).reverse.dropWhile (· = "") with
    | [] => "/"
    | last :: _ => last

structure FileInfo where
  /-- The modification time as a local date. -/
  modDate : String
  size : Nat
  deriving Repr, DecidableEq

structure DirEntry where
  name : String
  isDir : Bool
  info : Option FileInfo
  deriving Repr, DecidableEq

/-- What the reader of an opened file yields: its text, and whether reading then fails. -/
structure Stored where
  text : String
  broken : Bool
  deriving Repr, DecidableEq

/-- The disk as the log-streamer sees it. -/
structure FileSystem where
  /-- `os.ReadDir`: the entries sorted by name, none on an error. -/
  readDir : String → Option (List DirEntry)
  /-- `openFile`: what the plain or the gzip reader yields, none when opening fails. -/
  openFile : String → Option Stored

structure LogFile where
  /-- The path within the app, with the archive prefix. -/
  name : String
  date : String
  size : Nat
  compressed : Bool
  fullPath : String
  deriving Repr, DecidableEq

/-- `(\d{4}-\d{2}-\d{2})` -/
def dateInFilename : Re :=
  group 1 (all [times 4 digit, char '-', times 2 digit, char '-', times 2 digit])

/-- `\.(\d+)(?:\.log|\.gz)$|\.log\.(\d+)(?:\.gz)?$` -/
def rotationNumPattern : Re :=
  alt (all [char '.', group 1 (plus digit), alt (lit ".log") (lit ".gz"), eol])
    (all [lit ".log.", group 2 (plus digit), opt (lit ".gz"), eol])

def extractDate (filename : String) : String :=
  match find dateInFilename filename with
  | none => ""
  | some m => m.group 1

/-- The digits of a rotation number; a number that is out of range becomes the largest `int`. -/
def rotationValue (digits : String) : Nat :=
  min (Nat.ofDigitChars 10 digits.toList 0) (2 ^ 63 - 1)

def extractRotationNum (filename : String) : Nat :=
  match find rotationNumPattern (basePath filename) with
  | none => 0
  | some m =>
      if m.group 1 != "" then rotationValue (m.group 1)
      else if m.group 2 != "" then rotationValue (m.group 2)
      else 0

/-- The date of a directory entry, none when the entry is skipped. -/
def entryDate (dirPrefix : String) (e : DirEntry) : Option String :=
  let date := extractDate e.name
  if date != "" then some date
  else if dirPrefix != "" then none
  else e.info.map (·.modDate)

/-- One directory entry as a log file, none when it is skipped. -/
def scanEntry (dir dirPrefix fromDate toDate : String) (e : DirEntry) : Option LogFile :=
  if e.isDir then none
  else if !contains e.name ".log" then none
  else do
    let date ← entryDate dirPrefix e
    if fromDate != "" && date < fromDate then none
    else if toDate != "" && toDate < date then none
    else
      let info ← e.info
      some
        { name := if dirPrefix != "" then dirPrefix ++ "/" ++ e.name else e.name
          date
          size := info.size
          compressed := endsWith e.name ".gz"
          fullPath := joinPath [dir, e.name] }

def scanDir (fs : FileSystem) (dir dirPrefix fromDate toDate : String) : List LogFile :=
  match fs.readDir dir with
  | none => []
  | some entries => entries.filterMap (scanEntry dir dirPrefix fromDate toDate)

/-- Keep the first file of every name. -/
def uniqueNames : List String → List LogFile → List LogFile
  | _, [] => []
  | seen, f :: files =>
      if f.name ∈ seen then uniqueNames seen files
      else f :: uniqueNames (f.name :: seen) files

/-- The order of the files: by date, then by rotation number. -/
def fileLess (a b : LogFile) : Bool :=
  if a.date != b.date then a.date < b.date
  else extractRotationNum a.name < extractRotationNum b.name

structure Reader where
  baseDir : String
  fs : FileSystem

/-- `Reader.ListApps`, none on an error. -/
def Reader.listApps (r : Reader) : Option (List String) :=
  (r.fs.readDir r.baseDir).map fun entries =>
    (entries.filter fun e => e.isDir && e.name != "archive").map (·.name)

def Reader.listFiles (r : Reader) (app fromDate toDate : String) : List LogFile :=
  let appDir := joinPath [r.baseDir, app]
  let appArchiveDir := joinPath [appDir, "archive"]
  let topArchiveDir := joinPath [r.baseDir, "archive", app]
  let files := scanDir r.fs appDir "" fromDate toDate ++
    scanDir r.fs appArchiveDir "archive" fromDate toDate ++
    (if topArchiveDir != appArchiveDir then
      scanDir r.fs topArchiveDir "archive" fromDate toDate
    else [])
  (uniqueNames [] files).insertionSort fun a b => !fileLess b a

/-- What a directory entry and its log file have in common. -/
structure Scans (dir dirPrefix fromDate toDate : String) (e : DirEntry) (f : LogFile) : Prop where
  log : contains e.name ".log" = true
  date : entryDate dirPrefix e = some f.date
  since : fromDate ≠ "" → ¬ f.date < fromDate
  upTo : toDate ≠ "" → ¬ toDate < f.date
  name : f.name = if dirPrefix != "" then dirPrefix ++ "/" ++ e.name else e.name
  fullPath : f.fullPath = joinPath [dir, e.name]

theorem scans_of_scanEntry {dir dirPrefix fromDate toDate : String} {e : DirEntry} {f : LogFile}
    (h : scanEntry dir dirPrefix fromDate toDate e = some f) :
    Scans dir dirPrefix fromDate toDate e f := by
  rw [scanEntry] at h
  split at h
  · cases h
  · split at h
    · cases h
    next hlog =>
      obtain ⟨date, hdate, h⟩ := Option.bind_eq_some_iff.mp h
      split at h
      · cases h
      next hfrom =>
        split at h
        · cases h
        next hto =>
          obtain ⟨info, _, h⟩ := Option.bind_eq_some_iff.mp h
          cases h
          simp only [Bool.not_eq_true', Bool.not_eq_false] at hlog
          simp only [bne_iff_ne, ne_eq, Bool.and_eq_true, decide_eq_true_eq, not_and]
            at hfrom hto
          exact ⟨hlog, hdate, hfrom, hto, rfl, rfl⟩

theorem mem_scanDir {fs : FileSystem} {dir dirPrefix fromDate toDate : String} {f : LogFile}
    (h : f ∈ scanDir fs dir dirPrefix fromDate toDate) :
    ∃ entries, fs.readDir dir = some entries ∧
      ∃ e ∈ entries, Scans dir dirPrefix fromDate toDate e f := by
  rw [scanDir] at h
  cases hread : fs.readDir dir with
  | none =>
      rw [hread] at h
      cases h
  | some entries =>
      rw [hread] at h
      obtain ⟨e, hmem, hscan⟩ := List.mem_filterMap.mp h
      exact ⟨entries, rfl, e, hmem, scans_of_scanEntry hscan⟩

theorem uniqueNames_eq (seen : List String) (files : List LogFile) :
    uniqueNames seen files = firstOfKey (·.name) seen files := by
  induction files generalizing seen with
  | nil => rfl
  | cons f files ih => rw [uniqueNames, firstOfKey, ih, ih]

theorem listFiles_nodup (r : Reader) (app fromDate toDate : String) :
    ((r.listFiles app fromDate toDate).map (·.name)).Nodup := by
  rw [Reader.listFiles, uniqueNames_eq]
  exact ((List.perm_insertionSort _ _).map _).nodup_iff.mpr (nodup_firstOfKey [] _)

end NestGateway.LogReader
