import NestGateway.LogReader.Search

/-! # The full match list

What a search is for: all matching entries of the files of an app, with no
limit and no state. The lines of a file are parsed one by one, the lines before
the first timestamp are entries of their own, a timestamped line takes the
untimestamped lines after it into its message, and the filters choose among
the entries. The scan loop returns the beginning of this list.
-/

namespace NestGateway.LogReader

open Text List

/-- Has a line no timestamp? -/
def LogLine.untimed (l : LogLine) : Bool := l.timestamp = ""

/-- A timestamped line with the messages of the untimestamped lines right after it. -/
def joinMessages (l : LogLine) (following : List LogLine) : LogLine :=
  let messages := (following.takeWhile (·.untimed)).map (·.message)
  { l with message := String.intercalate "\n" (l.message :: messages) }

def timestampedEntries : List LogLine → List LogLine
  | [] => []
  | l :: rest =>
      if l.untimed then timestampedEntries rest
      else joinMessages l rest :: timestampedEntries rest

theorem timestampedEntries_cons (l : LogLine) (rest : List LogLine) :
    timestampedEntries (l :: rest) =
      if l.untimed then timestampedEntries rest
      else joinMessages l rest :: timestampedEntries rest := rfl

/-- The entries of a file's parsed lines. -/
def groupEntries (parsed : List LogLine) : List LogLine :=
  parsed.takeWhile (·.untimed) ++ timestampedEntries parsed

section Runtime

variable (rt : Runtime) (params : SearchParams)

/-- The non-blank lines with their numbers, counted from `lineNo + 1`. -/
def numberedLines (lineNo : Nat) (lines : List String) : List (String × Nat) :=
  (lines.zipIdx (lineNo + 1)).filter fun (line, _) => trimSpace line ≠ ""

/-- The parsed lines of a file, with the parser that its first non-blank line selects. -/
def parsedLines (fileName : String) (lines : List String) : List LogLine :=
  match numberedLines 0 lines with
  | [] => []
  | (first, no) :: rest =>
      ((first, no) :: rest).map fun (line, no) =>
        parsedLine rt fileName (detectParser first) line no

def fileMatches (fileName : String) (lines : List String) : List LogLine :=
  (groupEntries (parsedLines rt fileName lines)).filter (matchFilters rt · params)

/-- The lines of a file on disk, none when it does not open. -/
def Reader.fileLines (r : Reader) (f : LogFile) : List String :=
  match r.fs.openFile f.fullPath with
  | none => []
  | some stored => (scanLines stored.text stored.broken).lines

/-- The full match list of a search, in the order of the files. -/
def Reader.matchList (r : Reader) : List LogLine :=
  (r.listFiles params.app params.fromDate params.toDate).flatMap fun f =>
    fileMatches rt params f.name (r.fileLines f)

/-- A file that opens and scans to its end. -/
def Reader.Readable (r : Reader) (f : LogFile) : Prop :=
  ∃ stored, r.fs.openFile f.fullPath = some stored ∧
    (scanLines stored.text stored.broken).failed = false

instance (r : Reader) (f : LogFile) : Decidable (r.Readable f) :=
  match h : r.fs.openFile f.fullPath with
  | none => isFalse fun ⟨stored, hopen, _⟩ => by rw [h] at hopen; cases hopen
  | some stored =>
      decidable_of_iff ((scanLines stored.text stored.broken).failed = false)
        ⟨fun hscan => ⟨stored, h, hscan⟩, fun ⟨stored', hopen, hscan⟩ => by
          rw [h] at hopen
          exact Option.some.inj hopen ▸ hscan⟩

/-! ## What the scan has before it -/

/-- The parsed lines ahead of the scan, whose parser is chosen already or still to choose. -/
def parsedAhead (fileName : String) (parser : Option Parser) (numbered : List (String × Nat)) :
    List LogLine :=
  match numbered with
  | [] => []
  | (first, no) :: rest =>
      ((first, no) :: rest).map fun (line, no) =>
        parsedLine rt fileName (parser.getD (detectParser first)) line no

theorem parsedLines_eq (fileName : String) (lines : List String) :
    parsedLines rt fileName lines = parsedAhead rt fileName none (numberedLines 0 lines) := by
  unfold parsedLines parsedAhead
  simp only [Option.getD_none]

theorem parsedAhead_cons (fileName : String) (parser : Option Parser) (line : String) (no : Nat)
    (rest : List (String × Nat)) :
    parsedAhead rt fileName parser ((line, no) :: rest) =
      parsedLine rt fileName (parser.getD (detectParser line)) line no ::
        parsedAhead rt fileName (some (parser.getD (detectParser line))) rest := by
  cases rest with
  | nil => rfl
  | cons next rest => rfl

theorem numberedLines_cons_blank {lineNo : Nat} {line : String} {rest : List String}
    (h : trimSpace line = "") :
    numberedLines lineNo (line :: rest) = numberedLines (lineNo + 1) rest := by
  simp [numberedLines, h]

theorem numberedLines_cons {lineNo : Nat} {line : String} {rest : List String}
    (h : trimSpace line ≠ "") :
    numberedLines lineNo (line :: rest) =
      (line, lineNo + 1) :: numberedLines (lineNo + 1) rest := by
  simp [numberedLines, h]

/-- The entries that the scan has not added yet. -/
def pendingEntries (current : Option LogLine) (ahead : List LogLine) : List LogLine :=
  match current with
  | none => groupEntries ahead
  | some current => joinMessages current ahead :: timestampedEntries ahead

theorem pendingEntries_none (ahead : List LogLine) :
    pendingEntries none ahead = ahead.takeWhile (·.untimed) ++ timestampedEntries ahead := rfl

theorem pendingEntries_some (c : LogLine) (ahead : List LogLine) :
    pendingEntries (some c) ahead = joinMessages c ahead :: timestampedEntries ahead := rfl

theorem joinMessages_nil (l : LogLine) : joinMessages l [] = l := by simp [joinMessages]

theorem joinMessages_timed {l a : LogLine} {rest : List LogLine} (h : a.timestamp ≠ "") :
    joinMessages l (a :: rest) = l := by
  have hu : a.untimed = false := decide_eq_false h
  simp [joinMessages, hu]

theorem joinMessages_untimed {l a : LogLine} {rest : List LogLine} (h : a.timestamp = "") :
    joinMessages l (a :: rest) =
      joinMessages { l with message := l.message ++ "\n" ++ a.message } rest := by
  have hu : a.untimed = true := decide_eq_true h
  simp [joinMessages, hu, String.append_assoc]

theorem pendingEntries_nil (current : Option LogLine) :
    pendingEntries current [] = current.toList := by
  cases current with
  | none => rfl
  | some c => exact congrArg (· :: []) (joinMessages_nil c)

theorem pendingEntries_timed (current : Option LogLine) {a : LogLine} {rest : List LogLine}
    (h : a.timestamp ≠ "") :
    pendingEntries current (a :: rest) = current.toList ++ pendingEntries (some a) rest := by
  have hu : a.untimed = false := decide_eq_false h
  cases current with
  | none => simp [pendingEntries_none, pendingEntries_some, timestampedEntries_cons, hu]
  | some c => simp [pendingEntries_some, timestampedEntries_cons, hu, joinMessages_timed h]

theorem pendingEntries_continued {c a : LogLine} {rest : List LogLine} (h : a.timestamp = "") :
    pendingEntries (some c) (a :: rest) =
      pendingEntries (some { c with message := c.message ++ "\n" ++ a.message }) rest := by
  have hu : a.untimed = true := decide_eq_true h
  simp [pendingEntries_some, timestampedEntries_cons, hu, joinMessages_untimed h]

theorem pendingEntries_raw {a : LogLine} {rest : List LogLine} (h : a.timestamp = "") :
    pendingEntries none (a :: rest) = a :: pendingEntries none rest := by
  have hu : a.untimed = true := decide_eq_true h
  simp [pendingEntries_none, timestampedEntries_cons, hu]

/-- What a scan will have found at the end of the file. -/
def Scanning.total (st : Scanning) (fileName : String) (rest : List String) : List LogLine :=
  st.lines ++ (pendingEntries st.current
    (parsedAhead rt fileName st.parser (numberedLines st.lineNo rest))).filter
      (matchFilters rt · params)

def Scanning.pending (st : Scanning) (fileName : String) (rest : List String) : List LogLine :=
  pendingEntries st.current (parsedAhead rt fileName st.parser (numberedLines st.lineNo rest))

theorem flush_eq (st : Scanning) :
    st.flush rt params = st.lines ++ st.current.toList.filter (matchFilters rt · params) := by
  unfold Scanning.flush
  cases st.current with
  | none => simp
  | some c => by_cases h : matchFilters rt c params = true <;> simp [h]

theorem pending_nil (st : Scanning) (fileName : String) :
    st.pending rt fileName [] = st.current.toList := by
  have hahead : parsedAhead rt fileName st.parser (numberedLines st.lineNo []) = [] := rfl
  rw [Scanning.pending, hahead, pendingEntries_nil]

theorem total_nil (st : Scanning) (fileName : String) :
    st.total rt params fileName [] = st.flush rt params := by
  have hpending := pending_nil rt st fileName
  rw [Scanning.pending] at hpending
  rw [Scanning.total, hpending, flush_eq]

/-! ## One line of a scan -/

def Scanning.Opened (st : Scanning) : Prop := ∀ c ∈ st.current, c.timestamp ≠ ""

/-- The scan after one more line. -/
def Scanning.next (st : Scanning) (fileName line : String) : Scanning :=
  let lineNo := st.lineNo + 1
  if trimSpace line = "" then { st with lineNo }
  else
    let parser := st.parser.getD (detectParser line)
    let parsed := parsedLine rt fileName parser line lineNo
    if parsed.timestamp ≠ "" then
      { lineNo, parser := some parser, current := some parsed, lines := st.flush rt params }
    else
      match st.current with
      | some current =>
          let message := current.message ++ "\n" ++ parsed.message
          { st with lineNo, parser := some parser, current := some { current with message } }
      | none =>
          let lines := if matchFilters rt parsed params then st.lines ++ [parsed] else st.lines
          { st with lineNo, parser := some parser, lines }

/-- An entry that a line has closed: the timestamped one before the line that is open now, or
the line itself. -/
inductive Closed (st next : Scanning) (e : LogLine) : Prop
  | timed (timed : e.timestamp ≠ "") (more : next.current.isSome = true)
  | raw (raw : e.timestamp = "") (last : e.lineNo = st.lineNo + 1) (none : next.current = none)

/-- A line closes at most one entry, which is added when it matches. -/
theorem next_spec {st : Scanning} (hopen : st.Opened) (fileName line : String)
    (rest : List String) :
    ∃ closed : Option LogLine,
      st.pending rt fileName (line :: rest) =
        closed.toList ++ (st.next rt params fileName line).pending rt fileName rest ∧
      (st.next rt params fileName line).lines =
        st.lines ++ closed.toList.filter (matchFilters rt · params) ∧
      ∀ e ∈ closed, Closed st (st.next rt params fileName line) e := by
  rw [Scanning.next, Scanning.pending]
  dsimp only
  split
  case isTrue hblank =>
    rw [numberedLines_cons_blank hblank]
    exact ⟨none, rfl, (append_nil _).symm, fun e he => by cases he⟩
  case isFalse hblank =>
    rw [numberedLines_cons hblank, parsedAhead_cons]
    generalize st.parser.getD (detectParser line) = parser
    have hno : (parsedLine rt fileName parser line (st.lineNo + 1)).lineNo = st.lineNo + 1 := rfl
    generalize parsedLine rt fileName parser line (st.lineNo + 1) = parsed at hno ⊢
    split
    case isTrue htimed =>
      rw [pendingEntries_timed _ htimed, flush_eq]
      exact ⟨st.current, rfl, rfl, fun e he => .timed (hopen e he) rfl⟩
    case isFalse hraw =>
      have hraw : parsed.timestamp = "" := not_not.mp hraw
      split
      next c hc =>
        rw [hc, pendingEntries_continued hraw]
        exact ⟨none, rfl, (append_nil _).symm, fun e he => by cases he⟩
      next hc =>
        rw [hc, pendingEntries_raw hraw]
        refine ⟨some parsed, rfl, ?_, fun e he => Option.some.inj he ▸ .raw hraw hno rfl⟩
        dsimp only
        rw [Option.toList_some, filter_singleton, Bool.cond_eq_ite]
        split
        · rfl
        · exact (append_nil _).symm

theorem Scanning.Opened.next {st : Scanning} (hopen : st.Opened) (fileName line : String) :
    (st.next rt params fileName line).Opened := by
  rw [Scanning.next]
  dsimp only
  split
  · exact hopen
  · split
    next htimed => exact fun c hc => Option.some.inj hc ▸ htimed
    next =>
      split
      next current hc => exact fun c hc' => Option.some.inj hc' ▸ hopen current hc
      next hc => exact fun c hc' => hopen c hc'

theorem next_lineNo (st : Scanning) (fileName line : String) :
    (st.next rt params fileName line).lineNo = st.lineNo + 1 := by
  rw [Scanning.next]
  dsimp only
  split
  · rfl
  · split
    · rfl
    · split <;> rfl

theorem total_next {st : Scanning} (hopen : st.Opened) (fileName line : String)
    (rest : List String) :
    st.total rt params fileName (line :: rest) =
      (st.next rt params fileName line).total rt params fileName rest := by
  obtain ⟨closed, hpending, hlines, -⟩ := next_spec rt params hopen fileName line rest
  show st.lines ++ (st.pending rt fileName (line :: rest)).filter _ = _
  rw [hpending, filter_append, ← append_assoc, ← hlines]
  rfl

theorem scanLoop_cons {st : Scanning} {limit : Nat} (hlines : st.lines.length < limit)
    (fileName : String) (failed : Bool) (line : String) (rest : List String) :
    scanLoop rt params fileName limit failed (line :: rest) st =
      let next := st.next rt params fileName line
      if limit ≤ next.lines.length then
        ⟨next.lines, next.current.isSome || !rest.isEmpty, false⟩
      else scanLoop rt params fileName limit failed rest next := by
  have hfew : ¬ limit ≤ st.lines.length := not_le.mpr hlines
  by_cases hblank : trimSpace line = ""
  · simp only [scanLoop, Scanning.next, hblank, if_true, if_neg hfew]
  · simp only [scanLoop, Scanning.next, hblank, if_false]
    generalize parsedLine rt fileName _ line (st.lineNo + 1) = parsed
    by_cases htimed : parsed.timestamp ≠ ""
    · simp only [if_pos htimed]
      rfl
    · simp only [if_neg htimed]
      cases hc : st.current with
      | some current => simp only [if_neg hfew]
      | none =>
          by_cases hmatch : matchFilters rt parsed params = true
          · simp only [if_pos hmatch]
            rfl
          · simp only [if_neg hmatch, if_neg hfew]

/-! ## The scan loop -/

/-- Does the list end with an untimestamped line that is line `lineNo` of its file? -/
def endsRaw (found : List LogLine) (lineNo : Nat) : Bool :=
  match found.getLast? with
  | none => false
  | some e => e.untimed && e.lineNo == lineNo

/-- The flag of a search that finds `found` in all: more is announced when the limit is
reached, except by an untimestamped line that ends its file. -/
def announcesMore (limit lastLine : Nat) (found : List LogLine) : Bool :=
  limit ≤ found.length && !(found.length == limit && endsRaw found lastLine)

theorem endsRaw_append_timed {found : List LogLine} {e : LogLine} {lineNo : Nat}
    (h : e.timestamp ≠ "") : endsRaw (found ++ [e]) lineNo = false := by
  have hu : e.untimed = false := decide_eq_false h
  simp [endsRaw, hu]

theorem announcesMore_append_timed {limit : Nat} (lastLine : Nat) {found : List LogLine}
    (more : List LogLine) {e : LogLine} (h : e.timestamp ≠ "")
    (hlimit : limit ≤ (found ++ [e]).length) :
    announcesMore limit lastLine (found ++ [e] ++ more) = true := by
  have hle : limit ≤ (found ++ [e] ++ more).length := by
    rw [length_append]; omega
  rw [announcesMore, decide_eq_true hle, Bool.true_and, Bool.not_eq_true', Bool.and_eq_false_iff]
  cases more with
  | nil => exact Or.inr (by rw [append_nil]; exact endsRaw_append_timed h)
  | cons m more =>
      left
      rw [beq_eq_false_iff_ne, length_append, length_cons]
      omega

/-- The flag when an untimestamped line reaches the limit: is there another line to scan? -/
theorem announcesMore_append_raw {limit lastLine : Nat} {found more : List LogLine} {e : LogLine}
    (h : e.timestamp = "") (hlimit : (found ++ [e]).length = limit)
    (hmore : e.lineNo = lastLine → more = []) :
    announcesMore limit lastLine (found ++ [e] ++ more) = !(e.lineNo == lastLine) := by
  have hu : e.untimed = true := decide_eq_true h
  have hle : limit ≤ (found ++ [e] ++ more).length := by
    rw [length_append]; omega
  rw [announcesMore, decide_eq_true hle, Bool.true_and]
  congr 1
  cases more with
  | nil => simp [endsRaw, hu, ← hlimit]
  | cons m more =>
      have hne : (e.lineNo == lastLine) = false := beq_eq_false_iff_ne.mpr fun h => by
        cases hmore h
      have hlen : ((found ++ [e] ++ m :: more).length == limit) = false := by
        rw [beq_eq_false_iff_ne, length_append, length_cons]
        omega
      rw [hne, hlen, Bool.false_and]

theorem next_full {st : Scanning} {limit : Nat} {fileName line : String} (hopen : st.Opened)
    (hlines : st.lines.length < limit)
    (hfull : limit ≤ (st.next rt params fileName line).lines.length) :
    ∃ e, (st.next rt params fileName line).lines = st.lines ++ [e] ∧
      (st.lines ++ [e]).length = limit ∧ Closed st (st.next rt params fileName line) e := by
  obtain ⟨closed, -, hnext, hclosed⟩ := next_spec rt params hopen fileName line []
  cases closed with
  | none =>
      rw [hnext, Option.toList_none, filter_nil, append_nil] at hfull
      omega
  | some e =>
      rw [Option.toList_some, filter_singleton, Bool.cond_eq_ite] at hnext
      split at hnext
      next =>
        refine ⟨e, hnext, ?_, hclosed e rfl⟩
        rw [hnext, length_append, length_singleton] at hfull
        rw [length_append, length_singleton]
        omega
      next =>
        rw [hnext, append_nil] at hfull
        omega

/-- When the lines are full, the flag tells whether there is more to scan. -/
theorem announcesMore_next {st next : Scanning} {limit : Nat} {fileName : String} {e : LogLine}
    (hnext : next.lines = st.lines ++ [e]) (hlen : (st.lines ++ [e]).length = limit)
    (hclosed : Closed st next e) (rest : List String) :
    (next.total rt params fileName rest).take limit = next.lines ∧
      announcesMore limit (st.lineNo + 1 + rest.length) (next.total rt params fileName rest) =
        (next.current.isSome || !rest.isEmpty) := by
  have htotal : next.total rt params fileName rest =
      st.lines ++ [e] ++ (next.pending rt fileName rest).filter (matchFilters rt · params) := by
    rw [← hnext]
    rfl
  rw [htotal, hnext]
  refine ⟨take_left' hlen, ?_⟩
  cases hclosed with
  | timed htimed hmore =>
      rw [announcesMore_append_timed _ _ htimed hlen.ge, hmore, Bool.true_or]
  | raw hraw hlast hnone =>
      rw [announcesMore_append_raw hraw hlen, hnone, Option.isSome_none, Bool.false_or]
      · cases rest <;> simp [hlast]
      · intro heq
        have hrest : rest = [] := eq_nil_of_length_eq_zero (by omega)
        rw [hrest, pending_nil, hnone]
        rfl

theorem announcesMore_flush {st : Scanning} {limit : Nat} (hopen : st.Opened)
    (hlines : st.lines.length < limit) (hfull : limit ≤ (st.flush rt params).length)
    (lastLine : Nat) : announcesMore limit lastLine (st.flush rt params) = true := by
  rw [flush_eq] at hfull ⊢
  cases hc : st.current with
  | none =>
      rw [hc, Option.toList_none, filter_nil, append_nil] at hfull
      omega
  | some c =>
      rw [hc, Option.toList_some, filter_singleton, Bool.cond_eq_ite] at hfull
      rw [Option.toList_some, filter_singleton, Bool.cond_eq_ite]
      split at hfull
      next hmatch =>
        have hmore := announcesMore_append_timed lastLine [] (hopen c hc) hfull
        rwa [if_pos hmatch, ← append_nil (st.lines ++ [c])]
      next =>
        rw [append_nil] at hfull
        omega

/-- The loop keeps the first `limit` of what there is to find, and its flag tells whether the
limit was reached. -/
theorem scanLoop_spec (fileName : String) (limit : Nat) (rest : List String) (st : Scanning)
    (hopen : st.Opened) (hlines : st.lines.length < limit) :
    scanLoop rt params fileName limit false rest st =
      ⟨(st.total rt params fileName rest).take limit,
        announcesMore limit (st.lineNo + rest.length) (st.total rt params fileName rest),
        false⟩ := by
  induction rest generalizing st with
  | nil =>
      rw [scanLoop, total_nil]
      split
      case isTrue hfull => rw [announcesMore_flush rt params hopen hlines hfull]
      case isFalse hfew =>
        rw [take_of_length_le (by omega), announcesMore, decide_eq_false hfew]
        rfl
  | cons line rest ih =>
      have hlast : st.lineNo + (line :: rest).length = st.lineNo + 1 + rest.length := by
        rw [length_cons]
        omega
      rw [scanLoop_cons rt params hlines, total_next rt params hopen]
      dsimp only
      split
      case isTrue hfull =>
        obtain ⟨e, hnext, hlen, hclosed⟩ := next_full rt params hopen hlines hfull
        obtain ⟨htake, hmore⟩ := announcesMore_next rt params hnext hlen hclosed rest
        rw [hlast, htake, hmore]
      case isFalse hfew =>
        rw [ih _ (hopen.next rt params fileName line) (not_le.mp hfew), next_lineNo, hlast]

/-! ## The files of an app -/

variable {r : Reader}

theorem searchFile_spec {f : LogFile} (readable : r.Readable f) (limit : Nat) (hpos : 0 < limit) :
    r.searchFile rt params f limit =
      some ((fileMatches rt params f.name (r.fileLines f)).take limit,
        announcesMore limit (r.fileLines f).length
          (fileMatches rt params f.name (r.fileLines f))) := by
  obtain ⟨stored, hopen, hscan⟩ := readable
  have hlines : r.fileLines f = (scanLines stored.text stored.broken).lines := by
    rw [Reader.fileLines, hopen]
  have htotal : Scanning.total rt params {} f.name (r.fileLines f) =
      fileMatches rt params f.name (r.fileLines f) := by
    rw [fileMatches, parsedLines_eq]
    rfl
  have hspec := scanLoop_spec rt params f.name limit (r.fileLines f) {}
    (fun c hc => by cases hc) hpos
  rw [htotal, Nat.zero_add, hlines] at hspec
  rw [Reader.searchFile, hopen, hlines]
  dsimp only
  rw [hscan, hspec]
  rfl

def Reader.filesMatches (r : Reader) (files : List LogFile) : List LogLine :=
  files.flatMap fun f => fileMatches rt params f.name (r.fileLines f)

/-- Does the last file end with a matching untimestamped line? -/
def Reader.endsQuietly (r : Reader) (files : List LogFile) : Bool :=
  match files.getLast? with
  | none => false
  | some f => endsRaw (fileMatches rt params f.name (r.fileLines f)) (r.fileLines f).length

/-- The flag of a search over files with `limit` lines to go. -/
def Reader.announces (r : Reader) (limit : Nat) (files : List LogFile) : Bool :=
  limit ≤ (r.filesMatches rt params files).length &&
    !((r.filesMatches rt params files).length == limit && r.endsQuietly rt params files)

theorem endsRaw_length_pos {found : List LogLine} {lineNo : Nat}
    (h : endsRaw found lineNo = true) : 0 < found.length := by
  cases found with
  | nil => cases h
  | cons e found => exact Nat.succ_pos _

theorem announces_of_longer {limit : Nat} {files : List LogFile}
    (hlong : limit < (r.filesMatches rt params files).length) :
    r.announces rt params limit files = true := by
  rw [Reader.announces, decide_eq_true hlong.le, beq_false_of_ne hlong.ne']
  rfl

theorem le_of_announces {limit : Nat} {files : List LogFile}
    (hmore : r.announces rt params limit files = true) :
    limit ≤ (r.filesMatches rt params files).length := by
  rw [Reader.announces, Bool.and_eq_true] at hmore
  exact of_decide_eq_true hmore.1

theorem searchFiles_full {limit : Nat} {files : List LogFile} {lines : List LogLine}
    (hfull : limit ≤ lines.length) (hasMore : Bool) :
    r.searchFiles rt params limit files lines hasMore = (lines, hasMore || !files.isEmpty) := by
  cases files with
  | nil => simp [Reader.searchFiles]
  | cons f files => simp [Reader.searchFiles, hfull]

theorem endsQuietly_cons {f g : LogFile} {files : List LogFile} :
    r.endsQuietly rt params (f :: g :: files) = r.endsQuietly rt params (g :: files) := by
  simp only [Reader.endsQuietly, getLast?_cons_cons]

theorem endsQuietly_length_pos {files : List LogFile}
    (h : r.endsQuietly rt params files = true) : 0 < (r.filesMatches rt params files).length := by
  unfold Reader.endsQuietly at h
  split at h
  · cases h
  next f hlast =>
    have hsub := sublist_flatten_of_mem
      (mem_map_of_mem (f := fun f => fileMatches rt params f.name (r.fileLines f))
        (mem_of_getLast? hlast))
    exact lt_of_lt_of_le (endsRaw_length_pos h) hsub.length_le

theorem announces_cons_full {f : LogFile} {files : List LogFile} {limit : Nat}
    (hfull : limit ≤ (fileMatches rt params f.name (r.fileLines f)).length) :
    r.announces rt params limit (f :: files) =
      (announcesMore limit (r.fileLines f).length (fileMatches rt params f.name (r.fileLines f)) ||
        !files.isEmpty) := by
  cases files with
  | nil => simp [Reader.announces, Reader.filesMatches, Reader.endsQuietly, announcesMore]
  | cons g files =>
      have hlen : (r.filesMatches rt params (f :: g :: files)).length =
          (fileMatches rt params f.name (r.fileLines f)).length +
            (r.filesMatches rt params (g :: files)).length := by
        simp only [Reader.filesMatches, flatMap_cons, length_append]
      have hquiet : r.endsQuietly rt params (g :: files) = true →
          (r.filesMatches rt params (f :: g :: files)).length ≠ limit := by
        intro h
        have := endsQuietly_length_pos rt params h
        omega
      rw [Reader.announces, endsQuietly_cons, decide_eq_true (by omega)]
      cases hq : r.endsQuietly rt params (g :: files) with
      | false => simp
      | true => simp [hquiet hq]

theorem announces_cons_few {f : LogFile} {files : List LogFile} {limit : Nat}
    (hfew : (fileMatches rt params f.name (r.fileLines f)).length < limit) :
    r.announces rt params limit (f :: files) =
      r.announces rt params
        (limit - (fileMatches rt params f.name (r.fileLines f)).length) files := by
  have hlen : (r.filesMatches rt params (f :: files)).length =
      (fileMatches rt params f.name (r.fileLines f)).length +
        (r.filesMatches rt params files).length := by
    simp only [Reader.filesMatches, flatMap_cons, length_append]
  cases files with
  | nil =>
      have hzero : (r.filesMatches rt params []).length = 0 := rfl
      rw [Reader.announces, Reader.announces, decide_eq_false (by omega),
        decide_eq_false (by omega)]
      rfl
  | cons g files =>
      rw [Reader.announces, Reader.announces, endsQuietly_cons]
      congr 1
      · rw [decide_eq_decide]; omega
      · congr 2
        rw [Bool.eq_iff_iff, beq_iff_eq, beq_iff_eq]
        omega

/-- The loop over the files keeps the first `limit` of their matches. -/
theorem searchFiles_spec {limit : Nat} {files : List LogFile} {lines : List LogLine}
    (readable : ∀ f ∈ files, r.Readable f) (hlines : lines.length < limit) (hasMore : Bool) :
    r.searchFiles rt params limit files lines hasMore =
      ((lines ++ r.filesMatches rt params files).take limit,
        hasMore || r.announces rt params (limit - lines.length) files) := by
  induction files generalizing lines hasMore with
  | nil =>
      have hfew : r.announces rt params (limit - lines.length) [] = false := by
        have hzero : (r.filesMatches rt params []).length = 0 := rfl
        rw [Reader.announces, hzero, decide_eq_false (by omega)]
        rfl
      rw [Reader.searchFiles, hfew, Bool.or_false, Reader.filesMatches, flatMap_nil, append_nil,
        take_of_length_le hlines.le]
  | cons f files ih =>
      have hfile := searchFile_spec rt params (readable f mem_cons_self)
        (limit - lines.length) (by omega)
      have hrest : ∀ g ∈ files, r.Readable g := fun g hg => readable g (mem_cons_of_mem f hg)
      rw [Reader.searchFiles, if_neg (not_le.mpr hlines), hfile]
      dsimp only
      have hmatches : r.filesMatches rt params (f :: files) =
          fileMatches rt params f.name (r.fileLines f) ++ r.filesMatches rt params files :=
        flatMap_cons
      rw [hmatches]
      generalize hfound : fileMatches rt params f.name (r.fileLines f) = found
      rcases Nat.lt_or_ge found.length (limit - lines.length) with hfew | hfull
      · have hmore : announcesMore (limit - lines.length) (r.fileLines f).length found = false := by
          rw [announcesMore, decide_eq_false (not_le.mpr hfew), Bool.false_and]
        rw [take_of_length_le hfew.le, hmore, Bool.or_false,
          ih hrest (by rw [length_append]; omega), announces_cons_few rt params (hfound ▸ hfew),
          hfound, append_assoc, length_append, Nat.sub_add_eq]
      · have hcut : limit ≤ (lines ++ found.take (limit - lines.length)).length := by
          rw [length_append, length_take]; omega
        rw [searchFiles_full rt params hcut, announces_cons_full rt params (hfound ▸ hfull), hfound,
          Bool.or_assoc, ← append_assoc, take_append_of_le_length (by rw [length_append]; omega),
          take_append, take_of_length_le hlines.le]

/-- A search over readable files returns the beginning of the full match list. -/
theorem search_spec (r : Reader) (nodeName : String)
    (readable : ∀ f ∈ r.listFiles params.app params.fromDate params.toDate, r.Readable f) :
    r.search rt params nodeName =
      { lines := (r.matchList rt params).take (searchLimit params)
        node := nodeName
        hasMore := r.announces rt params (searchLimit params)
          (r.listFiles params.app params.fromDate params.toDate) } := by
  rw [Reader.search, searchFiles_spec rt params readable (searchLimit_pos params)]
  rfl

/-- The search agrees with its specification: it returns the first entries of the full match
list, and when it announces no more there are no more. -/
theorem search_refines_matchList (r : Reader) (nodeName : String)
    (readable : ∀ f ∈ r.listFiles params.app params.fromDate params.toDate, r.Readable f) :
    (r.search rt params nodeName).lines = (r.matchList rt params).take (searchLimit params) ∧
      ((r.search rt params nodeName).hasMore = false →
        (r.matchList rt params).length ≤ searchLimit params) := by
  rw [search_spec rt params r nodeName readable]
  refine ⟨rfl, fun hmore => ?_⟩
  by_contra hlong
  have hmore' := announces_of_longer rt params (not_le.mp hlong)
  exact Bool.false_ne_true (hmore.symm.trans hmore')

theorem matchFilters_limit (e : LogLine) (limit : Int) :
    matchFilters rt e { params with limit } = matchFilters rt e params := by
  simp only [matchFilters, matchLevel, matchKeyword, matchAfter, matchTimeRange, hasTimeFilter]

theorem matchList_limit (r : Reader) (limit : Int) :
    r.matchList rt { params with limit } = r.matchList rt params := by
  simp only [Reader.matchList, fileMatches, matchFilters_limit]

theorem exists_append_take_iff {α : Type} (xs : List α) (limit : Nat) :
    (∃ e rest, xs = xs.take limit ++ e :: rest) ↔ limit < xs.length := by
  constructor
  · rintro ⟨e, rest, hxs⟩
    have hlen := congrArg length hxs
    rw [length_append, length_cons, length_take] at hlen
    omega
  · intro hlt
    have hdrop : xs.drop limit = xs[limit] :: xs.drop (limit + 1) := drop_eq_getElem_cons hlt
    exact ⟨xs[limit], xs.drop (limit + 1), by rw [← hdrop, take_append_drop]⟩

/-- A search whose matches are as many as its limit announces more, unless a raw line ends the
files. In every other case the announced entry is there. -/
theorem hasMore_truthful_iff (r : Reader) (nodeName : String)
    (readable : ∀ f ∈ r.listFiles params.app params.fromDate params.toDate, r.Readable f) :
    ((r.search rt params nodeName).hasMore = true →
        ∃ e rest, r.matchList rt params = (r.search rt params nodeName).lines ++ e :: rest) ↔
      ((r.matchList rt params).length = searchLimit params →
        r.endsQuietly rt params (r.listFiles params.app params.fromDate params.toDate) = true) := by
  rw [search_spec rt params r nodeName readable]
  dsimp only
  have hannounces : r.announces rt params (searchLimit params)
        (r.listFiles params.app params.fromDate params.toDate) =
      (searchLimit params ≤ (r.matchList rt params).length &&
        !((r.matchList rt params).length == searchLimit params &&
          r.endsQuietly rt params (r.listFiles params.app params.fromDate params.toDate))) := rfl
  rw [hannounces, exists_append_take_iff]
  constructor
  · intro htrue hlen
    by_contra hloud
    have := htrue (by simp [hlen, hloud])
    omega
  · intro hquiet hmore
    rw [Bool.and_eq_true, decide_eq_true_eq, Bool.not_eq_true'] at hmore
    obtain ⟨hle, hexact⟩ := hmore
    by_contra hfew
    have hlen : (r.matchList rt params).length = searchLimit params := by omega
    rw [hlen, hquiet hlen, beq_self_eq_true] at hexact
    cases hexact

end Runtime

/-- An app with one log file: a raw line, an entry of two lines and an entry of one. -/
def sampleReader : Reader where
  baseDir := "/opt/logs"
  fs :=
    { readDir := fun dir =>
        if dir = "/opt/logs/app" then
          some [⟨"app.2024-01-15.log", false, some ⟨"2024-01-16", 120⟩⟩]
        else none
      openFile := fun path =>
        if path = "/opt/logs/app/app.2024-01-15.log" then
          some ⟨"[WARN] banner\n[INFO ] 2024-01-15 10:30:45.123 [c.e.S] started\n  at x\n\n" ++
            "[INFO ] 2024-01-15 10:30:46.000 [c.e.S] done\n", false⟩
        else none }

def sampleEntries : List LogLine :=
  [{ message := "[WARN] banner", file := "app.2024-01-15.log", lineNo := 1 },
    { timestamp := "2024-01-15 10:30:45.123", level := "INFO", source := "c.e.S",
      message := "started\n  at x", file := "app.2024-01-15.log", lineNo := 2 },
    { timestamp := "2024-01-15 10:30:46.000", level := "INFO", source := "c.e.S",
      message := "done", file := "app.2024-01-15.log", lineNo := 5 }]

theorem sampleReader_found :
    (∀ f ∈ sampleReader.listFiles "app" "" "", sampleReader.Readable f) ∧
      sampleReader.matchList Runtime.ascii { app := "app" } = sampleEntries ∧
      (sampleReader.search Runtime.ascii { app := "app", limit := 3 } "node-1").hasMore = true := by
  decide +kernel

theorem sampleReader_readable :
    ∀ f ∈ sampleReader.listFiles "app" "" "", sampleReader.Readable f := sampleReader_found.1

theorem sampleReader_matchList (limit : Int) :
    sampleReader.matchList Runtime.ascii { app := "app", limit } = sampleEntries := by
  rw [← sampleReader_found.2.1]
  exact matchList_limit Runtime.ascii { app := "app" } sampleReader limit

theorem search_refines_matchList_sample :
    (sampleReader.search Runtime.ascii { app := "app", limit := 2 } "node-1").lines =
      [ { message := "[WARN] banner", file := "app.2024-01-15.log", lineNo := 1 },
        { timestamp := "2024-01-15 10:30:45.123", level := "INFO", source := "c.e.S",
          message := "started\n  at x", file := "app.2024-01-15.log", lineNo := 2 } ] := by
  have h := search_refines_matchList Runtime.ascii { app := "app", limit := 2 } sampleReader
    "node-1" sampleReader_readable
  rw [h.1, sampleReader_matchList]
  rfl

/-- A limit of as many entries as there are announces more. -/
theorem hasMore_false_alarm_sample :
    let params : SearchParams := { app := "app", limit := 3 }
    (∀ f ∈ sampleReader.listFiles params.app params.fromDate params.toDate,
      sampleReader.Readable f) ∧
      (sampleReader.search Runtime.ascii params "node-1").hasMore = true ∧
      ¬ ∃ e rest, sampleReader.matchList Runtime.ascii params =
        (sampleReader.search Runtime.ascii params "node-1").lines ++ e :: rest := by
  refine ⟨sampleReader_readable, sampleReader_found.2.2, ?_⟩
  rintro ⟨e, rest, hmore⟩
  have hall : (sampleReader.search Runtime.ascii { app := "app", limit := 3 } "node-1").lines =
      sampleEntries := by
    rw [search_spec Runtime.ascii { app := "app", limit := 3 } sampleReader "node-1"
      sampleReader_readable]
    dsimp only
    rw [sampleReader_matchList]
    rfl
  rw [hall, sampleReader_matchList] at hmore
  exact cons_ne_nil e rest (self_eq_append_right.mp hmore)

theorem hasMore_truthful_iff_sample :
    let params : SearchParams := { app := "app", limit := 2 }
    (sampleReader.search Runtime.ascii params "node-1").hasMore = true →
      ∃ e rest, sampleReader.matchList Runtime.ascii params =
        (sampleReader.search Runtime.ascii params "node-1").lines ++ e :: rest := by
  refine (hasMore_truthful_iff Runtime.ascii { app := "app", limit := 2 } sampleReader "node-1"
    sampleReader_readable).mpr fun hlen => absurd hlen ?_
  rw [sampleReader_matchList]
  decide

end NestGateway.LogReader
