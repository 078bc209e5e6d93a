import NestGateway.LogReader.Positions
import NestGateway.LogReader.Stats

/-! # Files that fail while they are read

A scan that ends in an error has found entries before it. The search drops them
with the error, unless it reached its limit before it met the error; the count
keeps them.
-/

namespace NestGateway.LogReader

open Text List

/-! ## The entries that are complete before the end -/

/-- The entries without the timestamped one that is still open at the end. -/
def closedEntries (entries : List LogLine) : List LogLine :=
  match entries.getLast? with
  | none => []
  | some e => if e.untimed then entries else entries.dropLast

theorem closedEntries_append (xs : List LogLine) {ys : List LogLine} (h : ys ≠ []) :
    closedEntries (xs ++ ys) = xs ++ closedEntries ys := by
  have hlast : (xs ++ ys).getLast? = ys.getLast? := getLast?_append_of_ne_nil xs h
  rw [closedEntries, closedEntries, hlast]
  cases hys : ys.getLast? with
  | none => exact absurd (getLast?_eq_none_iff.mp hys) h
  | some e =>
      dsimp only
      split
      · rfl
      · exact dropLast_append_of_ne_nil h

theorem closedEntries_raw {e : LogLine} (entries : List LogLine) (h : e.timestamp = "") :
    closedEntries (e :: entries) = e :: closedEntries entries := by
  cases entries with
  | nil =>
      have hu : e.untimed = true := decide_eq_true h
      simp [closedEntries, hu]
  | cons d entries => exact closedEntries_append [e] (cons_ne_nil d entries)

theorem closedEntries_opened {current : Option LogLine} (h : ∀ c ∈ current, c.timestamp ≠ "") :
    closedEntries current.toList = [] := by
  cases current with
  | none => rfl
  | some c =>
      have hu : c.untimed = false := decide_eq_false (h c rfl)
      simp [closedEntries, hu]

theorem closedEntries_sublist (entries : List LogLine) : closedEntries entries <+ entries := by
  rw [closedEntries]
  split
  · exact nil_sublist _
  · split
    · exact Sublist.refl _
    · exact dropLast_sublist _

section Runtime

variable (rt : Runtime) (params : SearchParams)

def closedMatches (fileName : String) (lines : List String) : List LogLine :=
  (closedEntries (groupEntries (parsedLines rt fileName lines))).filter (matchFilters rt · params)

theorem closedMatches_length_le (fileName : String) (lines : List String) :
    (closedMatches rt params fileName lines).length ≤
      (fileMatches rt params fileName lines).length :=
  ((closedEntries_sublist _).filter _).length_le

/-- What a scan will have found before it closes its last entry. -/
def Scanning.closed (st : Scanning) (fileName : String) (rest : List String) : List LogLine :=
  st.lines ++ (closedEntries (pendingEntries st.current
    (parsedAhead rt fileName st.parser (numberedLines st.lineNo rest)))).filter
      (matchFilters rt · params)

theorem pendingEntries_some_ne_nil (c : LogLine) (ahead : List LogLine) :
    pendingEntries (some c) ahead ≠ [] := cons_ne_nil _ _

theorem closed_next {st : Scanning} (hopen : st.Opened) (fileName line : String)
    (rest : List String) :
    st.closed rt params fileName (line :: rest) =
      (st.next rt params fileName line).closed rt params fileName rest := by
  obtain ⟨closed, hpending, hlines, hclosed⟩ := next_spec rt params hopen fileName line rest
  generalize st.next rt params fileName line = next at hpending hlines hclosed ⊢
  have hentries : closedEntries (st.pending rt fileName (line :: rest)) =
      closed.toList ++ closedEntries (next.pending rt fileName rest) := by
    rw [hpending]
    cases closed with
    | none => rw [Option.toList_none, nil_append, nil_append]
    | some e =>
        rw [Option.toList_some]
        cases hclosed e rfl with
        | timed _ hmore =>
            obtain ⟨c, hc⟩ := Option.isSome_iff_exists.mp hmore
            rw [Scanning.pending, hc, closedEntries_append _ (pendingEntries_some_ne_nil c _)]
        | raw hraw => rw [singleton_append, singleton_append, closedEntries_raw _ hraw]
  show st.lines ++ (closedEntries (st.pending rt fileName (line :: rest))).filter _ = _
  rw [hentries, filter_append, ← append_assoc, ← hlines]
  rfl

/-- What a scan finds does not depend on how the scanner ends. -/
theorem scanLoop_found (fileName : String) (limit : Nat) (failed : Bool) (rest : List String)
    (st : Scanning) (hlines : st.lines.length < limit) :
    scanLoop rt params fileName limit failed rest st =
      { scanLoop rt params fileName limit false rest st with
        failed := (scanLoop rt params fileName limit failed rest st).failed } := by
  induction rest generalizing st with
  | nil =>
      rw [scanLoop, scanLoop]
      split <;> rfl
  | cons line rest ih =>
      rw [scanLoop_cons rt params hlines, scanLoop_cons rt params hlines]
      dsimp only
      split
      next => rfl
      next hfew => exact ih _ (not_le.mp hfew)

theorem scanLoop_failed (fileName : String) (limit : Nat) (rest : List String) (st : Scanning)
    (hopen : st.Opened) (hlines : st.lines.length < limit) :
    (scanLoop rt params fileName limit true rest st).failed =
      decide ((st.closed rt params fileName rest).length < limit) := by
  induction rest generalizing st with
  | nil =>
      have hclosed : st.closed rt params fileName [] = st.lines := by
        show st.lines ++ (closedEntries (st.pending rt fileName [])).filter _ = _
        rw [pending_nil, closedEntries_opened hopen, filter_nil, append_nil]
      rw [scanLoop, hclosed, decide_eq_true hlines]
      split <;> rfl
  | cons line rest ih =>
      rw [scanLoop_cons rt params hlines, closed_next rt params hopen]
      dsimp only
      split
      next hfull =>
        rw [Scanning.closed, length_append, decide_eq_false (by omega)]
      next hfew => exact ih _ (hopen.next rt params fileName line) (not_le.mp hfew)

/-! ## Files that fail -/

/-- A file that opens and whose scan ends in an error. -/
def Reader.Breaks (r : Reader) (f : LogFile) : Prop :=
  ∃ stored, r.fs.openFile f.fullPath = some stored ∧
    (scanLines stored.text stored.broken).failed = true

variable {r : Reader}

/-- What a search of a file that can be read to the limit gives. -/
def Reader.fileResult (r : Reader) (f : LogFile) (limit : Nat) : List LogLine × Bool :=
  ((fileMatches rt params f.name (r.fileLines f)).take limit,
    announcesMore limit (r.fileLines f).length (fileMatches rt params f.name (r.fileLines f)))

theorem searchFile_breaks {f : LogFile} (breaks : r.Breaks f) (limit : Nat) (hpos : 0 < limit) :
    r.searchFile rt params f limit =
      if (closedMatches rt params f.name (r.fileLines f)).length < limit then none
      else some (r.fileResult rt params f limit) := by
  obtain ⟨stored, hopen, hscan⟩ := breaks
  have hlines : r.fileLines f = (scanLines stored.text stored.broken).lines := by
    rw [Reader.fileLines, hopen]
  have hstart : Scanning.Opened {} := fun c hc => by cases hc
  have hfailed := scanLoop_failed rt params f.name limit (r.fileLines f) {} hstart hpos
  have hclosed : Scanning.closed rt params {} f.name (r.fileLines f) =
      closedMatches rt params f.name (r.fileLines f) := by
    rw [closedMatches, parsedLines_eq]
    rfl
  have htotal : Scanning.total rt params {} f.name (r.fileLines f) =
      fileMatches rt params f.name (r.fileLines f) := by
    rw [fileMatches, parsedLines_eq]
    rfl
  have hfound := scanLoop_found rt params f.name limit true (r.fileLines f) {} hpos
  rw [scanLoop_spec rt params f.name limit (r.fileLines f) {} hstart hpos, htotal, hfailed,
    hclosed] at hfound
  have hzero : Scanning.lineNo {} = 0 := rfl
  rw [Reader.searchFile, hopen]
  dsimp only
  rw [hscan, ← hlines, hfound]
  dsimp only
  rw [hzero, Nat.zero_add]
  simp only [decide_eq_true_eq]
  rfl

theorem readable_or_breaks (r : Reader) (f : LogFile) :
    r.Readable f ∨ r.Breaks f ∨ r.fs.openFile f.fullPath = none := by
  cases hopen : r.fs.openFile f.fullPath with
  | none => exact Or.inr (Or.inr rfl)
  | some stored =>
      cases hscan : (scanLines stored.text stored.broken).failed with
      | false => exact Or.inl ⟨stored, hopen, hscan⟩
      | true => exact Or.inr (Or.inl ⟨stored, hopen, hscan⟩)

theorem fileMatches_unopened {f : LogFile} (h : r.fs.openFile f.fullPath = none) :
    fileMatches rt params f.name (r.fileLines f) = [] := by
  rw [Reader.fileLines, h]
  rfl

theorem not_readable_of_breaks {f : LogFile} (breaks : r.Breaks f) : ¬ r.Readable f := by
  obtain ⟨stored, hopen, hscan⟩ := breaks
  rintro ⟨stored', hopen', hscan'⟩
  rw [hopen] at hopen'
  rw [Option.some.inj hopen', hscan'] at hscan
  cases hscan

theorem not_readable_of_unopened {f : LogFile} (h : r.fs.openFile f.fullPath = none) :
    ¬ r.Readable f := by
  rintro ⟨stored, hopen, _⟩
  rw [h] at hopen
  cases hopen

/-- A search of a file gives its matches when the file can be read, or when its complete entries
reach the limit. -/
def Reader.Holds (r : Reader) (f : LogFile) (limit : Nat) : Prop :=
  r.Readable f ∨ limit ≤ (closedMatches rt params f.name (r.fileLines f)).length

theorem searchFile_held {f : LogFile} {limit : Nat} (hpos : 0 < limit)
    (held : r.Holds rt params f limit) :
    r.searchFile rt params f limit = some (r.fileResult rt params f limit) := by
  rcases readable_or_breaks r f with readable | breaks | hunopened
  · exact searchFile_spec rt params readable limit hpos
  · have hreached := held.resolve_left (not_readable_of_breaks breaks)
    rw [searchFile_breaks rt params breaks limit hpos, if_neg (not_lt.mpr hreached)]
  · have hreached := held.resolve_left (not_readable_of_unopened hunopened)
    have hle := closedMatches_length_le rt params f.name (r.fileLines f)
    rw [fileMatches_unopened rt params hunopened, length_nil] at hle
    omega

theorem searchFile_skipped {f : LogFile} {limit : Nat} (hpos : 0 < limit)
    (hskipped : ¬ r.Holds rt params f limit) : r.searchFile rt params f limit = none := by
  rw [Reader.Holds, not_or, not_le] at hskipped
  obtain ⟨hunreadable, hfew⟩ := hskipped
  rcases readable_or_breaks r f with readable | breaks | hunopened
  · exact absurd readable hunreadable
  · rw [searchFile_breaks rt params breaks limit hpos, if_pos hfew]
  · rw [Reader.searchFile, hunopened]

/-! ## The search over the files -/

def linesOf (lines : List LogLine) (name : String) : Nat := lines.countP (·.file = name)

/-- How many matching entries the readable files of a list have. -/
def Reader.readableMatches (r : Reader) (files : List LogFile) : Nat :=
  (r.filesMatches rt params (files.filter fun f => r.Readable f)).length

theorem linesOf_append (xs ys : List LogLine) (name : String) :
    linesOf (xs ++ ys) name = linesOf xs name + linesOf ys name := countP_append

theorem linesOf_fileMatches (fileName : String) (lines : List String) :
    linesOf (fileMatches rt params fileName lines) fileName =
      (fileMatches rt params fileName lines).length :=
  countP_eq_length.mpr fun e he =>
    decide_eq_true ((fileMatches_positions rt params fileName lines).2 e he)

theorem linesOf_other {fileName name : String} (h : fileName ≠ name) (lines : List String)
    (limit : Nat) : linesOf ((fileMatches rt params fileName lines).take limit) name = 0 :=
  countP_eq_zero.mpr fun e he => by
    rw [(fileMatches_positions rt params fileName lines).2 e (mem_of_mem_take he),
      decide_eq_true_eq]
    exact h

theorem searchFile_take (f : LogFile) {limit : Nat} (hpos : 0 < limit)
    {found : List LogLine} {more : Bool} (h : r.searchFile rt params f limit = some (found, more)) :
    found = (fileMatches rt params f.name (r.fileLines f)).take limit := by
  by_cases held : r.Holds rt params f limit
  · rw [searchFile_held rt params hpos held] at h
    exact (congrArg Prod.fst (Option.some.inj h)).symm
  · rw [searchFile_skipped rt params hpos held] at h
    cases h

theorem searchFiles_other {limit : Nat} {name : String} (files : List LogFile)
    (hother : ∀ f ∈ files, f.name ≠ name) (lines : List LogLine) (hasMore : Bool) :
    linesOf (r.searchFiles rt params limit files lines hasMore).1 name = linesOf lines name := by
  induction files generalizing lines hasMore with
  | nil => rfl
  | cons f files ih =>
      have ih := ih fun g hg => hother g (mem_cons_of_mem f hg)
      rw [Reader.searchFiles]
      split
      next => rfl
      next hfew =>
        cases hfile : r.searchFile rt params f (limit - lines.length) with
        | none => exact ih lines hasMore
        | some result =>
            have hfound := searchFile_take rt params f (by omega) hfile
            dsimp only
            rw [ih, linesOf_append, hfound, linesOf_other rt params (hother f mem_cons_self),
              Nat.add_zero]

theorem filesMatches_cons (f : LogFile) (files : List LogFile) :
    (r.filesMatches rt params (f :: files)).length =
      (fileMatches rt params f.name (r.fileLines f)).length +
        (r.filesMatches rt params files).length := by
  simp only [Reader.filesMatches, flatMap_cons, length_append]

theorem readableMatches_cons_readable {f : LogFile} (readable : r.Readable f)
    (files : List LogFile) :
    r.readableMatches rt params (f :: files) =
      (fileMatches rt params f.name (r.fileLines f)).length +
        r.readableMatches rt params files := by
  rw [Reader.readableMatches, filter_cons, if_pos (decide_eq_true readable), filesMatches_cons]
  rfl

theorem readableMatches_cons_unreadable {f : LogFile} (h : ¬ r.Readable f)
    (files : List LogFile) :
    r.readableMatches rt params (f :: files) = r.readableMatches rt params files := by
  rw [Reader.readableMatches, filter_cons, if_neg (by simpa using h)]
  rfl

theorem searchFiles_cons_none {limit : Nat} {f : LogFile} {lines : List LogLine}
    (hfew : lines.length < limit)
    (hnone : r.searchFile rt params f (limit - lines.length) = none) (files : List LogFile)
    (hasMore : Bool) :
    r.searchFiles rt params limit (f :: files) lines hasMore =
      r.searchFiles rt params limit files lines hasMore := by
  rw [Reader.searchFiles, if_neg (not_le.mpr hfew), hnone]

theorem searchFiles_cons_some {limit : Nat} {f : LogFile} {lines : List LogLine}
    (hfew : lines.length < limit) {found : List LogLine} {more : Bool}
    (hsome : r.searchFile rt params f (limit - lines.length) = some (found, more))
    (files : List LogFile) (hasMore : Bool) :
    r.searchFiles rt params limit (f :: files) lines hasMore =
      r.searchFiles rt params limit files (lines ++ found) (hasMore || more) := by
  rw [Reader.searchFiles, if_neg (not_le.mpr hfew), hsome]

section BrokenFile

variable {f : LogFile} {before after : List LogFile} (breaks : r.Breaks f)
  (hbefore : ∀ g ∈ before, g.name ≠ f.name) (hafter : ∀ g ∈ after, g.name ≠ f.name)
include breaks hbefore hafter

/-- With a limit that holds all matches, a file that breaks gives all its entries when the limit
is reached at its last complete one, and none otherwise. -/
theorem searchFiles_broken {limit : Nat} (lines : List LogLine) (hasMore : Bool)
    (hlimit : lines.length + (r.filesMatches rt params (before ++ f :: after)).length ≤ limit) :
    linesOf (r.searchFiles rt params limit (before ++ f :: after) lines hasMore).1 f.name =
      linesOf lines f.name +
        if limit ≤ lines.length + r.readableMatches rt params before +
          (closedMatches rt params f.name (r.fileLines f)).length
        then (fileMatches rt params f.name (r.fileLines f)).length else 0 := by
  induction before generalizing lines hasMore with
  | nil =>
      rw [nil_append, filesMatches_cons] at hlimit
      have hzero : r.readableMatches rt params [] = 0 := rfl
      rw [nil_append, hzero, Nat.add_zero]
      rcases Nat.lt_or_ge lines.length limit with hfew | hfull
      · have hpos := Nat.sub_pos_of_lt hfew
        by_cases hreached : limit - lines.length ≤
          (closedMatches rt params f.name (r.fileLines f)).length
        · have hsome := searchFile_held rt params hpos (Or.inr hreached)
          rw [Reader.fileResult, take_of_length_le (by omega)] at hsome
          rw [searchFiles_cons_some rt params hfew hsome, if_pos (by omega),
            searchFiles_other rt params after hafter, linesOf_append, linesOf_fileMatches]
        · have hnone := searchFile_skipped rt params hpos
            (not_or.mpr ⟨not_readable_of_breaks breaks, hreached⟩)
          rw [searchFiles_cons_none rt params hfew hnone, if_neg (by omega), Nat.add_zero]
          exact searchFiles_other rt params after hafter lines hasMore
      · rw [searchFiles_full rt params hfull, if_pos (by omega)]
        dsimp only
        omega
  | cons g before ih =>
      have ih := ih (fun d hd => hbefore d (mem_cons_of_mem g hd))
      have hname : g.name ≠ f.name := hbefore g mem_cons_self
      rw [cons_append, filesMatches_cons] at hlimit
      have hmatches : (fileMatches rt params f.name (r.fileLines f)).length ≤
          (r.filesMatches rt params (before ++ f :: after)).length := by
        simp only [Reader.filesMatches, flatMap_append, flatMap_cons, length_append]
        omega
      have hclosed := closedMatches_length_le rt params g.name (r.fileLines g)
      rw [cons_append]
      rcases Nat.lt_or_ge lines.length limit with hfew | hfull
      · have hpos := Nat.sub_pos_of_lt hfew
        have hnew : linesOf (lines ++ fileMatches rt params g.name (r.fileLines g)) f.name =
            linesOf lines f.name := by
          have hother := linesOf_other rt params hname (r.fileLines g)
            (fileMatches rt params g.name (r.fileLines g)).length
          rw [take_length] at hother
          rw [linesOf_append, hother, Nat.add_zero]
        by_cases held : r.Holds rt params g (limit - lines.length)
        · have hsome := searchFile_held rt params hpos held
          rw [Reader.fileResult, take_of_length_le (by omega)] at hsome
          rw [searchFiles_cons_some rt params hfew hsome, ih _ _ (by rw [length_append]; omega),
            hnew]
          by_cases readable : r.Readable g
          · rw [readableMatches_cons_readable rt params readable, length_append,
              Nat.add_assoc lines.length]
          · -- `g` reached the limit at its last complete entry: nothing is left to find
            have hreached := held.resolve_left readable
            have hnothing : (fileMatches rt params f.name (r.fileLines f)).length = 0 := by omega
            rw [hnothing, ite_self, ite_self]
        · rw [searchFiles_cons_none rt params hfew (searchFile_skipped rt params hpos held),
            ih _ _ (by omega), readableMatches_cons_unreadable rt params (mt Or.inl held)]
      · have hnothing : (fileMatches rt params f.name (r.fileLines f)).length = 0 := by omega
        rw [searchFiles_full rt params hfull, hnothing, ite_self]
        rfl

end BrokenFile

/-- The files whose entries a search with `found` lines can hold: a file that breaks is one when its
complete entries reach the limit. -/
def Reader.heldFiles (r : Reader) (limit : Nat) : List LogFile → Nat → List LogFile
  | [], _ => []
  | f :: files, found =>
      if r.Readable f ∨ limit ≤ found + (closedMatches rt params f.name (r.fileLines f)).length then
        f :: r.heldFiles limit files (found + (fileMatches rt params f.name (r.fileLines f)).length)
      else r.heldFiles limit files found

theorem heldFiles_readable {files : List LogFile} (h : ∀ f ∈ files, r.Readable f)
    (limit found : Nat) : r.heldFiles rt params limit files found = files := by
  induction files generalizing found with
  | nil => rfl
  | cons f files ih =>
      rw [Reader.heldFiles, if_pos (Or.inl (h f mem_cons_self)),
        ih fun g hg => h g (mem_cons_of_mem f hg)]

theorem heldFiles_full {limit found : Nat} (h : limit ≤ found) (files : List LogFile) :
    r.heldFiles rt params limit files found = files := by
  induction files generalizing found with
  | nil => rfl
  | cons f files ih =>
      rw [Reader.heldFiles, if_pos (Or.inr (Nat.le_add_right_of_le h)),
        ih (Nat.le_add_right_of_le h)]

/-- A search returns the beginning of the matches of the files it can hold, and announces more as
a search over these files does. -/
theorem searchFiles_held {limit : Nat} (files : List LogFile) {lines : List LogLine}
    (hlines : lines.length < limit) (hasMore : Bool) :
    r.searchFiles rt params limit files lines hasMore =
      ((lines ++ r.filesMatches rt params
          (r.heldFiles rt params limit files lines.length)).take limit,
        hasMore || r.announces rt params (limit - lines.length)
          (r.heldFiles rt params limit files lines.length)) := by
  induction files generalizing lines hasMore with
  | nil => exact searchFiles_spec rt params (fun f hf => by cases hf) hlines hasMore
  | cons f files ih =>
      have hpos := Nat.sub_pos_of_lt hlines
      by_cases held : r.Holds rt params f (limit - lines.length)
      · rw [searchFiles_cons_some rt params hlines (searchFile_held rt params hpos held),
          Reader.heldFiles, if_pos (held.imp_right Nat.sub_le_iff_le_add'.mp)]
        rcases Nat.lt_or_ge (fileMatches rt params f.name (r.fileLines f)).length
          (limit - lines.length) with hroom | hfull
        · have hmore : announcesMore (limit - lines.length) (r.fileLines f).length
              (fileMatches rt params f.name (r.fileLines f)) = false := by
            rw [announcesMore, decide_eq_false (not_le.mpr hroom), Bool.false_and]
          rw [take_of_length_le hroom.le, hmore, Bool.or_false,
            ih (by rw [length_append]; omega), announces_cons_few rt params hroom, length_append,
            Nat.sub_add_eq, append_assoc]
          rfl
        · have hcut : limit ≤
              (lines ++ (fileMatches rt params f.name (r.fileLines f)).take
                (limit - lines.length)).length := by
            rw [length_append, length_take]
            omega
          rw [searchFiles_full rt params hcut, heldFiles_full rt params (by omega),
            announces_cons_full rt params hfull, Bool.or_assoc, Reader.filesMatches, flatMap_cons,
            ← append_assoc, take_append_of_le_length (by rw [length_append]; omega), take_append,
            take_of_length_le hlines.le]
      · rw [searchFiles_cons_none rt params hlines (searchFile_skipped rt params hpos held),
          Reader.heldFiles, if_neg fun h => held (h.imp_right Nat.sub_le_iff_le_add'.mpr)]
        exact ih hlines hasMore

theorem matchAfter_antitone {c c' : String} (h : c ≤ c') {e : LogLine}
    (hmatch : matchAfter e { params with after := c' } = true) :
    matchAfter e { params with after := c } = true := by
  simp only [matchAfter, Bool.or_eq_true, decide_eq_true_eq] at hmatch ⊢
  rcases hmatch with (rfl | hraw) | hlater
  · exact Or.inl (Or.inl (le_bot_iff.mp h))
  · exact Or.inl (Or.inr hraw)
  · exact Or.inr (lt_of_le_of_lt h hlater)

theorem kept_of_matchFilters {c : String} {e : LogLine}
    (h : matchFilters rt e { params with after := c } = true) :
    e.timestamp = "" ∨ c < e.timestamp := by
  rw [matchFilters_after, Bool.and_eq_true] at h
  have hafter := h.2
  simp only [matchAfter, Bool.or_eq_true, decide_eq_true_eq] at hafter
  rcases hafter with (rfl | hraw) | hlater
  · rcases eq_or_ne e.timestamp "" with hraw | hne
    · exact Or.inl hraw
    · exact Or.inr (bot_lt_iff_ne_bot.mpr hne)
  · exact Or.inl hraw
  · exact Or.inr hlater

theorem filter_after_sublist {c c' : String} (h : c ≤ c') (entries : List LogLine) :
    entries.filter (matchFilters rt · { params with after := c' }) <+
      entries.filter (matchFilters rt · { params with after := c }) := by
  refine monotone_filter_right entries fun e he => ?_
  rw [matchFilters_after, Bool.and_eq_true] at he ⊢
  exact ⟨he.1, matchAfter_antitone params h he.2⟩

/-- With fewer entries found and a later cursor a search holds no more. -/
theorem heldMatches_antitone {c c' : String} (h : c ≤ c') (limit : Nat) (files : List LogFile)
    {found found' : Nat} (hfound : found' ≤ found) :
    r.filesMatches rt { params with after := c' }
        (r.heldFiles rt { params with after := c' } limit files found') <+
      r.filesMatches rt { params with after := c }
        (r.heldFiles rt { params with after := c } limit files found) := by
  induction files generalizing found found' with
  | nil => exact Sublist.refl _
  | cons f files ih =>
      have hmatches : fileMatches rt { params with after := c' } f.name (r.fileLines f) <+
          fileMatches rt { params with after := c } f.name (r.fileLines f) :=
        filter_after_sublist rt params h _
      have hclosed : (closedMatches rt { params with after := c' } f.name
          (r.fileLines f)).length ≤
            (closedMatches rt { params with after := c } f.name (r.fileLines f)).length :=
        (filter_after_sublist rt params h _).length_le
      rw [Reader.heldFiles, Reader.heldFiles]
      by_cases held' : r.Readable f ∨ limit ≤ found' +
          (closedMatches rt { params with after := c' } f.name (r.fileLines f)).length
      · have held := held'.imp_right fun hle => hle.trans (Nat.add_le_add hfound hclosed)
        rw [if_pos held', if_pos held, Reader.filesMatches, Reader.filesMatches, flatMap_cons,
          flatMap_cons]
        exact hmatches.append (ih (Nat.add_le_add hfound hmatches.length_le))
      · rw [if_neg held']
        split
        · rw [Reader.filesMatches, Reader.filesMatches, flatMap_cons]
          exact (ih (Nat.le_add_right_of_le hfound)).trans (sublist_append_right _ _)
        · exact ih hfound

theorem heldFiles_sublist (limit : Nat) (files : List LogFile) (found : Nat) :
    r.heldFiles rt params limit files found <+ files := by
  induction files generalizing found with
  | nil => exact Sublist.refl _
  | cons f files ih =>
      rw [Reader.heldFiles]
      split
      · exact (ih _).cons_cons f
      · exact (ih _).cons f

/-! ## Against the count -/

theorem totalLines_countFile (stats : LogStats) (f : LogFile)
    (hlevel : params.level = "") (hkeyword : params.keyword = "") (hafter : params.after = "") :
    (r.countFile rt (bounds params.app params.fromDate params.toDate params.fromTime params.toTime)
        stats f).totalLines =
      stats.totalLines + (fileMatches rt params f.name (r.fileLines f)).length := by
  rw [countFile_spec, foldl_tally_count LogStats.totalLines _ totalLines_tally, fileMatches,
    ← countP_eq_length_filter, Nat.add_left_cancel_iff]
  refine countP_congr fun e _ => ?_
  rw [inBounds_congr params]
  · simp [matchFilters, matchLevel, matchKeyword, matchAfter, hlevel, hkeyword, hafter, InBounds]
  all_goals rfl

/-- A search without filters and with a sufficient limit agrees with the count on a file that
breaks exactly when nothing was read in the file, or the limit is reached by the entries of the
readable files before it and its own complete ones. -/
theorem search_agrees_with_count_iff (r : Reader) (nodeName : String) (stats : LogStats)
    (hlevel : params.level = "") (hkeyword : params.keyword = "") (hafter : params.after = "")
    {f : LogFile} {before after : List LogFile}
    (hfiles : r.listFiles params.app params.fromDate params.toDate = before ++ f :: after)
    (breaks : r.Breaks f) (hlimit : (r.matchList rt params).length ≤ searchLimit params) :
    stats.totalLines + linesOf (r.search rt params nodeName).lines f.name =
        (r.countFile rt
          (bounds params.app params.fromDate params.toDate params.fromTime params.toTime)
          stats f).totalLines ↔
      fileMatches rt params f.name (r.fileLines f) = [] ∨
        searchLimit params ≤ r.readableMatches rt params before +
          (closedMatches rt params f.name (r.fileLines f)).length := by
  have hnames := listFiles_nodup r params.app params.fromDate params.toDate
  rw [hfiles, map_append, map_cons, nodup_append, nodup_cons] at hnames
  obtain ⟨_, ⟨hafter', _⟩, hdisjoint⟩ := hnames
  have hbefore : ∀ g ∈ before, g.name ≠ f.name := fun g hg =>
    hdisjoint _ (mem_map_of_mem hg) _ mem_cons_self
  have hother : ∀ g ∈ after, g.name ≠ f.name := fun g hg heq =>
    hafter' (heq ▸ mem_map_of_mem hg)
  have hall : ([] : List LogLine).length +
      (r.filesMatches rt params (before ++ f :: after)).length ≤ searchLimit params := by
    rw [length_nil, Nat.zero_add, ← hfiles]
    exact hlimit
  have hsearch := searchFiles_broken rt params breaks hbefore hother [] false hall
  rw [length_nil, Nat.zero_add] at hsearch
  have hlines : linesOf (r.search rt params nodeName).lines f.name =
      if searchLimit params ≤ r.readableMatches rt params before +
        (closedMatches rt params f.name (r.fileLines f)).length
      then (fileMatches rt params f.name (r.fileLines f)).length else 0 := by
    rw [Reader.search, hfiles]
    dsimp only
    rw [hsearch]
    exact Nat.zero_add _
  rw [hlines, totalLines_countFile rt params stats f hlevel hkeyword hafter,
    ← length_eq_zero_iff]
  split <;> omega

end Runtime

/-- An app with one compressed file whose tail is corrupt: one line can be read. -/
def brokenReader : Reader where
  baseDir := "/opt/logs"
  fs :=
    { readDir := fun dir =>
        if dir = "/opt/logs/app" then
          some [⟨"app.2024-01-15.log.gz", false, some ⟨"2024-01-16", 90⟩⟩]
        else none
      openFile := fun path =>
        if path = "/opt/logs/app/app.2024-01-15.log.gz" then some ⟨"ready\n", true⟩ else none }

def brokenFile : LogFile where
  name := "app.2024-01-15.log.gz"
  date := "2024-01-15"
  size := 90
  compressed := true
  fullPath := "/opt/logs/app/app.2024-01-15.log.gz"

theorem brokenFile_breaks : brokenReader.Breaks brokenFile := ⟨⟨"ready\n", true⟩, rfl, rfl⟩

theorem brokenReader_found :
    brokenReader.listFiles "app" "" "" = [brokenFile] ∧
      linesOf (brokenReader.search Runtime.ascii { app := "app", limit := 100 } "node-1").lines
        brokenFile.name = 0 ∧
      (brokenReader.countFile Runtime.ascii (bounds "app" "" "" "" "")
        { node := "node-1", fileCount := 1 } brokenFile).totalLines = 1 ∧
      (brokenReader.matchList Runtime.ascii { app := "app", limit := 1 }).length ≤ 1 ∧
      1 ≤ brokenReader.readableMatches Runtime.ascii { app := "app", limit := 1 } [] +
        (closedMatches Runtime.ascii { app := "app", limit := 1 } brokenFile.name
          (brokenReader.fileLines brokenFile)).length := by
  decide

/-- The search returns nothing of a file of which the count counts a line. -/
theorem search_drops_read_sample :
    let params : SearchParams := { app := "app", limit := 100 }
    let stats : LogStats := { node := "node-1", fileCount := 1 }
    brokenReader.listFiles params.app params.fromDate params.toDate = [brokenFile] ∧
      brokenReader.Breaks brokenFile ∧
      linesOf (brokenReader.search Runtime.ascii params "node-1").lines brokenFile.name = 0 ∧
      (brokenReader.countFile Runtime.ascii (bounds "app" "" "" "" "") stats
        brokenFile).totalLines = 1 :=
  ⟨brokenReader_found.1, brokenFile_breaks, brokenReader_found.2.1, brokenReader_found.2.2.1⟩

/-- A limit of one line is reached before the error. -/
theorem search_agrees_with_count_iff_sample :
    let params : SearchParams := { app := "app", limit := 1 }
    let stats : LogStats := { node := "node-1", fileCount := 1 }
    stats.totalLines +
        linesOf (brokenReader.search Runtime.ascii params "node-1").lines brokenFile.name =
      (brokenReader.countFile Runtime.ascii (bounds "app" "" "" "" "") stats
        brokenFile).totalLines := by
  obtain ⟨hfiles, _, _, hlimit, hclosed⟩ := brokenReader_found
  have hlisted : brokenReader.listFiles "app" "" "" = [] ++ brokenFile :: [] := hfiles
  exact (search_agrees_with_count_iff Runtime.ascii { app := "app", limit := 1 } brokenReader
    "node-1" { node := "node-1", fileCount := 1 } rfl rfl rfl hlisted
    brokenFile_breaks hlimit).mpr (Or.inr hclosed)

end NestGateway.LogReader
