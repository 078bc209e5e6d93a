import NestGateway.LogReader.MatchList
import NestGateway.Logger.EcsFormat

/-! # The log lines are read back

The log-streamer reads the files that the services write. The two sides agree
on the keys of a line: what the format writes under a key of its own, the parser
takes as timestamp, level, source or message or leaves out, and everything else
it keeps as metadata.
-/

namespace NestGateway.Logger

open Text GoJson LogReader
open JsString (truthy getD_truthy)

def metadataFields (now : Moment) (info : Info) : List (String × Json) :=
  [("event.created_kst", .str (getKoreaIsoTimestamp now)),
    ("event.timezone", .str koreaTimeZone)] ++
    textField "error.stack_trace" info.trace ++ definedEntries info

/-- The line of a record is a JSON line, and its fields come back. -/
structure ReadBack (rt : Runtime) (now : Moment) (info : Info) (line : String) : Prop where
  single : '\n' ∉ line.toList
  parser : detectParser line = .json
  timestamp : (parseJSON rt line).timestamp = now.toISOString
  level : (parseJSON rt line).level = toUpper rt info.level
  source : (parseJSON rt line).source = info.context.getD ""
  message : (parseJSON rt line).message = info.message
  metadata : ∃ members, (parseJSON rt line).metadata = marshal (.obj members) ∧
    members.Perm (metadataFields now info)

/-- The other entries take no key with a role of its own on either side or in the language. -/
def Disjoint (info : Info) : Prop :=
  ∀ key ∈ info.rest.keys,
    key ∉ jsonStandardKeys ∧ key ∉ internalKeys ∧ key ∉ ecsKeys ∧ key ≠ "__proto__"

/-- The defined entries are values of JavaScript. -/
def ValuesWellFormed (info : Info) : Prop := ∀ field ∈ definedEntries info, WellFormed field.2

/-- `json.Unmarshal` inverts `JSON.stringify` at the object of a line. -/
def Inverse (rt : Runtime) (process : Process) (now : Moment) (info : Info) : Prop :=
  unmarshalMap rt (ecsJsonFormat process now info) = some (ecsObject process now info)

theorem Disjoint.apart {info : Info} (disjoint : Disjoint info) : Apart info :=
  fun key hkey => (disjoint key hkey).2

/-! ### Its text -/

theorem forall_ecsFields {P : Json → Prop} {process : Process} {now : Moment} {info : Info}
    (apart : Apart info) (hstr : ∀ s, P (.str s)) (hpid : P (.num (Nat.repr process.pid)))
    (hdefined : ∀ field ∈ definedEntries info, P field.2) :
    ∀ field ∈ ecsFields process now info, P field.2 := by
  have htext : ∀ key text, ∀ field ∈ textField key text, P field.2 := by
    intro key text field hfield
    rw [textField] at hfield
    split at hfield
    · cases hfield
    · rw [List.mem_singleton.mp hfield]
      exact hstr _
  intro field hfield
  rw [ecsFields_eq apart, ownFields] at hfield
  rcases List.mem_append.mp hfield with hfield | hfield
  · rcases List.mem_append.mp hfield with hfield | hfield
    · rcases List.mem_append.mp hfield with hfield | hfield
      · simp only [fixedFields, List.mem_cons, List.not_mem_nil, or_false] at hfield
        rcases hfield with rfl | rfl | rfl | rfl | rfl | rfl | rfl | rfl
        all_goals first
          | exact hstr _
          | exact hpid
      · exact htext _ _ field hfield
    · exact htext _ _ field hfield
  · exact hdefined field hfield

theorem nodup_ecsObject {info : Info} (apart : Apart info) (process : Process) (now : Moment) :
    ((ecsObject process now info).map Prod.fst).Nodup :=
  ((propertyOrder_perm _).map Prod.fst).nodup_iff.mpr (nodup_ecsFields apart process now)

theorem mem_ecsObject {process : Process} {now : Moment} {info : Info} {field : String × Json} :
    field ∈ ecsObject process now info ↔ field ∈ ecsFields process now info :=
  (propertyOrder_perm _).mem_iff

theorem wellFormed_ecsObject {info : Info} (apart : Apart info) (values : ValuesWellFormed info)
    (process : Process) (now : Moment) : WellFormed (.obj (ecsObject process now info)) :=
  .obj (nodup_ecsObject apart process now) fun field hfield =>
    forall_ecsFields apart .str (.num (isNumber_repr _)) values field (mem_ecsObject.mp hfield)

/-- The object of a line is read back when its values are exchangeable. -/
theorem inverse_of_exchangeable {rt : Runtime} {process : Process} {now : Moment} {info : Info}
    (apart : Apart info)
    (hpid : rt.float64Text (Nat.repr process.pid) = some (Nat.repr process.pid))
    (values : ∀ field ∈ definedEntries info, Exchangeable rt 1 field.2) :
    Inverse rt process now info :=
  unmarshalMap_stringify (.obj (by decide) (nodup_ecsObject apart process now)
    fun field hfield => forall_ecsFields apart .str (.num (isNumber_repr _) hpid) values field
      (mem_ecsObject.mp hfield))

theorem toList_ecsJsonFormat (process : Process) (now : Moment) (info : Info) :
    (ecsJsonFormat process now info).toList = jsonText (.obj (ecsObject process now info)) := by
  rw [ecsJsonFormat, stringify, String.toList_ofList]

theorem braces_jsonText (ms : List (String × Json)) :
    ∃ inner, jsonText (.obj ms) = '{' :: (inner ++ ['}']) := by
  have hmore : ∀ ms : List (String × Json), ∃ inner, moreMembers ms = inner ++ ['}'] := by
    intro ms
    induction ms with
    | nil => exact ⟨[], rfl⟩
    | cons m ms ih =>
        obtain ⟨inner, hinner⟩ := ih
        refine ⟨',' :: (memberText m ++ inner), ?_⟩
        rw [moreMembers, hinner, List.cons_append, List.append_assoc]
  cases ms with
  | nil => exact ⟨[], rfl⟩
  | cons m ms =>
      obtain ⟨inner, hinner⟩ := hmore ms
      refine ⟨memberText m ++ inner, ?_⟩
      rw [jsonText, hinner, List.append_assoc]

theorem trimChars_braces (inner : List Char) :
    trimChars ('{' :: (inner ++ ['}'])) = '{' :: (inner ++ ['}']) := by
  have hleft : trimLeft ('{' :: (inner ++ ['}'])) = '{' :: (inner ++ ['}']) :=
    List.dropWhile_cons_of_neg (by decide)
  rw [trimChars, hleft, List.reverse_cons, List.reverse_append, List.reverse_singleton,
    List.singleton_append, List.cons_append, trimLeft, List.dropWhile_cons_of_neg (by decide)]
  simp

theorem trimSpace_line (process : Process) (now : Moment) (info : Info) :
    trimSpace (ecsJsonFormat process now info) = ecsJsonFormat process now info := by
  obtain ⟨inner, hinner⟩ := braces_jsonText (ecsObject process now info)
  rw [trimSpace, toList_ecsJsonFormat, hinner, trimChars_braces, ← hinner]
  rfl

theorem detectParser_line (process : Process) (now : Moment) (info : Info) :
    detectParser (ecsJsonFormat process now info) = .json := by
  obtain ⟨inner, hinner⟩ := braces_jsonText (ecsObject process now info)
  rw [detectParser, trimSpace_line, if_pos]
  rw [startsWith, toList_ecsJsonFormat, hinner]
  rfl

/-! ### Its fields -/

theorem lookup_of_mem {β : Type} {fields : List (String × β)} {key : String} {value : β}
    (hnodup : (fields.map Prod.fst).Nodup) (h : (key, value) ∈ fields) :
    fields.lookup key = some value := by
  exact JsMap.get_of_mem (m := ⟨fields, hnodup⟩) h

theorem lookup_of_not_mem {β : Type} {fields : List (String × β)} {key : String}
    (h : key ∉ fields.map Prod.fst) : fields.lookup key = none := by
  rw [List.lookup_eq_none_iff]
  rintro ⟨k, v⟩ hmem
  refine bne_iff_ne.mpr fun heq => h ?_
  rw [heq]
  exact List.mem_map_of_mem hmem

theorem firstStr_cons_str {data : List (String × Json)} {key : String} {s : String}
    (h : data.lookup key = some (.str s)) (keys : List String) :
    firstStr data (key :: keys) = s := by
  rw [firstStr, h]

theorem firstStr_absent {data : List (String × Json)} {keys : List String}
    (h : ∀ key ∈ keys, key ∉ data.map Prod.fst) : firstStr data keys = "" := by
  induction keys with
  | nil => rfl
  | cons key keys ih =>
      rw [firstStr, lookup_of_not_mem (h key List.mem_cons_self)]
      exact ih fun k hk => h k (List.mem_cons_of_mem _ hk)

theorem not_mem_of_standard {info : Info} (disjoint : Disjoint info) (process : Process)
    (now : Moment) {key : String} (hstandard : key ∈ jsonStandardKeys) (hecs : key ∉ ecsKeys) :
    key ∉ (ecsFields process now info).map Prod.fst := by
  rw [ecsFields_eq disjoint.apart, List.map_append, List.mem_append]
  rintro (h | h)
  · exact hecs (keys_ownFields h)
  · exact (disjoint key (mem_keys_definedEntries h)).1 hstandard

theorem not_mem_logger {info : Info} (disjoint : Disjoint info) (process : Process)
    (now : Moment) (hcontext : truthy info.context = none) :
    "log.logger" ∉ (ecsFields process now info).map Prod.fst := by
  rw [ecsFields_eq disjoint.apart, ownFields, List.map_append, List.map_append, List.map_append,
    keys_fixedFields]
  intro h
  rcases List.mem_append.mp h with h | h
  · rcases List.mem_append.mp h with h | h
    · rcases List.mem_append.mp h with h | h
      · exact absurd h (by decide)
      · rw [textField, hcontext] at h
        cases h
    · exact absurd (keys_textField h) (by decide)
  · exact (disjoint _ (mem_keys_definedEntries h)).1 (by decide)

theorem mem_fixed {info : Info} (disjoint : Disjoint info) {process : Process} {now : Moment}
    {field : String × Json} (h : field ∈ fixedFields process now info) :
    field ∈ ecsFields process now info := by
  rw [ecsFields_eq disjoint.apart, ownFields]
  exact List.mem_append_left _ (List.mem_append_left _ (List.mem_append_left _ h))

theorem filter_textField_logger (text : Option String) :
    (textField "log.logger" text).filter (fun field => !(field.1 ∈ jsonStandardKeys)) = [] := by
  rw [textField]
  split
  · rfl
  · simp [jsonStandardKeys]

theorem filter_textField_trace (text : Option String) :
    (textField "error.stack_trace" text).filter (fun field => !(field.1 ∈ jsonStandardKeys)) =
      textField "error.stack_trace" text := by
  rw [textField]
  split
  · rfl
  · simp [jsonStandardKeys]

theorem filter_ecsFields {info : Info} (disjoint : Disjoint info) (process : Process)
    (now : Moment) :
    (ecsFields process now info).filter (fun field => !(field.1 ∈ jsonStandardKeys)) =
      metadataFields now info := by
  have hdefined : (definedEntries info).filter (fun field => !(field.1 ∈ jsonStandardKeys)) =
      definedEntries info := by
    refine List.filter_eq_self.mpr fun field hfield => ?_
    have := (disjoint field.1 (mem_keys_definedEntries (List.mem_map_of_mem hfield))).1
    simpa using this
  rw [ecsFields_eq disjoint.apart, ownFields, List.filter_append, List.filter_append,
    List.filter_append, filter_textField_logger, filter_textField_trace, hdefined,
    List.append_nil]
  rfl

theorem firstStr_source {info : Info} (disjoint : Disjoint info) (process : Process)
    (now : Moment) :
    firstStr (ecsObject process now info) ["log.logger", "logger", "source", "name", "module"] =
      info.context.getD "" := by
  have hperm := propertyOrder_perm (ecsFields process now info)
  rw [← getD_truthy]
  cases hcontext : truthy info.context with
  | none =>
      have hroles : ∀ key ∈ ["logger", "source", "name", "module"],
          key ∈ jsonStandardKeys ∧ key ∉ ecsKeys := by decide
      refine firstStr_absent fun key hkey hmem => ?_
      have hmem := (hperm.map Prod.fst).mem_iff.mp hmem
      rcases List.mem_cons.mp hkey with rfl | hkey
      · exact not_mem_logger disjoint process now hcontext hmem
      · exact not_mem_of_standard disjoint process now (hroles key hkey).1 (hroles key hkey).2 hmem
  | some context =>
      have hnodup := nodup_ecsObject disjoint.apart process now
      refine firstStr_cons_str (lookup_of_mem hnodup (hperm.mem_iff.mpr ?_)) _
      rw [ecsFields_eq disjoint.apart, ownFields, textField, hcontext]
      simp

theorem readBack {rt : Runtime} {process : Process} {now : Moment} {info : Info}
    (disjoint : Disjoint info) (values : ValuesWellFormed info)
    (inverse : Inverse rt process now info) :
    ReadBack rt now info (ecsJsonFormat process now info) := by
  have hperm := propertyOrder_perm (ecsFields process now info)
  have hnodup := nodup_ecsObject disjoint.apart process now
  have hlookup : ∀ key value, (key, value) ∈ fixedFields process now info →
      (ecsObject process now info).lookup key = some value := fun key value h =>
    lookup_of_mem hnodup (hperm.mem_iff.mpr (mem_fixed disjoint h))
  rw [Inverse] at inverse
  refine ⟨?_, detectParser_line process now info, ?_, ?_, ?_, ?_, ?_⟩
  · rw [toList_ecsJsonFormat]
    exact not_mem_jsonText (wellFormed_ecsObject disjoint.apart values process now)
  · rw [parseJSON, inverse]
    exact firstStr_cons_str (hlookup _ _ (by simp [fixedFields])) _
  · rw [parseJSON, inverse]
    exact congrArg (toUpper rt) (firstStr_cons_str (hlookup _ _ (by simp [fixedFields])) _)
  · rw [parseJSON, inverse]
    exact firstStr_source disjoint process now
  · rw [parseJSON, inverse]
    exact firstStr_cons_str (hlookup _ _ (by simp [fixedFields])) _
  · have hextra := hperm.filter fun field => !(field.1 ∈ jsonStandardKeys)
    rw [filter_ecsFields disjoint] at hextra
    refine ⟨_, ?_, hextra⟩
    rw [parseJSON, inverse]
    dsimp only
    rw [if_neg fun hempty => ?_]
    · rfl
    · rw [ecsObject] at hempty
      rw [List.isEmpty_iff.mp hempty] at hextra
      exact List.cons_ne_nil _ _ (List.nil_perm.mp hextra)

/-! ## A file of lines -/

/-- The text of a file to which the lines were written one after the other. -/
def fileText (lines : List String) : String :=
  String.ofList (lines.flatMap fun line => line.toList ++ ['\n'])

structure Scannable (line : String) : Prop where
  single : '\n' ∉ line.toList
  noCR : dropCR line.toList = line.toList
  short : byteLen line < maxScanTokenSize

theorem splitOn_lines {lines : List String} (h : ∀ line ∈ lines, '\n' ∉ line.toList) :
    (lines.flatMap fun line => line.toList ++ ['\n']).splitOn '\n' =
      lines.map String.toList ++ [[]] := by
  induction lines with
  | nil => rfl
  | cons line lines ih =>
      rw [List.flatMap_cons, List.append_assoc, List.singleton_append,
        List.splitOn_append_cons_self_of_not_mem (h line List.mem_cons_self),
        ih fun l hl => h l (List.mem_cons_of_mem _ hl)]
      rfl

theorem splitLines_fileText {lines : List String} (h : ∀ line ∈ lines, '\n' ∉ line.toList) :
    splitLines (fileText lines) = lines.map String.toList := by
  rw [splitLines, fileText, String.toList_ofList, splitOn_lines h, if_pos (by simp),
    List.dropLast_concat]

theorem scanUpTo_lines {lines : List String} (h : ∀ line ∈ lines, Scannable line) :
    scanUpTo (lines.map String.toList) = ⟨lines, false⟩ := by
  induction lines with
  | nil => rfl
  | cons line lines ih =>
      obtain ⟨_, hcr, hshort⟩ := h line List.mem_cons_self
      rw [byteLen] at hshort
      rw [List.map_cons, scanUpTo, String.ofList_toList, if_neg (Nat.not_le.mpr hshort),
        ih fun l hl => h l (List.mem_cons_of_mem _ hl), hcr, String.ofList_toList]

theorem scanLines_fileText {lines : List String} (h : ∀ line ∈ lines, Scannable line) :
    scanLines (fileText lines) false = ⟨lines, false⟩ := by
  rw [scanLines, splitLines_fileText fun line hline => (h line hline).single, scanUpTo_lines h]
  rfl

theorem groupEntries_timed {parsed : List LogLine} (h : ∀ l ∈ parsed, l.timestamp ≠ "") :
    groupEntries parsed = parsed := by
  have huntimed : ∀ l ∈ parsed, l.untimed = false := fun l hl => decide_eq_false (h l hl)
  have hhead : ∀ ls : List LogLine, (∀ l ∈ ls, l.untimed = false) →
      ls.takeWhile (·.untimed) = [] := by
    intro ls hls
    cases ls with
    | nil => rfl
    | cons l ls => rw [List.takeWhile_cons_of_neg (by simp [hls l List.mem_cons_self])]
  have hentries : ∀ ls : List LogLine, (∀ l ∈ ls, l.untimed = false) →
      timestampedEntries ls = ls := by
    intro ls hls
    induction ls with
    | nil => rfl
    | cons l ls ih =>
        have hrest : ∀ l ∈ ls, l.untimed = false := fun l hl => hls l (List.mem_cons_of_mem _ hl)
        rw [timestampedEntries_cons, if_neg (by simp [hls l List.mem_cons_self]), ih hrest,
          joinMessages, hhead ls hrest]
        simp
  rw [groupEntries, hhead parsed huntimed, hentries parsed huntimed, List.nil_append]

def lineEntries (rt : Runtime) (fileName : String) (lines : List String) : List LogLine :=
  (lines.zipIdx 1).map fun (line, no) => parsedLine rt fileName .json line no

theorem parsedLines_json {lines : List String} (rt : Runtime) (fileName : String)
    (h : ∀ line ∈ lines, trimSpace line ≠ "" ∧ detectParser line = .json) :
    parsedLines rt fileName lines = lineEntries rt fileName lines := by
  have hnumbered : numberedLines 0 lines = lines.zipIdx 1 := by
    refine List.filter_eq_self.mpr fun numbered hmem => ?_
    obtain ⟨line, no⟩ := numbered
    have hline : line ∈ lines := List.fst_mem_of_mem_zipIdx hmem
    exact decide_eq_true (h line hline).1
  rw [parsedLines, hnumbered, lineEntries]
  cases lines with
  | nil => rfl
  | cons line lines =>
      rw [List.zipIdx_cons]
      dsimp only
      rw [(h line List.mem_cons_self).2]

theorem mem_lineEntries {rt : Runtime} {fileName : String} {lines : List String} {e : LogLine}
    (h : e ∈ lineEntries rt fileName lines) :
    ∃ line ∈ lines, e.timestamp = (parseJSON rt line).timestamp := by
  obtain ⟨⟨line, no⟩, hmem, rfl⟩ := List.mem_map.mp h
  exact ⟨line, List.fst_mem_of_mem_zipIdx hmem, rfl⟩

/-- The search of a file of timestamped JSON lines finds one entry for each line. -/
theorem searchFile_lines {rt : Runtime} {params : SearchParams} {reader : Reader} {f : LogFile}
    {lines : List String} (hfile : reader.fs.openFile f.fullPath = some ⟨fileText lines, false⟩)
    (hscan : ∀ line ∈ lines, Scannable line)
    (hjson : ∀ line ∈ lines, trimSpace line ≠ "" ∧ detectParser line = .json)
    (htimed : ∀ line ∈ lines, (parseJSON rt line).timestamp ≠ "") {limit : Nat}
    (hlimit : 0 < limit) :
    ∃ more, reader.searchFile rt params f limit =
        some
          (((lineEntries rt f.name lines).filter (matchFilters rt · params)).take limit, more) := by
  have hlines := scanLines_fileText hscan
  have hread : reader.fileLines f = lines := by
    rw [Reader.fileLines, hfile]
    exact congrArg Scan.lines hlines
  have readable : reader.Readable f := ⟨_, hfile, congrArg Scan.failed hlines⟩
  have htimed' : ∀ e ∈ lineEntries rt f.name lines, e.timestamp ≠ "" := by
    intro e he
    obtain ⟨line, hline, heq⟩ := mem_lineEntries he
    rw [heq]
    exact htimed line hline
  have hspec := searchFile_spec rt params readable limit hlimit
  rw [hread, fileMatches, parsedLines_json rt f.name hjson, groupEntries_timed htimed'] at hspec
  exact ⟨_, hspec⟩

theorem dropCR_line (process : Process) (now : Moment) (info : Info) :
    dropCR (ecsJsonFormat process now info).toList = (ecsJsonFormat process now info).toList := by
  obtain ⟨inner, hinner⟩ := braces_jsonText (ecsObject process now info)
  rw [toList_ecsJsonFormat, hinner, dropCR, List.reverse_cons, List.reverse_append]
  rfl

theorem nonblank_line (process : Process) (now : Moment) (info : Info) :
    trimSpace (ecsJsonFormat process now info) ≠ "" := by
  obtain ⟨inner, hinner⟩ := braces_jsonText (ecsObject process now info)
  rw [trimSpace_line]
  intro h
  have hnil := congrArg String.toList h
  rw [toList_ecsJsonFormat, hinner] at hnil
  cases hnil

/-- What the services log, the log-streamer reads back: every line on its own, and from a file of
lines that the scanner does not find too long, one entry for each line. -/
theorem log_read_back (rt : Runtime) (process : Process) (records : List (Moment × Info))
    (disjoint : ∀ record ∈ records, Disjoint record.2)
    (values : ∀ record ∈ records, ValuesWellFormed record.2)
    (inverse : ∀ record ∈ records, Inverse rt process record.1 record.2) :
    (∀ record ∈ records,
      ReadBack rt record.1 record.2 (ecsJsonFormat process record.1 record.2)) ∧
    ∀ (params : SearchParams) (reader : Reader) (f : LogFile) (limit : Nat),
      reader.fs.openFile f.fullPath =
        some ⟨fileText (records.map fun record => ecsJsonFormat process record.1 record.2), false⟩ →
      (∀ record ∈ records,
        byteLen (ecsJsonFormat process record.1 record.2) < maxScanTokenSize) →
      0 < limit →
      ∃ more, reader.searchFile rt params f limit =
        some (((lineEntries rt f.name
          (records.map fun record => ecsJsonFormat process record.1 record.2)).filter
            (matchFilters rt · params)).take limit, more) := by
  have hback : ∀ record ∈ records,
      ReadBack rt record.1 record.2 (ecsJsonFormat process record.1 record.2) :=
    fun record h => readBack (disjoint record h) (values record h) (inverse record h)
  refine ⟨hback, fun params reader f limit hfile hshort hlimit => ?_⟩
  refine searchFile_lines hfile ?_ ?_ ?_ hlimit
  all_goals
    intro line hline
    obtain ⟨record, hmem, rfl⟩ := List.mem_map.mp hline
  · exact ⟨(hback record hmem).single, dropCR_line _ _ _, hshort record hmem⟩
  · exact ⟨nonblank_line _ _ _, detectParser_line _ _ _⟩
  · rw [(hback record hmem).timestamp]
    exact record.1.nonempty

theorem length_le_byteLen (cs : List Char) : cs.length ≤ byteLen (String.ofList cs) := by
  induction cs with
  | nil => exact Nat.zero_le _
  | cons c cs ih =>
      have hpos := Char.utf8Size_pos c
      rw [byteLen] at ih ⊢
      rw [String.ofList_cons, String.utf8ByteSize_append, String.utf8ByteSize_singleton,
        List.length_cons]
      omega

theorem byteLen_le (cs : List Char) : byteLen (String.ofList cs) ≤ 4 * cs.length := by
  induction cs with
  | nil => exact Nat.le_refl _
  | cons c cs ih =>
      have hle := Char.utf8Size_le_four c
      rw [byteLen] at ih ⊢
      rw [String.ofList_cons, String.utf8ByteSize_append, String.utf8ByteSize_singleton,
        List.length_cons]
      omega

def noon : Moment where
  toISOString := "2024-01-15T03:00:00.000Z"
  nonempty := by decide
  formatToParts :=
    [("month", "01"), ("day", "15"), ("year", "2024"), ("hour", "12"), ("minute", "00"),
      ("second", "00"), ("fractionalSecond", "000")]

def request : Info where
  level := "info"
  message := "GET \"/health\"\n200"
  context := some "HTTP"
  rest :=
    ⟨[("correlationId", some (.str "c-1")), ("duration", some (.num "12")), ("userId", none)],
      by decide⟩

def appLog : LogFile := ⟨"app.log", "2024-01-15", 60, false, "/opt/logs/app/app.log"⟩

def readerOfLines (lines : List String) : Reader :=
  ⟨"/opt/logs", fun _ => none, fun _ => some ⟨fileText lines, false⟩⟩

theorem disjoint_request : Disjoint request := by
  intro key hkey
  have hall : ∀ key ∈ ["correlationId", "duration", "userId"],
      key ∉ jsonStandardKeys ∧ key ∉ internalKeys ∧ key ∉ ecsKeys ∧ key ≠ "__proto__" := by
    decide
  exact hall key hkey

theorem exchangeable_request :
    ∀ field ∈ definedEntries request, Exchangeable Runtime.ascii 1 field.2 := by
  intro field hfield
  rcases List.mem_cons.mp hfield with rfl | hfield
  · exact .str _
  · rw [List.mem_singleton.mp hfield]
    exact .num (isNumber_repr 12) rfl

theorem log_read_back_request :
    ReadBack Runtime.ascii noon request (ecsJsonFormat ⟨1, none⟩ noon request) ∧
    ∃ more, (readerOfLines [ecsJsonFormat ⟨1, none⟩ noon request]).searchFile Runtime.ascii
        { app := "app" } appLog 100 =
      some (((lineEntries Runtime.ascii "app.log"
        [ecsJsonFormat ⟨1, none⟩ noon request]).filter
          (matchFilters Runtime.ascii · { app := "app" })).take 100, more) := by
  have hall := log_read_back Runtime.ascii ⟨1, none⟩ [(noon, request)]
    (List.forall_mem_singleton.mpr disjoint_request)
    (List.forall_mem_singleton.mpr fun field hfield =>
      (exchangeable_request field hfield).wellFormed)
    (List.forall_mem_singleton.mpr
      (inverse_of_exchangeable disjoint_request.apart rfl exchangeable_request))
  refine ⟨hall.1 _ List.mem_cons_self, hall.2 { app := "app" } (readerOfLines _) appLog 100 rfl
    (List.forall_mem_singleton.mpr (Nat.lt_of_le_of_lt (byteLen_le _) ?_)) (by decide)⟩
  decide +kernel

/-! ### What is not read back -/

theorem length_le_jsonText {ms : List (String × Json)} {m : String × Json} (h : m ∈ ms) :
    (jsonText m.2).length ≤ (jsonText (.obj ms)).length := by
  have hmember : ∀ m : String × Json, (jsonText m.2).length ≤ (memberText m).length := by
    rintro ⟨k, v⟩
    change (jsonText v).length ≤ _
    rw [memberText, List.length_append, List.length_cons]
    omega
  have hmore : ∀ ms : List (String × Json), m ∈ ms →
      (jsonText m.2).length ≤ (moreMembers ms).length := by
    intro ms h
    induction ms with
    | nil => cases h
    | cons m' ms ih =>
        have := hmember m'
        rw [moreMembers, List.length_cons, List.length_append]
        rcases List.mem_cons.mp h with rfl | h
        · omega
        · have := ih h
          omega
  cases ms with
  | nil => cases h
  | cons m' ms =>
      have := hmember m'
      rw [jsonText, List.length_cons, List.length_append]
      rcases List.mem_cons.mp h with rfl | h
      · omega
      · have := hmore ms h
        omega

theorem length_message_le {info : Info} (disjoint : Disjoint info) (process : Process)
    (now : Moment) :
    info.message.toList.length ≤ byteLen (ecsJsonFormat process now info) := by
  have hfield : ("message", Json.str info.message) ∈ ecsObject process now info :=
    mem_ecsObject.mpr (mem_fixed disjoint (by simp [fixedFields]))
  have hle := length_le_jsonText hfield
  have hbytes := length_le_byteLen (jsonText (.obj (ecsObject process now info)))
  have hchars := length_le_flatMap info.message.toList
  simp only [jsonText, stringText, List.length_cons, List.length_append] at hle
  rw [ecsJsonFormat, stringify]
  omega

theorem searchFile_long {rt : Runtime} {params : SearchParams} {reader : Reader} {f : LogFile}
    {line : String} {lines : List String}
    (hfile : reader.fs.openFile f.fullPath = some ⟨fileText (line :: lines), false⟩)
    (hsingle : ∀ l ∈ line :: lines, '\n' ∉ l.toList) (hlong : maxScanTokenSize ≤ byteLen line)
    (limit : Nat) : reader.searchFile rt params f limit = none := by
  rw [byteLen] at hlong
  have hscan : scanLines (fileText (line :: lines)) false = ⟨[], true⟩ := by
    rw [scanLines, splitLines_fileText hsingle, List.map_cons, scanUpTo, String.ofList_toList,
      if_pos hlong]
    rfl
  rw [Reader.searchFile, hfile]
  dsimp only
  rw [hscan, scanLoop]
  dsimp only
  split
  · rfl
  · rfl

def longMessage : Info where
  level := "info"
  message := String.ofList (List.replicate maxScanTokenSize 'a')

def ready : Info where
  level := "info"
  message := "ready"

/-- The record with an entry that the format loses. -/
def prototypeEntry : Info := { ready with rest := ⟨[("__proto__", some (.str "Base"))], by decide⟩ }

theorem ecsObject_prototype (process : Process) (now : Moment) :
    ecsObject process now prototypeEntry = ecsObject process now ready := rfl

theorem inverse_prototype : Inverse Runtime.ascii ⟨1, none⟩ noon prototypeEntry := by
  have hready : Inverse Runtime.ascii ⟨1, none⟩ noon ready := by
    refine inverse_of_exchangeable ?_ rfl ?_
    · exact fun key hkey => absurd hkey List.not_mem_nil
    · exact fun field hfield => absurd hfield List.not_mem_nil
  unfold Inverse ecsJsonFormat at hready ⊢
  rw [ecsObject_prototype]
  exact hready

theorem prototype_unread : ¬ ReadBack Runtime.ascii noon prototypeEntry
    (ecsJsonFormat ⟨1, none⟩ noon prototypeEntry) := by
  intro h
  obtain ⟨members, hmetadata, hperm⟩ := h.metadata
  have hmem : ("__proto__", Json.str "Base") ∈ members := by
    rw [hperm.mem_iff]
    exact List.mem_append_right _ List.mem_cons_self
  have hinfix := infix_marshal hmem
  have hinverse := inverse_prototype
  unfold Inverse at hinverse
  rw [← hmetadata, parseJSON, hinverse] at hinfix
  exact absurd hinfix (by decide +kernel)

/-- A message of a megabyte makes a line that the scanner does not take: nothing of the file is
found. -/
theorem long_line_unread :
    Disjoint longMessage ∧ ValuesWellFormed longMessage ∧
      Inverse Runtime.ascii ⟨1, none⟩ noon longMessage ∧
      (readerOfLines [ecsJsonFormat ⟨1, none⟩ noon longMessage]).searchFile Runtime.ascii
        { app := "app" } appLog 100 = none := by
  have hdisjoint : Disjoint longMessage := fun key hkey => absurd hkey List.not_mem_nil
  have hvalues : ValuesWellFormed longMessage := fun field hfield => absurd hfield List.not_mem_nil
  have hlen := length_message_le hdisjoint ⟨1, none⟩ noon
  rw [longMessage, String.toList_ofList, List.length_replicate] at hlen
  refine ⟨hdisjoint, hvalues, inverse_of_exchangeable hdisjoint.apart rfl fun field hfield =>
    absurd hfield List.not_mem_nil, searchFile_long rfl (List.forall_mem_singleton.mpr ?_) hlen 100⟩
  rw [toList_ecsJsonFormat]
  exact not_mem_jsonText (wellFormed_ecsObject hdisjoint.apart hvalues ⟨1, none⟩ noon)

/-- A line that is too long, and an entry that takes no key with a role but is lost. -/
theorem unread_records :
    (Disjoint longMessage ∧ ValuesWellFormed longMessage ∧
      Inverse Runtime.ascii ⟨1, none⟩ noon longMessage ∧
      (readerOfLines [ecsJsonFormat ⟨1, none⟩ noon longMessage]).searchFile Runtime.ascii
        { app := "app" } appLog 100 = none) ∧
    (∀ key ∈ prototypeEntry.rest.keys,
        key ∉ jsonStandardKeys ∧ key ∉ internalKeys ∧ key ∉ ecsKeys) ∧
      ValuesWellFormed prototypeEntry ∧
      Inverse Runtime.ascii ⟨1, none⟩ noon prototypeEntry ∧
      ¬ ReadBack Runtime.ascii noon prototypeEntry
        (ecsJsonFormat ⟨1, none⟩ noon prototypeEntry) := by
  refine ⟨long_line_unread, by decide, ?_, inverse_prototype, prototype_unread⟩
  exact List.forall_mem_singleton.mpr (.str "Base")

end NestGateway.Logger
