import NestGateway.LogStreamer.Streaming

/-! # Lines of a terminal

A stream of a container with a terminal stops at the first line that fills the
buffer of its scanner, and says nothing of it.
-/

namespace NestGateway.LogStreamer.Streaming

open GoBytes

/-- The lines of a stream that are not empty, without their line ends. -/
def ttyLines (reader : Bytes) : List (String × Bytes) :=
  (((rawLines reader).map dropCR).filter (· ≠ [])).map ("stdout", ·)

/-- The lines before the first one that is too long. -/
def scannedLines (reader : Bytes) : List (String × Bytes) :=
  ((((rawLines reader).takeWhile (·.length < maxScanTokenSize)).map dropCR).filter (· ≠ [])).map
    ("stdout", ·)

/-- Every line of the stream fits the buffer of the scanner. -/
def LinesFit (reader : Bytes) : Prop := ∀ line ∈ rawLines reader, line.length < maxScanTokenSize

section Loop

variable (send : Send) (clock : Nat → Bytes)

theorem scan_rawLines {reader : Bytes} (h : reader ≠ []) :
    ∃ line rest, rawLines reader = line :: rawLines rest ∧ rest.length < reader.length ∧
      scan reader = if maxScanTokenSize ≤ line.length then none else some (dropCR line, rest) := by
  obtain ⟨line, rest, hline, rfl | ⟨rfl, rfl, hne⟩⟩ := reader_cases h
  · refine ⟨line, rest, rawLines_cons hline, ?_, scan_line hline rest⟩
    rw [List.length_append, List.length_cons]
    omega
  · exact ⟨reader, [], rawLines_singleton hline hne, List.length_pos_iff.mpr hne,
      scan_last hline hne⟩

theorem ttyLoop_eq {fuel : Nat} {reader : Bytes} (hfuel : reader.length < fuel)
    (sent : List LogMessage) :
    ttyLoop send clock fuel none reader sent =
      sent ++ messages send clock sent.length (scannedLines reader) := by
  induction fuel generalizing reader sent with
  | zero => cases hfuel
  | succ fuel ih =>
      rw [ttyLoop]
      by_cases hend : reader = []
      · rw [hend]
        simp [scan, scannedLines, rawLines_nil, messages]
      · obtain ⟨line, rest, hlines, hrest, hscan⟩ := scan_rawLines hend
        rw [hscan, scannedLines, hlines]
        by_cases hlong : maxScanTokenSize ≤ line.length
        · rw [if_pos hlong, List.takeWhile_cons_of_neg (by simpa using hlong)]
          simp [messages]
        · have hshort : line.length < maxScanTokenSize := not_le.mp hlong
          rw [if_neg hlong, List.takeWhile_cons_of_pos (by simpa using hshort)]
          dsimp only
          rw [if_neg (fun h => by cases h), Option.map_none, ih (by omega), scannedLines]
          by_cases hempty : dropCR line = []
          · simp [hempty]
          · simp [hempty, messages_cons]

end Loop

theorem streamTTYLogs_eq (clock : Nat → Bytes) (reader : Bytes) (containerId : String) :
    streamTTYLogs clock none reader containerId =
      messages (fun now => sendLogLine now containerId) clock 0 (scannedLines reader) := by
  rw [streamTTYLogs, ttyLoop_eq _ clock (Nat.lt_succ_self _)]
  rfl

theorem dropCR_ne_nil {line : Bytes} (h : 1 < line.length) : dropCR line ≠ [] := by
  rw [dropCR, ne_eq, ← List.length_eq_zero_iff]
  split
  · rw [List.length_dropLast]
    omega
  · omega

theorem scannedLines_of_fit {reader : Bytes} (h : LinesFit reader) :
    scannedLines reader = ttyLines reader := by
  rw [scannedLines, ttyLines, List.takeWhile_eq_self_iff.mpr]
  intro line hline
  exact decide_eq_true (h line hline)

/-- A line that is too long and all lines after it are missing. -/
theorem length_scannedLines_lt {reader : Bytes} (h : ¬ LinesFit reader) :
    (scannedLines reader).length < (ttyLines reader).length := by
  have hsplit := List.takeWhile_append_dropWhile
    (p := fun line : Bytes => decide (line.length < maxScanTokenSize)) (l := rawLines reader)
  cases hrest : (rawLines reader).dropWhile fun line => decide (line.length < maxScanTokenSize) with
  | nil =>
      rw [List.dropWhile_eq_nil_iff] at hrest
      exact absurd (fun line hline => of_decide_eq_true (hrest line hline)) h
  | cons line rest =>
      have hhead := List.head?_dropWhile_not
        (fun line : Bytes => decide (line.length < maxScanTokenSize)) (rawLines reader)
      rw [hrest] at hhead
      have hlong : ¬ line.length < maxScanTokenSize := by simpa using hhead
      have hfilled : dropCR line ≠ [] := by
        refine dropCR_ne_nil ?_
        rw [maxScanTokenSize] at hlong
        omega
      rw [ttyLines, ← hsplit, hrest, scannedLines]
      simp [hfilled]

/-- Both streams send every line exactly if no line of the stream fills the buffer. -/
theorem streamTTYLogs_complete_iff (clock : Nat → Bytes) (reader : Bytes)
    (serviceName containerId : String) :
    (streamTTYLogs clock none reader containerId =
          (ttyLines reader).mapIdx (fun i line =>
            sendLogLine (clock i) containerId line.1 line.2) ∧
        serviceStreamTTYLogs clock none reader serviceName containerId =
          (ttyLines reader).mapIdx fun i line =>
            sendServiceLogLine (clock i) serviceName containerId line.1 line.2) ↔
      LinesFit reader := by
  rw [serviceStreamTTYLogs_eq, streamTTYLogs_eq]
  constructor
  · rintro ⟨hsent, _⟩
    by_contra hlong
    have hlength := congrArg List.length hsent
    rw [length_messages, List.length_mapIdx] at hlength
    exact Nat.ne_of_lt (length_scannedLines_lt hlong) hlength
  · intro hfit
    rw [scannedLines_of_fit hfit]
    constructor
    · simp [messages]
    · refine List.ext_getElem (by simp) fun i _ _ => ?_
      rw [List.getElem_map, List.getElem_mapIdx, sendServiceLogLine_eq]
      simp [messages]

/-- A line of 65536 bytes, and a short one after it. -/
def longReader : Bytes := List.replicate maxScanTokenSize 97 ++ newline :: [98, newline]

theorem rawLines_longReader :
    rawLines longReader = [List.replicate maxScanTokenSize 97, [98]] := by
  have hlong : newline ∉ List.replicate maxScanTokenSize (97 : UInt8) := by
    intro h
    exact absurd (List.eq_of_mem_replicate h) (by decide)
  rw [longReader, rawLines_cons hlong]
  rfl

/-- Neither of its lines is sent. -/
theorem streamTTYLogs_longReader :
    streamTTYLogs (fun _ => []) none longReader "0123456789ab" ≠
      (ttyLines longReader).mapIdx fun _ line =>
        sendLogLine [] "0123456789ab" line.1 line.2 := by
  intro h
  have hnot : ¬ LinesFit longReader := by
    intro hfit
    have hline := hfit (List.replicate maxScanTokenSize 97) (by simp [rawLines_longReader])
    rw [List.length_replicate] at hline
    exact Nat.lt_irrefl _ hline
  have hlength := congrArg List.length h
  rw [streamTTYLogs_eq, length_messages, List.length_mapIdx] at hlength
  exact Nat.ne_of_lt (length_scannedLines_lt hnot) hlength

end NestGateway.LogStreamer.Streaming
