import NestGateway.LogStreamer.Streaming

/-! # Frames

What a container without a terminal writes is a list of frames, and after them
possibly the beginning of one more. Both streams send the lines of the complete
frames and nothing of the last one.
-/

namespace NestGateway.LogStreamer.Streaming

open GoBytes FixedWidth

/-- `[stream_type:1][padding:3][size:4 BE][payload:size bytes]` -/
structure Frame where
  kind : UInt8
  padding : UInt8 × UInt8 × UInt8
  payload : Bytes
  payload_lt : payload.length < 2 ^ 32

namespace Frame

def header (f : Frame) : Bytes :=
  f.kind :: f.padding.1 :: f.padding.2.1 :: f.padding.2.2 :: putUint32 f.payload.length

def encode (f : Frame) : Bytes := f.header ++ f.payload

def streamType (f : Frame) : String := if f.kind = 2 then "stderr" else "stdout"

/-- The lines of the payload that are not empty, with the type of the frame. -/
def lines (f : Frame) : List (String × Bytes) := (filledLines f.payload).map (f.streamType, ·)

theorem length_header (f : Frame) : f.header.length = 8 := rfl

theorem readFull_header (f : Frame) (reader : Bytes) :
    readFull 8 (f.encode ++ reader) = some (f.header, f.payload ++ reader) := by
  rw [encode, List.append_assoc]
  exact readFull_append f.header (f.payload ++ reader)

theorem uint32_header (f : Frame) : uint32 (f.header.drop 4) = f.payload.length :=
  uint32_putUint32 f.payload_lt

theorem streamType_header (f : Frame) :
    (if f.header[0]? = some 2 then "stderr" else "stdout") = f.streamType := by
  rw [streamType, header, List.getElem?_cons_zero]
  simp

end Frame

/-- The stream ends in a frame: something of it is missing. -/
def Truncated (tail : Bytes) : Prop := ∃ f : Frame, tail <+: f.encode ∧ tail ≠ f.encode

theorem exists_frame {header payload : Bytes} (hlen : header.length = 8)
    (hpayload : payload.length = uint32 (header.drop 4)) :
    ∃ f : Frame, f.header = header ∧ f.payload = payload := by
  obtain ⟨kind, p, q, r, a, b, c, d, rfl⟩ :
      ∃ kind p q r a b c d, header = [kind, p, q, r, a, b, c, d] := by
    match header, hlen with
    | [kind, p, q, r, a, b, c, d], _ => exact ⟨kind, p, q, r, a, b, c, d, rfl⟩
  have hsize : payload.length = uint32 [a, b, c, d] := hpayload
  have hput : putUint32 payload.length = [a, b, c, d] := by
    rw [hsize, putUint32_uint32]
  exact ⟨⟨kind, (p, q, r), payload, hsize ▸ uint32_lt a b c d⟩,
    congrArg (kind :: p :: q :: r :: ·) hput, rfl⟩

theorem truncated_of_header {reader : Bytes} (h : reader.length < 8) : Truncated reader := by
  have hlen : (reader ++ List.replicate (8 - reader.length) 0).length = 8 := by
    rw [List.length_append, List.length_replicate]
    omega
  obtain ⟨f, hheader, _⟩ := exists_frame hlen (List.length_replicate (a := (0 : UInt8)))
  refine ⟨f, ?_, ?_⟩
  · rw [Frame.encode, hheader, List.append_assoc]
    exact List.prefix_append _ _
  · intro heq
    rw [heq, Frame.encode, List.length_append, f.length_header] at h
    omega

theorem truncated_of_payload {reader : Bytes} (hheader : 8 ≤ reader.length)
    (h : (reader.drop 8).length < uint32 ((reader.take 8).drop 4)) : Truncated reader := by
  have hlen : (reader.take 8).length = 8 := by
    rw [List.length_take, Nat.min_eq_left hheader]
  have hpayload : (reader.drop 8 ++ List.replicate
      (uint32 ((reader.take 8).drop 4) - (reader.drop 8).length) 0).length =
        uint32 ((reader.take 8).drop 4) := by
    rw [List.length_append, List.length_replicate]
    omega
  obtain ⟨f, hfront, hback⟩ := exists_frame hlen hpayload
  refine ⟨f, ?_, ?_⟩
  · rw [Frame.encode, hfront, hback, ← List.append_assoc, List.take_append_drop]
    exact List.prefix_append _ _
  · intro heq
    have hlengths := congrArg List.length heq
    rw [Frame.encode, hfront, hback, List.length_append, hlen, hpayload] at hlengths
    rw [List.length_drop] at h
    omega

/-- Every stream of bytes is a list of frames and the beginning of one more. -/
theorem exists_frames (reader : Bytes) :
    ∃ (frames : List Frame) (tail : Bytes), Truncated tail ∧
      reader = frames.flatMap Frame.encode ++ tail := by
  induction hn : reader.length using Nat.strong_induction_on generalizing reader with
  | _ n ih =>
      by_cases hheader : 8 ≤ reader.length
      · by_cases hpayload : uint32 ((reader.take 8).drop 4) ≤ (reader.drop 8).length
        · have hlen : (reader.take 8).length = 8 := by
            rw [List.length_take, Nat.min_eq_left hheader]
          obtain ⟨f, hfront, hback⟩ := exists_frame hlen
            (show ((reader.drop 8).take (uint32 ((reader.take 8).drop 4))).length = _ by
              rw [List.length_take, Nat.min_eq_left hpayload])
          have hrest : ((reader.drop 8).drop (uint32 ((reader.take 8).drop 4))).length < n := by
            rw [List.length_drop, List.length_drop]
            omega
          obtain ⟨frames, tail, htail, hreader⟩ := ih _ hrest _ rfl
          refine ⟨f :: frames, tail, htail, ?_⟩
          rw [List.flatMap_cons, List.append_assoc, ← hreader, Frame.encode, hfront, hback,
            List.append_assoc, List.take_append_drop, List.take_append_drop]
        · exact ⟨[], reader, truncated_of_payload hheader (not_le.mp hpayload), rfl⟩
      · exact ⟨[], reader, truncated_of_header (not_le.mp hheader), rfl⟩

/-! ## The loop over the frames -/

section Loop

variable (send : Send) (clock : Nat → Bytes)

theorem muxLoop_truncated {tail : Bytes} (h : Truncated tail) (fuel : Nat)
    (cancelledAt : Option Nat) (sent : List LogMessage) :
    muxLoop send clock (fuel + 1) cancelledAt tail sent = sent := by
  obtain ⟨f, ⟨rest, hrest⟩, hne⟩ := h
  have hlen := congrArg List.length hrest
  rw [List.length_append, Frame.encode, List.length_append, f.length_header] at hlen
  have hmissing : rest ≠ [] := by
    rintro rfl
    rw [List.append_nil] at hrest
    exact hne hrest
  have hpos := List.length_pos_iff.mpr hmissing
  rw [muxLoop]
  split
  · rfl
  by_cases hheader : 8 ≤ tail.length
  · -- the header is complete, the payload is not
    have htake : tail.take 8 = f.header := by
      have hfront := congrArg (List.take 8) hrest
      rw [List.take_append_of_le_length hheader, Frame.encode,
        List.take_left' f.length_header] at hfront
      exact hfront
    rw [readFull, if_pos hheader, htake]
    dsimp only
    have hshort : (tail.drop 8).length < f.payload.length := by
      rw [List.length_drop]
      omega
    rw [f.uint32_header, if_neg (by omega), readFull, if_neg (not_le.mpr hshort)]
  · rw [readFull, if_neg hheader]

theorem muxLoop_frame (f : Frame) (fuel : Nat) {cancelledAt : Option Nat}
    (hopen : cancelledAt ≠ some 0) (reader : Bytes) (sent : List LogMessage) :
    muxLoop send clock (fuel + 1) cancelledAt (f.encode ++ reader) sent =
      muxLoop send clock fuel (cancelledAt.map (· - 1)) reader
        (sent ++ messages send clock sent.length f.lines) := by
  rw [muxLoop, if_neg hopen, f.readFull_header]
  dsimp only
  rw [f.uint32_header, f.streamType_header]
  split
  next hempty =>
    have hpayload : f.payload = [] := List.length_eq_zero_iff.mp hempty
    have hlines : f.lines = [] := by
      rw [Frame.lines, hpayload]
      rfl
    rw [hpayload, List.nil_append, hlines]
    simp [messages]
  next =>
    rw [readFull_append]
    dsimp only
    have hlines : ((trimRight newline f.payload).splitOn newline).filter (· ≠ []) =
        filledLines f.payload := filledLines_trimRight f.payload
    rw [sendLines_eq, hlines, Frame.lines]

/-- The frames that are read before the cancellation is found. -/
def taken (cancelledAt : Option Nat) (frames : List Frame) : List Frame :=
  match cancelledAt with
  | none => frames
  | some n => frames.take n

theorem taken_nil (cancelledAt : Option Nat) : taken cancelledAt [] = [] := by
  cases cancelledAt with
  | none => rfl
  | some n => exact List.take_nil

theorem taken_cons {cancelledAt : Option Nat} (hopen : cancelledAt ≠ some 0) (f : Frame)
    (frames : List Frame) :
    taken cancelledAt (f :: frames) = f :: taken (cancelledAt.map (· - 1)) frames := by
  cases cancelledAt with
  | none => rfl
  | some n =>
      cases n with
      | zero => exact absurd rfl hopen
      | succ n => rfl

theorem muxLoop_frames {tail : Bytes} (htail : Truncated tail) (frames : List Frame) {fuel : Nat}
    (hfuel : frames.length < fuel) (cancelledAt : Option Nat) (sent : List LogMessage) :
    muxLoop send clock fuel cancelledAt (frames.flatMap Frame.encode ++ tail) sent =
      sent ++ messages send clock sent.length ((taken cancelledAt frames).flatMap Frame.lines) := by
  induction frames generalizing fuel cancelledAt sent with
  | nil =>
      obtain ⟨fuel, rfl⟩ := Nat.exists_eq_succ_of_ne_zero (Nat.ne_of_gt hfuel)
      rw [List.flatMap_nil, List.nil_append, Nat.succ_eq_add_one,
        muxLoop_truncated send clock htail, taken_nil]
      simp [messages]
  | cons f frames ih =>
      obtain ⟨fuel, rfl⟩ := Nat.exists_eq_succ_of_ne_zero (Nat.ne_zero_of_lt hfuel)
      by_cases hopen : cancelledAt = some 0
      · rw [Nat.succ_eq_add_one, muxLoop, if_pos hopen, hopen]
        simp [taken, messages]
      · rw [List.flatMap_cons, List.append_assoc, Nat.succ_eq_add_one,
          muxLoop_frame send clock f fuel hopen, ih (Nat.lt_of_succ_lt_succ hfuel),
          taken_cons hopen, List.flatMap_cons, messages_append, List.length_append, length_messages,
          List.append_assoc]

end Loop

theorem length_le_flatMap_encode (frames : List Frame) :
    frames.length ≤ (frames.flatMap Frame.encode).length := by
  induction frames with
  | nil => exact Nat.le_refl 0
  | cons f frames ih =>
      rw [List.flatMap_cons, List.length_append, Frame.encode, List.length_append, f.length_header,
        List.length_cons]
      omega

theorem streamMuxLogs_frames (clock : Nat → Bytes) (cancelledAt : Option Nat)
    (frames : List Frame) {tail : Bytes} (htail : Truncated tail) (containerId : String) :
    streamMuxLogs clock cancelledAt (frames.flatMap Frame.encode ++ tail) containerId =
      messages (fun now => sendLogLine now containerId) clock 0
        ((taken cancelledAt frames).flatMap Frame.lines) := by
  have hlength := length_le_flatMap_encode frames
  rw [streamMuxLogs, muxLoop_frames _ clock htail frames
    (by rw [List.length_append]; omega) cancelledAt []]
  rfl

/-- A time in UTC as Docker writes it, with nine digits of the second. -/
structure DockerTime where
  year : Nat
  month : Nat
  day : Nat
  hour : Nat
  minute : Nat
  second : Nat
  nanosecond : Nat
  deriving Repr, DecidableEq

/-- `2006-01-02T15:04:05.000000000Z` -/
def DockerTime.text (t : DockerTime) : Bytes :=
  ascii (fixed 4 t.year ++ '-' :: (fixed 2 t.month ++ '-' :: (fixed 2 t.day ++ 'T' ::
    (fixed 2 t.hour ++ ':' :: (fixed 2 t.minute ++ ':' :: (fixed 2 t.second ++ '.' ::
      (fixed 9 t.nanosecond ++ ['Z'])))))))

theorem DockerTime.length_text (t : DockerTime) : t.text.length = 30 := by
  simp [text, ascii]

theorem DockerTime.text_hyphen (t : DockerTime) : t.text[4]? = some 45 := by
  simp [text, ascii]

theorem DockerTime.text_letter (t : DockerTime) : t.text[10]? = some 84 := by
  simp [text, ascii]

theorem DockerTime.blank_not_mem_text (t : DockerTime) : blank ∉ t.text := by
  have hfixed (w n : Nat) : blank ∉ ascii (fixed w n) := not_mem_ascii_fixed (by decide) w n
  simp only [ascii] at hfixed
  simp only [text, ascii, List.map_append, List.map_cons, List.map_nil, List.mem_append,
    List.mem_cons, List.not_mem_nil, hfixed, false_or, or_false]
  decide

/-- A line that Docker writes: a time, a blank and the text of the line. -/
structure Entry where
  streamType : String
  time : DockerTime
  message : Bytes

def Entry.line (e : Entry) : Bytes := e.time.text ++ blank :: e.message

def Entry.logMessage (containerId : String) (e : Entry) : LogMessage where
  containerId
  timestamp := e.time.text
  message := e.message
  stream := e.streamType

theorem hasTimestamp_line (e : Entry) : hasTimestamp e.line = true := by
  have hlen := e.time.length_text
  have hfour : e.line[4]? = some 45 := by
    rw [Entry.line, List.getElem?_append_left (by omega), e.time.text_hyphen]
  have hten : e.line[10]? = some 84 := by
    rw [Entry.line, List.getElem?_append_left (by omega), e.time.text_letter]
  have hlong : 30 < e.line.length := by
    rw [Entry.line, List.length_append, hlen, List.length_cons]
    omega
  rw [hasTimestamp, hfour, hten, decide_eq_true hlong]
  rfl

theorem sendLogLine_line (now : Bytes) (containerId : String) (e : Entry) :
    sendLogLine now containerId e.streamType e.line = e.logMessage containerId := by
  have hlen := e.time.length_text
  have hindex : indexByte e.line blank = (30 : Nat) := by
    rw [Entry.line, indexByte_append e.time.blank_not_mem_text, hlen]
  have htake : e.line.take 30 = e.time.text := List.take_left' hlen
  have hdrop : e.line.drop 31 = e.message := by
    rw [Entry.line, ← List.drop_drop (i := 1) (j := 30), List.drop_left' hlen, List.drop_one,
      List.tail_cons]
  rw [sendLogLine, hasTimestamp_line, if_pos rfl, hindex]
  simp [htake, hdrop, Entry.logMessage]

/-- Both streams send one message for each line of the frames that were read, in order. Where a
line is a time and a text the message has them apart. -/
theorem streamMuxLogs_decodes (clock : Nat → Bytes) (cancelledAt : Option Nat)
    (serviceName containerId : String) (frames : List Frame) {tail : Bytes}
    (htail : Truncated tail) :
    let reader := frames.flatMap Frame.encode ++ tail
    let lines := (taken cancelledAt frames).flatMap Frame.lines
    (streamMuxLogs clock cancelledAt reader containerId =
        lines.mapIdx fun i line => sendLogLine (clock i) containerId line.1 line.2) ∧
      (serviceStreamMuxLogs clock cancelledAt reader serviceName containerId =
        (streamMuxLogs clock cancelledAt reader containerId).map (·.ofService serviceName)) ∧
      ∀ entries : List Entry, lines = entries.map (fun e => (e.streamType, e.line)) →
        streamMuxLogs clock cancelledAt reader containerId =
          entries.map (·.logMessage containerId) := by
  intro reader lines
  have hsent : streamMuxLogs clock cancelledAt reader containerId =
      lines.mapIdx fun i line => sendLogLine (clock i) containerId line.1 line.2 := by
    rw [streamMuxLogs_frames clock cancelledAt frames htail]
    simp [messages, lines]
  refine ⟨hsent, serviceStreamMuxLogs_eq clock cancelledAt reader serviceName containerId, ?_⟩
  intro entries hentries
  rw [hsent, hentries]
  refine List.ext_getElem (by simp) fun i _ _ => ?_
  rw [List.getElem_mapIdx, List.getElem_map, List.getElem_map]
  exact sendLogLine_line (clock i) containerId _

/-- A frame of two lines, the second one without a text. -/
def sampleFrame : Frame where
  kind := 2
  padding := (0, 0, 0)
  payload :=
    ascii "2024-01-15T10:30:45.123456789Z up at 8\n2024-01-15T10:30:45.123456789Z \n".toList
  payload_lt := by decide

def readyFrame : Frame where
  kind := 1
  padding := (0, 0, 0)
  payload := ascii "2024-01-15T10:30:45.123456789Z ready\n".toList
  payload_lt := by decide

def sampleTime : DockerTime := ⟨2024, 1, 15, 10, 30, 45, 123456789⟩

/-- What two frames hold. -/
def sampleEntries : List Entry :=
  [⟨"stderr", sampleTime, ascii "up at 8".toList⟩, ⟨"stderr", sampleTime, []⟩,
    ⟨"stdout", sampleTime, ascii "ready".toList⟩]

/-- Frames of both streams, a cancellation before the third one, and three bytes of a header. -/
theorem streamMuxLogs_decodes_sample :
    let reader := [sampleFrame, readyFrame, sampleFrame].flatMap Frame.encode ++ [1, 0, 0]
    streamMuxLogs (fun _ => []) (some 2) reader "0123456789ab" =
        sampleEntries.map (·.logMessage "0123456789ab") ∧
      serviceStreamMuxLogs (fun _ => []) (some 2) reader "web" "0123456789ab" =
        sampleEntries.map fun e => (e.logMessage "0123456789ab").ofService "web" := by
  have htail : Truncated [1, 0, 0] := by
    refine ⟨⟨1, (0, 0, 0), [], by decide⟩, ⟨[0, 0, 0, 0, 0], rfl⟩, ?_⟩
    intro h
    cases h
  have hlines : (taken (some 2) [sampleFrame, readyFrame, sampleFrame]).flatMap Frame.lines =
      sampleEntries.map fun e => (e.streamType, e.line) := by
    decide
  obtain ⟨_, hservice, hdecodes⟩ := streamMuxLogs_decodes (fun _ => []) (some 2) "web"
    "0123456789ab" [sampleFrame, readyFrame, sampleFrame] htail
  refine ⟨hdecodes _ hlines, ?_⟩
  rw [hservice, hdecodes _ hlines, List.map_map]
  rfl

end NestGateway.LogStreamer.Streaming
