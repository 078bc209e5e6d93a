import NestGateway.Ui.Highlight

/-! # What find mode counts and what it marks

`countMatches` counts the occurrences of the lower-cased query in the
lower-cased message, and `highlightHtml` marks the matches in the html of the
message. The two agree where both find the same characters of the message.
-/

namespace NestGateway.Ui.FindCount

open Scans LogSearch Highlight

structure Chunk where
  source : JsText
  lowered : JsText
  deriving DecidableEq

/-- `toLowerCase`, which goes character by character. -/
structure Lowering where
  chunks : JsText → List Chunk
  sources : ∀ text, (chunks text).flatMap Chunk.source = text
  source_ne : ∀ {text chunk}, chunk ∈ chunks text → chunk.source ≠ []
  lowered_ne : ∀ {text chunk}, chunk ∈ chunks text → chunk.lowered ≠ []

def Lowering.toLowerCase (lowering : Lowering) (text : JsText) : JsText :=
  (lowering.chunks text).flatMap Chunk.lowered

theorem Lowering.toLowerCase_ne (lowering : Lowering) {text : JsText} (h : text ≠ []) :
    lowering.toLowerCase text ≠ [] := by
  have hsources := lowering.sources text
  unfold Lowering.toLowerCase
  cases hchunks : lowering.chunks text with
  | nil =>
      rw [hchunks] at hsources
      exact absurd hsources.symm h
  | cons chunk chunks =>
      have hne := @Lowering.lowered_ne lowering text chunk (hchunks ▸ List.mem_cons_self)
      simp [hne]

/-- A part of a message: a unit that is written as itself, what is written as the reference with a
name, or a colour sequence with the tags for it. -/
inductive Piece where
  | plain (u : UInt16)
  | entity (raw name : JsText)
  | ansi (raw : JsText) (insides : List JsText)
  deriving DecidableEq

def Piece.raw : Piece → JsText
  | .plain u => [u]
  | .entity raw _ => raw
  | .ansi raw _ => raw

def Piece.tokens : Piece → List Token
  | .plain u => [.unit u]
  | .entity _ name => (ampersand :: (name ++ [0x3B])).map .unit
  | .ansi _ insides => insides.map .tag

def Piece.Escaped : Piece → Prop
  | .plain u => u ≠ ampersand ∧ u ≠ lessThan ∧ u ≠ greaterThan
  | .entity _ name => lessThan ∉ name ∧ greaterThan ∉ name
  | .ansi _ insides => ∀ inside ∈ insides, greaterThan ∉ inside

/-- `ansi-to-html` with `escapeXML`. -/
structure Converter where
  pieces : JsText → List Piece
  raw : ∀ message, (pieces message).flatMap Piece.raw = message
  escaped : ∀ {message piece}, piece ∈ pieces message → piece.Escaped

def Converter.tokens (convert : Converter) (message : JsText) : List Token :=
  (convert.pieces message).flatMap Piece.tokens

def Converter.toHtml (convert : Converter) (message : JsText) : JsText :=
  render (convert.tokens message)

theorem Converter.clean (convert : Converter) (message : JsText) :
    Clean (convert.tokens message) := by
  intro t ht
  obtain ⟨piece, hpiece, ht⟩ := List.mem_flatMap.mp ht
  have hescaped := convert.escaped hpiece
  cases piece with
  | plain u =>
      rw [List.mem_singleton.mp ht]
      exact hescaped.2.1
  | entity raw name =>
      obtain ⟨u, hu, rfl⟩ := List.mem_map.mp ht
      have hplain : u ≠ lessThan := by
        rcases List.mem_cons.mp hu with rfl | hu
        · decide
        · rcases List.mem_append.mp hu with hu | hu
          · exact fun h => hescaped.1 (h ▸ hu)
          · rw [List.mem_singleton.mp hu]
            decide
      exact hplain
  | ansi raw insides =>
      obtain ⟨inside, hinside, rfl⟩ := List.mem_map.mp ht
      exact hescaped inside hinside

/-! ## Counts and marks -/

section Find

variable (lowering : Lowering) (convert : Converter) (canonicalize : UInt16 → UInt16)
  (message query : JsText)

def counted : List Nat :=
  occurrences (lowering.toLowerCase message) (lowering.toLowerCase query)

def marked : List Nat :=
  hits (occursAt canonicalize query) query.length (convert.tokens message)

/-- The occurrence at `x` and the mark at `z` are of the same characters, each written as itself. -/
def Covers (x z : Nat) : Prop :=
  ∃ (before within after : List Chunk) (front back : List Piece) (us : JsText),
    lowering.chunks message = before ++ (within ++ after) ∧
    convert.pieces message = front ++ (us.map .plain ++ back) ∧
    before.flatMap Chunk.source = front.flatMap Piece.raw ∧
    within.flatMap Chunk.source = us ∧
    (within.flatMap Chunk.lowered).length = (lowering.toLowerCase query).length ∧
    us.length = query.length ∧
    x = (before.flatMap Chunk.lowered).length ∧
    z = (front.flatMap Piece.tokens).length

/-- The count is that of the marks, and the current mark is on the characters that are counted
under its number. -/
structure MarksCounted : Prop where
  count : ∀ currentPosition,
    highlightHtml canonicalize (convert.toHtml message) query currentPosition =
      some (render (withMarks query.length currentPosition (convert.tokens message) 0 0
          (marked convert canonicalize message query)),
        countMatches lowering.toLowerCase message query)
  same : ∀ (k x : Nat), (counted lowering message query)[k]? = some x →
    ∃ z, (marked convert canonicalize message query)[k]? = some z ∧
      Covers lowering convert message query x z

variable {lowering convert message query}

variable (lowering convert message) in
/-- The message is cut between two characters, at `x` in its lower-case form and at `z` in the
tokens of its html. -/
def Cut (x z : Nat) : Prop :=
  ∃ (before after : List Chunk) (front back : List Piece),
    lowering.chunks message = before ++ after ∧ convert.pieces message = front ++ back ∧
    before.flatMap Chunk.source = front.flatMap Piece.raw ∧
    x = (before.flatMap Chunk.lowered).length ∧ z = (front.flatMap Piece.tokens).length

variable (lowering convert message) in
def PlainCut (x z : Nat) : Prop :=
  ∃ (before after : List Chunk) (front back : List Piece) (chunk : Chunk) (u : UInt16),
    lowering.chunks message = before ++ chunk :: after ∧
    convert.pieces message = front ++ .plain u :: back ∧
    before.flatMap Chunk.source = front.flatMap Piece.raw ∧
    x = (before.flatMap Chunk.lowered).length ∧ z = (front.flatMap Piece.tokens).length

/-- Cuts are in the same order in the lower-case form and in the tokens of the html. -/
theorem cut_le_iff {x z x' z' : Nat} (h : Cut lowering convert message x z)
    (h' : PlainCut lowering convert message x' z') : x ≤ x' ↔ z ≤ z' := by
  obtain ⟨before, after, front, back, hchunks, hpieces, hsource, rfl, rfl⟩ := h
  obtain ⟨before', after', front', back', chunk, u, hchunks', hpieces', hsource', rfl, rfl⟩ := h'
  have hmem : chunk ∈ lowering.chunks message := by
    rw [hchunks']
    simp
  have hchunkcut := hchunks.symm.trans hchunks'
  have hpiececut := hpieces.symm.trans hpieces'
  rw [length_front_le_iff Chunk.lowered hchunkcut (lowering.lowered_ne hmem),
    ← length_front_le_iff Chunk.source hchunkcut (lowering.source_ne hmem), hsource, hsource',
    length_front_le_iff Piece.raw hpiececut (List.cons_ne_nil u []),
    ← length_front_le_iff Piece.tokens hpiececut (List.cons_ne_nil _ [])]

theorem flatMap_raw_plain (us : JsText) : (us.map Piece.plain).flatMap Piece.raw = us := by
  rw [List.flatMap_map]
  exact List.flatMap_singleton' us

theorem flatMap_tokens_plain (us : JsText) :
    (us.map Piece.plain).flatMap Piece.tokens = us.map .unit := by
  rw [List.flatMap_map, List.map_eq_flatMap]
  rfl

theorem Covers.end_cut {x z : Nat} (h : Covers lowering convert message query x z) :
    Cut lowering convert message (x + (lowering.toLowerCase query).length) (z + query.length) := by
  obtain ⟨before, within, after, front, back, us, hchunks, hpieces, hsource, hus, hlowered, hlen,
    rfl, rfl⟩ := h
  refine ⟨before ++ within, after, front ++ us.map .plain, back, ?_, ?_, ?_, ?_, ?_⟩
  · rw [hchunks, List.append_assoc]
  · rw [hpieces, List.append_assoc]
  · rw [List.flatMap_append, List.flatMap_append, hsource, hus, flatMap_raw_plain]
  · rw [List.flatMap_append, List.length_append, hlowered]
  · rw [List.flatMap_append, List.length_append, flatMap_tokens_plain, List.length_map, hlen]

theorem Covers.begin_cut (hquery : query ≠ []) {x z : Nat}
    (h : Covers lowering convert message query x z) : PlainCut lowering convert message x z := by
  obtain ⟨before, within, after, front, back, us, hchunks, hpieces, hsource, hus, hlowered, hlen,
    hx, hz⟩ := h
  have hlower := List.length_pos_iff.mpr (lowering.toLowerCase_ne hquery)
  have hpos := List.length_pos_iff.mpr hquery
  cases within with
  | nil =>
      rw [← hlowered] at hlower
      exact absurd hlower (Nat.lt_irrefl 0)
  | cons chunk within =>
      cases us with
      | nil =>
          rw [← hlen] at hpos
          exact absurd hpos (Nat.lt_irrefl 0)
      | cons u us =>
          have hpieces : convert.pieces message = front ++ .plain u :: (us.map .plain ++ back) :=
            hpieces
          exact ⟨before, within ++ after, front, us.map .plain ++ back, chunk, u, hchunks, hpieces,
            hsource, hx, hz⟩

theorem Covers.cut {x z : Nat} (h : Covers lowering convert message query x z) :
    Cut lowering convert message x z := by
  obtain ⟨before, within, after, front, back, us, hchunks, hpieces, hsource, _, _, _, hx, hz⟩ := h
  exact ⟨before, within ++ after, front, us.map .plain ++ back, hchunks, hpieces, hsource, hx, hz⟩

theorem aligned_covers (hquery : query ≠ []) :
    Aligned (Covers lowering convert message query) (lowering.toLowerCase query).length
      query.length where
  begins h h' := cut_le_iff h.cut (h'.begin_cut hquery)
  ends h h' := cut_le_iff h.end_cut (h'.begin_cut hquery)

/-- Find mode counts what it marks exactly when what it counts is what the expression matches
somewhere, on the same characters, and the other way round. -/
theorem marksCounted_iff (hquery : query ≠ []) :
    MarksCounted lowering convert canonicalize message query ↔
      (∀ x ∈ counted lowering message query, ∃ z,
        occursAt canonicalize query ((convert.tokens message).drop z) = true ∧
          Covers lowering convert message query x z) ∧
      (∀ z ∈ marked convert canonicalize message query, ∃ x,
        (lowering.toLowerCase query).isPrefixOf ((lowering.toLowerCase message).drop x) = true ∧
          Covers lowering convert message query x z) := by
  have hscan := scan_occurrences (lowering.toLowerCase message) (lowering.toLowerCase_ne hquery)
  have hscan' := @scan_tokens canonicalize query hquery (convert.tokens message)
  have hstart : ∀ {x z}, Covers lowering convert message query x z → (0 ≤ x ↔ 0 ≤ z) :=
    fun _ => iff_of_true (Nat.zero_le _) (Nat.zero_le _)
  have hcount : countMatches lowering.toLowerCase message query =
      (counted lowering message query).length :=
    countMatches_eq lowering.toLowerCase (fun text htext => lowering.toLowerCase_ne htext) hquery
      message
  have hhtml := fun currentPosition =>
    @highlightHtml_marks canonicalize query currentPosition hquery _ (convert.clean message)
  refine Iff.trans ?_ (forall₂_iff (aligned_covers hquery) hscan hscan' hstart)
  rw [forall₂_iff_getElem?]
  constructor
  · rintro ⟨hall, hsame⟩
    refine ⟨?_, hsame⟩
    obtain ⟨_, hlen⟩ := Prod.mk.inj (Option.some.inj ((hall none).symm.trans (hhtml none)))
    exact hcount.symm.trans hlen
  · rintro ⟨hlen, hsame⟩
    refine ⟨fun currentPosition => ?_, hsame⟩
    rw [hcount, hlen]
    exact hhtml currentPosition

end Find

def asciiLowering : Lowering where
  chunks text := text.map fun u => ⟨[u], lowerAscii [u]⟩
  sources text := by
    rw [List.flatMap_map]
    exact List.flatMap_singleton' text
  source_ne h := by
    obtain ⟨u, _, rfl⟩ := List.mem_map.mp h
    exact List.cons_ne_nil u []
  lowered_ne h := by
    obtain ⟨u, _, rfl⟩ := List.mem_map.mp h
    exact List.cons_ne_nil _ []

def plainConverter : Converter where
  pieces message := message.map fun u =>
    if u = ampersand then .entity [u] (JsString.units "amp")
    else if u = lessThan then .entity [u] (JsString.units "lt")
    else if u = greaterThan then .entity [u] (JsString.units "gt")
    else .plain u
  raw message := by
    rw [List.flatMap_map]
    refine Eq.trans (List.flatMap_congr fun u _ => ?_) (List.flatMap_singleton' message)
    split
    · rfl
    split
    · rfl
    split
    · rfl
    · rfl
  escaped h := by
    obtain ⟨u, _, rfl⟩ := List.mem_map.mp h
    split
    · exact (by decide : lessThan ∉ JsString.units "amp" ∧ greaterThan ∉ JsString.units "amp")
    split
    · exact (by decide : lessThan ∉ JsString.units "lt" ∧ greaterThan ∉ JsString.units "lt")
    split
    · exact (by decide : lessThan ∉ JsString.units "gt" ∧ greaterThan ∉ JsString.units "gt")
    · rename_i hamp hlt hgt
      exact ⟨hamp, hlt, hgt⟩

/-- "b" in "aB". -/
theorem marksCounted_plain :
    MarksCounted asciiLowering plainConverter canonicalizeAscii [97, 66] [98] := by
  refine (marksCounted_iff canonicalizeAscii (List.cons_ne_nil _ _)).mpr ?_
  have hcovers : Covers asciiLowering plainConverter [97, 66] [98] 1 1 :=
    ⟨[⟨[97], [97]⟩], [⟨[66], [98]⟩], [], [.plain 97], [], [66], by decide, by decide, by decide,
      by decide, by decide, by decide, by decide, by decide⟩
  constructor
  · intro x hx
    have hcounted : counted asciiLowering [97, 66] [98] = [1] := by decide
    obtain rfl : x = 1 := by simpa [hcounted] using hx
    exact ⟨1, by decide, hcovers⟩
  · intro z hz
    have hmarked : marked plainConverter canonicalizeAscii [97, 66] [98] = [1] := by decide
    obtain rfl : z = 1 := by simpa [hmarked] using hz
    exact ⟨1, by decide, hcovers⟩

/-- "amp" in "&". -/
theorem amp_marked_uncounted :
    ¬ MarksCounted asciiLowering plainConverter canonicalizeAscii [38] (JsString.units "amp") := by
  intro h
  have hcount : (highlightHtml canonicalizeAscii (plainConverter.toHtml [38])
      (JsString.units "amp") none).map Prod.snd =
      some (countMatches asciiLowering.toLowerCase [38] (JsString.units "amp")) := by
    rw [h.count none]
    rfl
  revert hcount
  decide

end NestGateway.Ui.FindCount
