import NestGateway.Ui.LogSearch

/-! # Marks in the html of a log line

`highlightHtml` splits html at its tags and wraps the matches of a query in the
texts between them. A match is found by a regular expression that is the query
with its syntax characters escaped, up to case; `canonicalize` is what such an
expression compares. On html made of tokens, units of text and whole tags, the
function is one scan over the tokens.
-/

namespace NestGateway.Ui.Highlight

open Scans

/-! ## The function -/

def lessThan : UInt16 := 0x3C

def greaterThan : UInt16 := 0x3E

def ampersand : UInt16 := 0x26

def backslash : UInt16 := 0x5C

/-- `[.*+?^$\x7b\x7d()|[\]\\]` -/
def isSyntaxCharacter (u : UInt16) : Bool := u ∈ JsString.units ".*+?^$\x7b\x7d()|[]\\"

/-- `query.replace(/[…]/g, '\\$&')` -/
def escapeQuery (query : JsText) : JsText :=
  query.flatMap fun u => if isSyntaxCharacter u then [backslash, u] else [u]

/-- The characters that a pattern consists of, none for a pattern with other parts. -/
def readPattern : JsText → Option JsText
  | [] => some []
  | [c] => if isSyntaxCharacter c then none else some [c]
  | c :: d :: ds =>
      if c = backslash then
        if isSyntaxCharacter d then (readPattern ds).map (d :: ·) else none
      else if isSyntaxCharacter c then none
      else (readPattern (d :: ds)).map (c :: ·)

/-- `html.split(/(<[^>]*>)/)`: the texts and the tags between them, from inside a tag or not. -/
def splitFrom : Bool → JsText → JsText → List JsText
  | _, part, [] => [part]
  | false, part, c :: cs =>
      if c = lessThan ∧ greaterThan ∈ cs then part :: splitFrom true [c] cs
      else splitFrom false (part ++ [c]) cs
  | true, part, c :: cs =>
      if c = greaterThan then (part ++ [c]) :: splitFrom false [] cs
      else splitFrom true (part ++ [c]) cs

def splitTags (html : JsText) : List JsText := splitFrom false [] html

/-- `part.startsWith('<') && part.endsWith('>')` -/
def isTag (part : JsText) : Bool :=
  part.head? = some lessThan && part.getLast? = some greaterThan

/-- `text.replace(/&/g, '&amp;').replace(/</g, '&lt;').replace(/>/g, '&gt;')` -/
def escapeText (text : JsText) : JsText :=
  let replaceAll (u : UInt16) (entity : String) (text : JsText) : JsText :=
    text.flatMap fun c => if c = u then JsString.units entity else [c]
  replaceAll greaterThan "&gt;" (replaceAll lessThan "&lt;" (replaceAll ampersand "&amp;" text))

/-- What stands between `<` and `>` in the tag that opens a mark. -/
def markInside (current : Bool) : JsText :=
  JsString.units
    (if current then "mark class=\"match-highlight-current\"" else "mark class=\"match-highlight\"")

def closeInside : JsText := JsString.units "/mark"

def tagText (inside : JsText) : JsText := lessThan :: (inside ++ [greaterThan])

def markText (current : Bool) (text : JsText) : JsText :=
  tagText (markInside current) ++ escapeText text ++ tagText closeInside

section Function

variable (canonicalize : UInt16 → UInt16)

/-- What the expression of some characters matches at the beginning of a text. -/
def matchHere : JsText → JsText → Option JsText
  | [], _ => some []
  | _ :: _, [] => none
  | u :: us, c :: cs =>
      if canonicalize c = canonicalize u then (matchHere us cs).map (c :: ·) else none

variable (chars : JsText) (currentPosition : Option Int)

/-- `part.replace(regex, …)` with the global index; the first units may be of the last match. -/
def replaceFrom : Nat → Nat → JsText → JsText × Nat
  | _, index, [] => ([], index)
  | skip + 1, index, _ :: cs => replaceFrom skip index cs
  | 0, index, c :: cs =>
      match matchHere canonicalize chars (c :: cs) with
      | some text =>
          let rest := replaceFrom (text.length - 1) (index + 1) cs
          (markText (currentPosition = some (index : Int)) text ++ rest.1, rest.2)
      | none =>
          let rest := replaceFrom 0 index cs
          (c :: rest.1, rest.2)

/-- `parts.map(…)` and `result.join('')`. -/
def mapParts : Nat → List JsText → JsText × Nat
  | index, [] => ([], index)
  | index, part :: parts =>
      let out := if isTag part then (part, index)
        else replaceFrom canonicalize chars currentPosition 0 index part
      let rest := mapParts out.2 parts
      (out.1 ++ rest.1, rest.2)

end Function

/-- The html and the number of matches, none when `new RegExp` throws. -/
def highlightHtml (canonicalize : UInt16 → UInt16) (html query : JsText)
    (currentPosition : Option Int) : Option (JsText × Nat) :=
  if query = [] then some (html, 0)
  else (readPattern (escapeQuery query)).map fun chars =>
    mapParts canonicalize chars currentPosition 0 (splitTags html)

theorem isSyntaxCharacter_backslash : isSyntaxCharacter backslash = true := by decide

theorem readPattern_cons {c : UInt16} (h : isSyntaxCharacter c = false) (cs : JsText) :
    readPattern (c :: cs) = (readPattern cs).map (c :: ·) := by
  have hne : c ≠ backslash := by
    rintro rfl
    rw [isSyntaxCharacter_backslash] at h
    cases h
  cases cs with
  | nil => simp [readPattern, h]
  | cons d ds => simp [readPattern, h, hne]

/-- The escaped query is the query, character by character. -/
theorem readPattern_escapeQuery (query : JsText) :
    readPattern (escapeQuery query) = some query := by
  induction query with
  | nil => rfl
  | cons u us ih =>
      unfold escapeQuery at ih ⊢
      rw [List.flatMap_cons]
      cases hu : isSyntaxCharacter u with
      | true => simp [readPattern, hu, ih]
      | false => simp [readPattern_cons hu, ih]

theorem highlightHtml_eq (canonicalize : UInt16 → UInt16) (html : JsText) {query : JsText}
    (hquery : query ≠ []) (currentPosition : Option Int) :
    highlightHtml canonicalize html query currentPosition =
      some (mapParts canonicalize query currentPosition 0 (splitTags html)) := by
  rw [highlightHtml, if_neg hquery, readPattern_escapeQuery]
  rfl

/-- A unit of text, or a tag by what stands between its `<` and `>`. -/
inductive Token where
  | unit (u : UInt16)
  | tag (inside : JsText)
  deriving Repr, DecidableEq

def Token.text : Token → JsText
  | .unit u => [u]
  | .tag inside => tagText inside

def render (tokens : List Token) : JsText := tokens.flatMap Token.text

/-- The text has no `<`, and a tag ends with the first `>`. -/
def Token.Clean : Token → Prop
  | .unit u => u ≠ lessThan
  | .tag inside => greaterThan ∉ inside

def Clean (tokens : List Token) : Prop := ∀ t ∈ tokens, t.Clean

theorem clean_cons {t : Token} {tokens : List Token} :
    Clean (t :: tokens) ↔ t.Clean ∧ Clean tokens := List.forall_mem_cons

theorem render_cons (t : Token) (tokens : List Token) :
    render (t :: tokens) = t.text ++ render tokens := List.flatMap_cons

theorem render_append (tokens tokens' : List Token) :
    render (tokens ++ tokens') = render tokens ++ render tokens' := List.flatMap_append

theorem render_units (text : JsText) : render (text.map .unit) = text := by
  unfold render
  rw [List.flatMap_map]
  exact List.flatMap_singleton' text

theorem splitFrom_unit {u : UInt16} (h : u ≠ lessThan) (part cs : JsText) :
    splitFrom false part (u :: cs) = splitFrom false (part ++ [u]) cs := by
  rw [splitFrom, if_neg fun hu => h hu.1]

theorem splitFrom_tag {inside : JsText} (h : greaterThan ∉ inside) (part cs : JsText) :
    splitFrom false part (tagText inside ++ cs) =
      part :: tagText inside :: splitFrom false [] cs := by
  have hinside : ∀ (front inside : JsText), greaterThan ∉ inside →
      splitFrom true front (inside ++ greaterThan :: cs) =
        (front ++ inside ++ [greaterThan]) :: splitFrom false [] cs := by
    intro front inside h
    induction inside generalizing front with
    | nil => rw [List.nil_append, splitFrom, if_pos rfl, List.append_nil]
    | cons u us ih =>
        rw [List.mem_cons, not_or] at h
        obtain ⟨hu, hus⟩ := h
        rw [List.cons_append, splitFrom, if_neg (Ne.symm hu), ih _ hus]
        simp
  have hend : greaterThan ∈ inside ++ greaterThan :: cs := by simp
  unfold tagText
  rw [List.cons_append, List.append_assoc, List.singleton_append, splitFrom,
    if_pos ⟨rfl, hend⟩, hinside _ _ h]
  rfl

theorem isTag_tagText (inside : JsText) : isTag (tagText inside) = true := by
  unfold isTag tagText
  rw [← List.cons_append, List.getLast?_concat]
  rfl

theorem isTag_of_clean {part : JsText} (h : ∀ u ∈ part, u ≠ lessThan) : isTag part = false := by
  unfold isTag
  cases part with
  | nil => rfl
  | cons u us =>
      have hu := h u List.mem_cons_self
      simp [hu]

/-! ## A scan over the tokens -/

def markTokens (current : Bool) (text : JsText) : List Token :=
  .tag (markInside current) :: ((escapeText text).map .unit ++ [.tag closeInside])

theorem render_markTokens (current : Bool) (text : JsText) :
    render (markTokens current text) = markText current text := by
  unfold markTokens markText
  rw [render_cons, render_append, render_units, ← List.append_assoc]
  show _ ++ (tagText closeInside ++ []) = _
  rw [List.append_nil]
  rfl

section Function

variable (canonicalize : UInt16 → UInt16)

def matchTokens : JsText → List Token → Option JsText
  | [], _ => some []
  | _ :: _, [] => none
  | u :: us, .unit c :: ts =>
      if canonicalize c = canonicalize u then (matchTokens us ts).map (c :: ·) else none
  | _ :: _, .tag _ :: _ => none

def occursAt (chars : JsText) (tokens : List Token) : Bool :=
  (matchTokens canonicalize chars tokens).isSome

variable (chars : JsText) (currentPosition : Option Int)

/-- The marked tokens and the number of marks; the first tokens may be of the last match. -/
def highlightFrom : Nat → Nat → List Token → List Token × Nat
  | _, index, [] => ([], index)
  | skip + 1, index, _ :: ts => highlightFrom skip index ts
  | 0, index, t :: ts =>
      match matchTokens canonicalize chars (t :: ts) with
      | some text =>
          let rest := highlightFrom (text.length - 1) (index + 1) ts
          (markTokens (currentPosition = some (index : Int)) text ++ rest.1, rest.2)
      | none =>
          let rest := highlightFrom 0 index ts
          (t :: rest.1, rest.2)

variable {canonicalize chars}

theorem length_matchTokens {tokens : List Token} {text : JsText}
    (h : matchTokens canonicalize chars tokens = some text) :
    text.length = chars.length ∧ tokens = text.map .unit ++ tokens.drop text.length := by
  induction chars generalizing tokens text with
  | nil =>
      obtain rfl := Option.some.inj h
      exact ⟨rfl, rfl⟩
  | cons u us ih =>
      cases tokens with
      | nil => cases h
      | cons t ts =>
          cases t with
          | tag inside => cases h
          | unit c =>
              rw [matchTokens] at h
              split at h
              · obtain ⟨text', htext, rfl⟩ := Option.map_eq_some_iff.mp h
                obtain ⟨hlen, htokens⟩ := ih htext
                refine ⟨by rw [List.length_cons, hlen, List.length_cons], ?_⟩
                rw [List.map_cons, List.cons_append, List.length_cons, List.drop_succ_cons]
                exact congrArg (List.cons _) htokens
              · cases h

theorem drop_of_match {tokens : List Token} {p : Nat} {text : JsText}
    (h : matchTokens canonicalize chars (tokens.drop p) = some text) :
    tokens.drop p = text.map .unit ++ tokens.drop (p + chars.length) := by
  obtain ⟨hlen, htokens⟩ := length_matchTokens h
  rwa [hlen, List.drop_drop] at htokens

def EndsText (rest : List Token) : Prop := ∀ t ∈ rest.head?, ∃ inside, t = .tag inside

theorem matchTokens_units (us : JsText) {rest : List Token} (hrest : EndsText rest) :
    matchTokens canonicalize chars (us.map .unit ++ rest) = matchHere canonicalize chars us := by
  induction chars generalizing us with
  | nil => simp [matchTokens, matchHere]
  | cons c cs ih =>
      cases us with
      | nil =>
          cases rest with
          | nil => rfl
          | cons t ts =>
              obtain ⟨inside, rfl⟩ := hrest t rfl
              rfl
      | cons u us => simp [matchTokens, matchHere, ih]

theorem length_matchHere {us text : JsText} (h : matchHere canonicalize chars us = some text) :
    text.length ≤ us.length := by
  have hmatch := @matchTokens_units canonicalize chars us [] fun t ht => nomatch ht
  obtain ⟨_, htokens⟩ := length_matchTokens (hmatch.trans h)
  have hlen := congrArg List.length htokens
  simp only [List.append_nil, List.length_map, List.length_append] at hlen
  omega

/-- The marks of a text, and then those of what follows it. -/
theorem highlightFrom_units (us : JsText) {rest : List Token} (hrest : EndsText rest)
    {skip : Nat} (hskip : skip ≤ us.length) (index : Nat) :
    render (highlightFrom canonicalize chars currentPosition skip index
        (us.map .unit ++ rest)).1 =
      (replaceFrom canonicalize chars currentPosition skip index us).1 ++
        render (highlightFrom canonicalize chars currentPosition 0
          (replaceFrom canonicalize chars currentPosition skip index us).2 rest).1 ∧
    (highlightFrom canonicalize chars currentPosition skip index (us.map .unit ++ rest)).2 =
      (highlightFrom canonicalize chars currentPosition 0
        (replaceFrom canonicalize chars currentPosition skip index us).2 rest).2 := by
  induction us generalizing skip index with
  | nil =>
      obtain rfl : skip = 0 := Nat.le_zero.mp hskip
      simp [replaceFrom]
  | cons u us ih =>
      cases skip with
      | succ skip =>
          have hmore := ih (Nat.le_of_succ_le_succ hskip) index
          simpa [highlightFrom, replaceFrom] using hmore
      | zero =>
          have hmatch : matchTokens canonicalize chars (.unit u :: (us.map .unit ++ rest)) =
              matchHere canonicalize chars (u :: us) := matchTokens_units (u :: us) hrest
          rw [List.map_cons, List.cons_append, highlightFrom, replaceFrom, hmatch]
          cases htext : matchHere canonicalize chars (u :: us) with
          | none =>
              have hmore := ih (Nat.zero_le _) index
              simpa [render_cons, Token.text] using hmore
          | some text =>
              have hlen : text.length - 1 ≤ us.length := by
                have hle := length_matchHere htext
                rw [List.length_cons] at hle
                omega
              have hmore := ih hlen (index + 1)
              simpa [render_append, render_markTokens] using hmore

theorem mapParts_tag {part : JsText} (index : Nat) (h : isTag part = true)
    (parts : List JsText) :
    mapParts canonicalize chars currentPosition index (part :: parts) =
      (part ++ (mapParts canonicalize chars currentPosition index parts).1,
        (mapParts canonicalize chars currentPosition index parts).2) := by
  simp [mapParts, h]

theorem mapParts_text {part : JsText} (index : Nat) (h : isTag part = false)
    (parts : List JsText) :
    mapParts canonicalize chars currentPosition index (part :: parts) =
      ((replaceFrom canonicalize chars currentPosition 0 index part).1 ++
          (mapParts canonicalize chars currentPosition
            (replaceFrom canonicalize chars currentPosition 0 index part).2 parts).1,
        (mapParts canonicalize chars currentPosition
          (replaceFrom canonicalize chars currentPosition 0 index part).2 parts).2) := by
  simp [mapParts, h]

variable (hchars : chars ≠ [])
include hchars

theorem highlightFrom_tag (inside : JsText) (tokens : List Token) (index : Nat) :
    highlightFrom canonicalize chars currentPosition 0 index (.tag inside :: tokens) =
      (.tag inside :: (highlightFrom canonicalize chars currentPosition 0 index tokens).1,
        (highlightFrom canonicalize chars currentPosition 0 index tokens).2) := by
  cases chars with
  | nil => exact absurd rfl hchars
  | cons u us => rfl

/-- The function over the parts of rendered tokens is the scan over the tokens. -/
theorem mapParts_render {tokens : List Token} (hclean : Clean tokens) {part : JsText}
    (hpart : ∀ u ∈ part, u ≠ lessThan) (index : Nat) :
    mapParts canonicalize chars currentPosition index (splitFrom false part (render tokens)) =
      (render (highlightFrom canonicalize chars currentPosition 0 index
        (part.map .unit ++ tokens)).1,
      (highlightFrom canonicalize chars currentPosition 0 index (part.map .unit ++ tokens)).2) := by
  induction tokens generalizing part index with
  | nil =>
      have hends : EndsText [] := fun t ht => nomatch ht
      obtain ⟨htext, hcount⟩ := @highlightFrom_units canonicalize chars currentPosition part []
        hends 0 (Nat.zero_le _) index
      rw [htext, hcount]
      simp [render, splitFrom, mapParts, isTag_of_clean hpart, highlightFrom]
  | cons t tokens ih =>
      obtain ⟨ht, htokens⟩ := clean_cons.mp hclean
      cases t with
      | unit u =>
          have hpart' : ∀ v ∈ part ++ [u], v ≠ lessThan := by
            intro v hv
            rcases List.mem_append.mp hv with hv | hv
            · exact hpart v hv
            · exact List.mem_singleton.mp hv ▸ ht
          have hmore := ih htokens hpart' index
          rw [render_cons, Token.text, List.singleton_append, splitFrom_unit ht, hmore]
          simp
      | tag inside =>
          have hends : EndsText (.tag inside :: tokens) :=
            fun t ht => ⟨inside, (Option.some.inj ht).symm⟩
          obtain ⟨htext, hcount⟩ := @highlightFrom_units canonicalize chars currentPosition part
            (.tag inside :: tokens) hends 0 (Nat.zero_le _) index
          have hnone : ∀ u ∈ ([] : JsText), u ≠ lessThan := fun u hu => nomatch hu
          have hmore := ih htokens hnone
            (replaceFrom canonicalize chars currentPosition 0 index part).2
          rw [htext, hcount, render_cons, Token.text, splitFrom_tag ht,
            highlightFrom_tag currentPosition hchars, render_cons, Token.text]
          rw [mapParts_text _ _ (isTag_of_clean hpart), mapParts_tag _ _ (isTag_tagText inside),
            hmore]
          rfl

theorem highlightHtml_render {tokens : List Token} (hclean : Clean tokens) :
    highlightHtml canonicalize (render tokens) chars currentPosition =
      some (render (highlightFrom canonicalize chars currentPosition 0 0 tokens).1,
        (highlightFrom canonicalize chars currentPosition 0 0 tokens).2) := by
  have hnone : ∀ u ∈ ([] : JsText), u ≠ lessThan := fun u hu => nomatch hu
  rw [highlightHtml_eq _ _ hchars, splitTags, mapParts_render currentPosition hchars hclean hnone]
  rfl

omit hchars in
theorem highlightFrom_skip (skip index : Nat) (tokens : List Token) :
    highlightFrom canonicalize chars currentPosition skip index tokens =
      highlightFrom canonicalize chars currentPosition 0 index (tokens.drop skip) := by
  induction tokens generalizing skip with
  | nil => cases skip <;> rfl
  | cons t ts ih =>
      cases skip with
      | zero => rfl
      | succ skip =>
          rw [highlightFrom, ih]
          rfl

omit hchars in
theorem highlightFrom_before (index : Nat) (tokens : List Token) {n : Nat} (hn : n ≤ tokens.length)
    (h : ∀ p < n, occursAt canonicalize chars (tokens.drop p) = false) :
    highlightFrom canonicalize chars currentPosition 0 index tokens =
      (tokens.take n ++
          (highlightFrom canonicalize chars currentPosition 0 index (tokens.drop n)).1,
        (highlightFrom canonicalize chars currentPosition 0 index (tokens.drop n)).2) := by
  induction n generalizing tokens with
  | zero => rfl
  | succ n ih =>
      cases tokens with
      | nil => cases hn
      | cons t ts =>
          have hfirst : matchTokens canonicalize chars (t :: ts) = none :=
            Option.not_isSome_iff_eq_none.mp (Bool.eq_false_iff.mp (h 0 (Nat.succ_pos n)))
          have hmore := ih ts (Nat.le_of_succ_le_succ hn) fun p hp =>
            h (p + 1) (Nat.succ_lt_succ hp)
          rw [highlightFrom, hfirst]
          dsimp only
          rw [hmore]
          rfl

theorem highlightFrom_match (index : Nat) {tokens : List Token} {text : JsText}
    (h : matchTokens canonicalize chars tokens = some text) :
    highlightFrom canonicalize chars currentPosition 0 index tokens =
      (markTokens (currentPosition = some (index : Int)) text ++
          (highlightFrom canonicalize chars currentPosition 0 (index + 1)
            (tokens.drop chars.length)).1,
        (highlightFrom canonicalize chars currentPosition 0 (index + 1)
          (tokens.drop chars.length)).2) := by
  have hlen := (length_matchTokens h).1
  have hpos := List.length_pos_iff.mpr hchars
  cases tokens with
  | nil =>
      cases chars with
      | nil => exact absurd rfl hchars
      | cons u us => cases h
  | cons t ts =>
      have hdrop : ts.drop (text.length - 1) = (t :: ts).drop chars.length := by
        obtain ⟨n, hn⟩ := Nat.exists_eq_succ_of_ne_zero (Nat.ne_of_gt hpos)
        rw [hlen, hn]
        rfl
      rw [highlightFrom, h]
      dsimp only
      rw [highlightFrom_skip, hdrop]

theorem le_length_of_match {tokens : List Token} {p : Nat} {text : JsText}
    (h : matchTokens canonicalize chars (tokens.drop p) = some text) : p ≤ tokens.length := by
  by_contra hgt
  rw [List.drop_eq_nil_of_le (by omega)] at h
  cases chars with
  | nil => exact hchars rfl
  | cons u us => cases h

theorem highlightFrom_take {tokens : List Token} {s p : Nat} (hsp : s ≤ p) {text : JsText}
    (hmatch : matchTokens canonicalize chars (tokens.drop p) = some text)
    (hfirst : ∀ q, s ≤ q → occursAt canonicalize chars (tokens.drop q) = true → p ≤ q)
    (index : Nat) :
    highlightFrom canonicalize chars currentPosition 0 index (tokens.drop s) =
      ((tokens.drop s).take (p - s) ++
          (markTokens (currentPosition = some (index : Int)) text ++
            (highlightFrom canonicalize chars currentPosition 0 (index + 1)
              (tokens.drop (p + chars.length))).1),
        (highlightFrom canonicalize chars currentPosition 0 (index + 1)
          (tokens.drop (p + chars.length))).2) := by
  have hp := le_length_of_match hchars hmatch
  have hbefore : ∀ q < p - s, occursAt canonicalize chars ((tokens.drop s).drop q) = false := by
    intro q hq
    rw [List.drop_drop, ← Bool.not_eq_true]
    intro hoccurs
    have := hfirst (s + q) (Nat.le_add_right s q) hoccurs
    omega
  have hdrop : (tokens.drop s).drop (p - s) = tokens.drop p := by
    rw [List.drop_drop, Nat.add_sub_cancel' hsp]
  rw [highlightFrom_before currentPosition index _ (by rw [List.length_drop]; omega) hbefore,
    hdrop, highlightFrom_match currentPosition hchars index hmatch, List.drop_drop]

omit hchars in
theorem highlightFrom_done {tokens : List Token} {s : Nat}
    (h : ∀ p, s ≤ p → ¬ occursAt canonicalize chars (tokens.drop p) = true) (index : Nat) :
    highlightFrom canonicalize chars currentPosition 0 index (tokens.drop s) =
      (tokens.drop s, index) := by
  have hbefore : ∀ q < (tokens.drop s).length,
      occursAt canonicalize chars ((tokens.drop s).drop q) = false := by
    intro q _
    rw [List.drop_drop, ← Bool.not_eq_true]
    exact h _ (Nat.le_add_right s q)
  rw [highlightFrom_before currentPosition index _ (Nat.le_refl _) hbefore, List.take_length,
    List.drop_length, highlightFrom, List.append_nil]

theorem scan_tokens (tokens : List Token) :
    Scan (fun p => occursAt canonicalize chars (tokens.drop p) = true) chars.length 0
      (hits (occursAt canonicalize chars) chars.length tokens) := by
  refine scan_hits ?_ (List.length_pos_iff.mpr hchars) tokens
  cases chars with
  | nil => exact absurd rfl hchars
  | cons u us => rfl

def textOf (tokens : List Token) : JsText :=
  tokens.filterMap fun t =>
    match t with
    | .unit u => some u
    | .tag _ => none

omit hchars in
theorem textOf_units (us : JsText) : textOf (us.map .unit) = us := by
  induction us with
  | nil => rfl
  | cons u us ih => exact congrArg (u :: ·) ih

/-- The tokens from `s` on with a mark of `m` units at each of the places, which are numbered from
`index` on. -/
def withMarks (m : Nat) (currentPosition : Option Int) (tokens : List Token) :
    Nat → Nat → List Nat → List Token
  | s, _, [] => tokens.drop s
  | s, index, z :: zs =>
      (tokens.drop s).take (z - s) ++
        (markTokens (currentPosition = some (index : Int)) (textOf ((tokens.drop z).take m)) ++
          withMarks m currentPosition tokens (z + m) (index + 1) zs)

theorem highlightFrom_eq {tokens : List Token} {s : Nat} {zs : List Nat}
    (h : Scan (fun p => occursAt canonicalize chars (tokens.drop p) = true) chars.length s zs)
    (index : Nat) :
    highlightFrom canonicalize chars currentPosition 0 index (tokens.drop s) =
      (withMarks chars.length currentPosition tokens s index zs, index + zs.length) := by
  induction h generalizing index with
  | done none =>
      rw [highlightFrom_done currentPosition none]
      rfl
  | @take s z zs later here first rest ih =>
      obtain ⟨us, hus⟩ := Option.isSome_iff_exists.mp here
      have hlen := (length_matchTokens hus).1
      have htext : textOf ((tokens.drop z).take chars.length) = us := by
        rw [drop_of_match hus, ← hlen, List.take_append_of_le_length (by simp),
          List.take_of_length_le (by simp), textOf_units]
      rw [highlightFrom_take currentPosition hchars later hus first index, ih (index + 1),
        withMarks, htext, List.length_cons]
      congr 1
      omega

/-- The html has its marks at the places that a scan takes. -/
theorem highlightHtml_marks {tokens : List Token} (hclean : Clean tokens) :
    highlightHtml canonicalize (render tokens) chars currentPosition =
      some (render (withMarks chars.length currentPosition tokens 0 0
          (hits (occursAt canonicalize chars) chars.length tokens)),
        (hits (occursAt canonicalize chars) chars.length tokens).length) := by
  have hscan := @scan_tokens canonicalize chars hchars tokens
  have hall := highlightFrom_eq currentPosition hchars hscan 0
  rw [List.drop_zero, Nat.zero_add] at hall
  rw [highlightHtml_render currentPosition hchars hclean, hall]

end Function

/-- `Canonicalize` of a regular expression on ASCII characters. -/
def canonicalizeAscii (u : UInt16) : UInt16 := if 97 ≤ u && u ≤ 122 then u - 32 else u

end NestGateway.Ui.Highlight
