import NestGateway.Core.GoJsonText
import NestGateway.LogReader.Parser

/-! # Lines of Log4j2, written and parsed

The two formats a line of Log4j2 has, as structures that keep to their rules, and
what the parser reads from their lines: the fields that were written. The
contexts in brackets end up in the metadata, without the white space around them.
-/

namespace NestGateway.LogReader

open Text Regex Re GoJson

structure Digits (n : Nat) where
  chars : List Char
  length_eq : chars.length = n
  digits : ∀ c ∈ chars, isDigit c = true

/-- `YYYY-MM-DD HH:mm:ss[.,]SSS` -/
structure Timestamp where
  year : Digits 4
  month : Digits 2
  day : Digits 2
  hour : Digits 2
  minute : Digits 2
  second : Digits 2
  separator : Char
  point_or_comma : (separator == '.' || separator == ',') = true
  millisecond : Digits 3

def Timestamp.chars (t : Timestamp) : List Char :=
  t.year.chars ++ '-' :: (t.month.chars ++ '-' :: (t.day.chars ++ ' ' :: (t.hour.chars ++ ':' ::
    (t.minute.chars ++ ':' :: (t.second.chars ++ t.separator :: t.millisecond.chars)))))

/-- A level in capital letters. -/
structure Level where
  chars : List Char
  nonempty : chars ≠ []
  upper : ∀ c ∈ chars, 'A' ≤ c ∧ c ≤ 'Z'

/-- The white space of `\s`. -/
def isPatternSpace (c : Char) : Bool := c ∈ ['\t', '\n', Char.ofNat 0x0C, '\r', ' ']

/-- `[LEVEL ] timestamp [ctx1] … [ctxn] [source] message` -/
structure BracketLine where
  level : Level
  padding : Nat
  timestamp : Timestamp
  contexts : List String
  contexts_open : ∀ ctx ∈ contexts, ']' ∉ ctx.toList
  source : String
  source_nonempty : source ≠ ""
  source_open : ']' ∉ source.toList
  message : String
  message_line : '\n' ∉ message.toList
  message_start : ∀ c ∈ message.toList.head?, c ≠ '[' ∧ isPatternSpace c = false

def bracketed (text : String) : List Char := ' ' :: '[' :: (text.toList ++ [']'])

def BracketLine.text (e : BracketLine) : String :=
  String.ofList ('[' :: (e.level.chars ++ (List.replicate e.padding ' ' ++ ']' :: ' ' ::
    (e.timestamp.chars ++ ((e.contexts.map bracketed).flatten ++
      (bracketed e.source ++ ' ' :: e.message.toList))))))

/-- `timestamp LEVEL source - message` -/
structure PlainLine where
  level : Level
  padding : Nat
  timestamp : Timestamp
  source : String
  source_nonempty : source ≠ ""
  source_solid : ∀ c ∈ source.toList, isPatternSpace c = false
  message : String
  message_line : '\n' ∉ message.toList
  message_start : ∀ c ∈ message.toList.head?, isPatternSpace c = false

def PlainLine.text (e : PlainLine) : String :=
  String.ofList (e.timestamp.chars ++ ' ' :: (e.level.chars ++
    (List.replicate (e.padding + 1) ' ' ++ (e.source.toList ++ ' ' :: '-' :: ' ' ::
      e.message.toList))))

/-- The key and the value of a context that has both, at its first colon. -/
def keyed (ctx : String) : Option (String × String) :=
  let key := ctx.toList.takeWhile (· != ':')
  if 0 < key.length ∧ key.length < ctx.toList.length then
    some (String.ofList key, String.ofList (ctx.toList.drop (key.length + 1)))
  else none

section Runtime

variable (rt : Runtime)

/-- The keys of the contexts in lower case, with their values. -/
def keyedContexts (contexts : List String) : List (String × String) :=
  contexts.filterMap fun ctx => (keyed (trimSpace ctx)).map fun m => (toLower rt m.1, m.2)

/-- The contexts that are not blank and have no key. -/
def plainContexts (contexts : List String) : List String :=
  (contexts.map trimSpace).filter fun ctx => ctx ≠ "" ∧ keyed ctx = none

def numberedContexts (n : Nat) (contexts : List String) : List (String × String) :=
  ((plainContexts contexts).zipIdx n).map fun m => ("ctx" ++ Nat.repr m.2, m.1)

/-- The keys differ from one another, and from the numbered ones. -/
structure DistinctKeys (contexts : List String) : Prop where
  nodup : ((keyedContexts rt contexts).map Prod.fst).Nodup
  unnumbered : ∀ key ∈ (keyedContexts rt contexts).map Prod.fst, ∀ n, key ≠ "ctx" ++ Nat.repr n

/-- The metadata is the text of this map, empty when the map is. -/
def Decodes (metadata : String) (ms : List (String × String)) : Prop :=
  if ms = [] then metadata = ""
  else ∃ data, unmarshalMap rt metadata = some data ∧ data.Perm (strMembers ms)

/-- `strings.ToUpper` leaves capital letters. -/
def KeepsCapitals : Prop := ∀ c, 'A' ≤ c → c ≤ 'Z' → rt.toUpper c = c

end Runtime

theorem capital_range {c : Char} (h : 'A' ≤ c ∧ c ≤ 'Z') : 65 ≤ c.toNat ∧ c.toNat ≤ 90 := by
  simp only [Char.le_def, UInt32.le_iff_toNat_le] at h
  exact h

theorem isSpace_capital {c : Char} (h : 'A' ≤ c ∧ c ≤ 'Z') : isSpace c = false := by
  obtain ⟨hlow, hhigh⟩ := capital_range h
  exact isSpace_visible (by omega) (by omega)

theorem isPatternSpace_visible {c : Char} (h : 0x20 < c.toNat) : isPatternSpace c = false := by
  have hne : ∀ w : Char, w.toNat ≤ 0x20 → c ≠ w := by
    intro w hw hcw
    subst hcw
    omega
  simp only [isPatternSpace, List.mem_cons, List.not_mem_nil, or_false, decide_eq_false_iff_not,
    not_or]
  exact ⟨hne _ (by decide), hne _ (by decide), hne _ (by decide), hne _ (by decide),
    hne _ (by decide)⟩

theorem isPatternSpace_digit {c : Char} (h : isDigit c = true) : isPatternSpace c = false :=
  isPatternSpace_visible (by have := isDigit_range h; omega)

theorem bne_of_not_mem {d : Char} {cs : List Char} (h : d ∉ cs) : ∀ c ∈ cs, (c != d) = true := by
  intro c hc
  have hne : c ≠ d := fun heq => h (heq ▸ hc)
  exact bne_iff_ne.mpr hne

/-! ## The parts of a line -/

section Parts

variable (rest : List Char)

theorem takes_timestamp (t : Timestamp) : Takes timestampRe t.chars rest := by
  have hdigits {n : Nat} (d : Digits n) (rest : List Char) :
      Takes (times n digit) d.chars rest := by
    have h := takes_times d.digits rest
    rwa [d.length_eq] at h
  have hbar : ('-' == '-') = true := rfl
  have hcolon : (':' == ':') = true := rfl
  exact Takes.seq (hdigits _ _) (Takes.cons hbar (Takes.seq (hdigits _ _) (Takes.cons hbar
    (Takes.seq (hdigits _ _) (Takes.cons (by decide) (Takes.seq (hdigits _ _) (Takes.cons hcolon
      (Takes.seq (hdigits _ _) (Takes.cons hcolon (Takes.seq (hdigits _ _)
        (Takes.cons t.point_or_comma (hdigits _ _))))))))))))

theorem takes_level (level : Level) {rest : List Char} (hrest : NoHead (fun c =>
    isDigit c || ('a' ≤ c && c ≤ 'z') || ('A' ≤ c && c ≤ 'Z') || c == '_') rest) :
    Takes (plus word) level.chars rest := by
  apply takes_plus level.nonempty _ hrest
  intro c hc
  obtain ⟨hlow, hhigh⟩ := level.upper c hc
  simp [hlow, hhigh]

theorem takes_padding (n : Nat) {rest : List Char} (hrest : NoHead isPatternSpace rest) :
    Takes (star space) (List.replicate n ' ') rest := by
  apply takes_star _ hrest
  intro c hc
  rw [List.eq_of_mem_replicate hc]
  decide

theorem takes_blank {rest : List Char} (hrest : NoHead isPatternSpace rest) :
    Takes (plus space) [' '] rest := by
  apply takes_plus (List.cons_ne_nil _ _) _ hrest
  intro c hc
  rw [List.mem_singleton.mp hc]
  decide

theorem timestamp_head (t : Timestamp) : ∃ c cs, t.chars = c :: cs ∧ isDigit c = true := by
  cases hyear : t.year.chars with
  | nil =>
      have hlength := t.year.length_eq
      rw [hyear] at hlength
      cases hlength
  | cons c cs =>
      refine ⟨c, _, by rw [Timestamp.chars, hyear]; rfl, t.year.digits c ?_⟩
      rw [hyear]
      exact List.mem_cons_self

/-- A bracketed text is taken as a whole or not at all. -/
theorem forces_bracketed {text : String} (h : ']' ∉ text.toList) :
    Forces (all [plus space, char '[', star (notChar ']'), char ']']) (bracketed text) rest := by
  have hbody : Forces (seq (star (notChar ']')) (char ']')) (text.toList ++ [']']) rest := by
    apply forces_until _ (by decide) (by decide)
    intro c hc
    have hne := bne_of_not_mem h c hc
    exact ⟨hne, beq_false_of_ne (bne_iff_ne.mp hne)⟩
  have hopening : NoHead isPatternSpace ('[' :: (text.toList ++ [']'] ++ rest)) :=
    noHead_cons (by decide) _
  exact Forces.seq (forces_plus (by decide) hopening) (Forces.seq (forces_cls (by decide) _) hbody)

theorem captures_message (n : Nat) {message : String} (hline : '\n' ∉ message.toList)
    (hstart : NoHead isPatternSpace message.toList) :
    Captures (seq (plus space) (seq (group n (star dot)) eol)) (' ' :: message.toList) []
      [(n, message)] := by
  have hdot : Takes (star dot) message.toList [] := by
    apply takes_star
    · exact bne_of_not_mem hline
    · exact fun c hc => by cases hc
  have hmessage : Captures (seq (group n (star dot)) eol) message.toList []
      [(n, message)] := by
    have h := (Captures.group n hdot.captures).seq captures_eol
    rwa [List.append_nil, String.ofList_toList] at h
  have hspace : Takes (plus space) [' '] (message.toList ++ []) := by
    apply takes_blank
    rwa [List.append_nil]
  exact hspace.captures.seq hmessage

end Parts

/-! ## The fields of a line with brackets -/

section Bracket

variable (e : BracketLine)

def sourceRe : Re :=
  all [plus space, char '[', group 4 (plus (notChar ']')), char ']', plus space,
    group 5 (star dot), eol]

theorem message_noHead : NoHead isPatternSpace e.message.toList :=
  fun c hc => (e.message_start c hc).2

theorem captures_source :
    Captures sourceRe (bracketed e.source ++ ' ' :: e.message.toList) []
      [(5, e.message), (4, e.source)] := by
  have htext : bracketed e.source ++ ' ' :: e.message.toList =
      ' ' :: '[' :: (e.source.toList ++ ']' :: ' ' :: e.message.toList) := by simp [bracketed]
  have hmessage := captures_message 5 e.message_line (message_noHead e)
  have hclosing := (takes_char ']' (' ' :: e.message.toList ++ [])).captures.seq hmessage
  have hsource : Takes (plus (notChar ']')) e.source.toList
      (']' :: ' ' :: e.message.toList ++ []) := by
    apply takes_plus
    · exact fun h => e.source_nonempty (String.toList_eq_nil_iff.mp h)
    · exact bne_of_not_mem e.source_open
    · exact noHead_cons (by decide) _
  have hgroup := (Captures.group 4 hsource.captures).seq hclosing
  have hopening := (takes_char '[' _).captures.seq hgroup
  have hspace : Takes (plus space) [' ']
      (['['] ++ (e.source.toList ++ ([']'] ++ ' ' :: e.message.toList)) ++ []) := by
    apply takes_blank
    exact noHead_cons (by decide) _
  have hall := hspace.captures.seq hopening
  rw [String.ofList_toList] at hall
  rw [htext]
  exact hall

/-- After the bracket of the source, neither a context nor the source can follow. -/
theorem fails_after_source (b : Re) :
    Fails (seq (plus space) (seq (char '[') b)) (' ' :: e.message.toList) := by
  have hbracket : NoHead (· == '[') e.message.toList := by
    intro c hc
    simp [(e.message_start c hc).1]
  exact (forces_plus (by decide) (message_noHead e)).fails (Fails.seq (fails_cls hbracket))

/-- The contexts are those before the last bracket, which is the source. -/
theorem captures_contexts :
    Captures (seq (group 3 (star (all [plus space, char '[', star (notChar ']'), char ']'])))
        sourceRe)
      ((e.contexts.map bracketed).flatten ++ (bracketed e.source ++ ' ' :: e.message.toList)) []
      [(5, e.message), (4, e.source), (3, String.ofList (e.contexts.map bracketed).flatten)] := by
  have hforces : ∀ xs ∈ bracketed e.source :: e.contexts.map bracketed, xs ≠ [] ∧
      ∀ rest, Forces (all [plus space, char '[', star (notChar ']'), char ']']) xs rest := by
    intro xs hxs
    rw [← List.map_cons] at hxs
    obtain ⟨text, htext, rfl⟩ := List.mem_map.mp hxs
    refine ⟨by simp [bracketed], fun rest => forces_bracketed rest ?_⟩
    rcases List.mem_cons.mp htext with rfl | hctx
    · exact e.source_open
    · exact e.contexts_open text hctx
  have hback := Captures.back hforces (fails_after_source e _) (fails_after_source e _)
    (List.append_nil _).symm (captures_source e) 3
  exact hback

/-- All fields of the line. -/
theorem find_bracket :
    find bracketLog4j2Pattern e.text =
      some
        ⟨[(5, e.message), (4, e.source), (3, String.ofList (e.contexts.map bracketed).flatten),
          (2, String.ofList e.timestamp.chars), (1, String.ofList e.level.chars)], []⟩ := by
  have hcontexts := captures_contexts e
  generalize hback : (e.contexts.map bracketed).flatten ++
    (bracketed e.source ++ ' ' :: e.message.toList) = back at hcontexts
  have htimestamp := (Captures.group 2 (takes_timestamp (back ++ []) e.timestamp).captures).seq
    hcontexts
  obtain ⟨c, cs, htext, hdigit⟩ := timestamp_head e.timestamp
  have hspace : Takes (plus space) [' '] (e.timestamp.chars ++ back ++ []) := by
    apply takes_blank
    rw [htext]
    exact noHead_cons (isPatternSpace_digit hdigit) _
  have hclosing := (takes_char ']' _).captures.seq (hspace.captures.seq htimestamp)
  have hpadding := (takes_padding e.padding (noHead_cons (by decide)
    (' ' :: (e.timestamp.chars ++ back) ++ []))).captures.seq hclosing
  have hlevel : Takes (plus word) e.level.chars
      (List.replicate e.padding ' ' ++ ([']'] ++ ([' '] ++ (e.timestamp.chars ++ back))) ++
        []) := by
    apply takes_level
    cases e.padding with
    | zero => exact noHead_cons (by decide) _
    | succ n => exact noHead_cons (by decide) _
  have hgroup := (Captures.group 1 hlevel.captures).seq hpadding
  have hopening := (takes_char '[' _).captures.seq hgroup
  have hfind := find_bol hopening
  rw [List.append_nil] at hfind
  rw [BracketLine.text, hback]
  exact hfind

end Bracket

/-! ## The fields of a line without brackets -/

section Plain

variable (e : PlainLine)

theorem find_bracket_none : find bracketLog4j2Pattern e.text = none := by
  obtain ⟨c, cs, htext, hdigit⟩ := timestamp_head e.timestamp
  apply find_bol_none
  rw [PlainLine.text, String.toList_ofList, htext]
  apply Fails.seq (fails_cls _)
  intro d hd
  obtain rfl := Option.some.inj hd
  have hrange := isDigit_range hdigit
  have hne : c ≠ '[' := by
    intro h
    subst h
    exact absurd hrange (by decide)
  simp [hne]

theorem find_plain :
    find log4j2Pattern e.text =
      some
        ⟨[(4, e.message), (3, e.source), (2, String.ofList e.level.chars),
          (1, String.ofList e.timestamp.chars)], []⟩ := by
  have hmessage := captures_message 4 e.message_line e.message_start
  have hdash := (takes_char '-' _).captures.seq hmessage
  have hspace : Takes (plus space) [' '] (['-'] ++ ' ' :: e.message.toList ++ []) := by
    apply takes_blank
    exact noHead_cons (by decide) _
  have hseparator := hspace.captures.seq hdash
  have hsource : Takes (plus nonSpace) e.source.toList
      ([' '] ++ (['-'] ++ ' ' :: e.message.toList) ++ []) := by
    apply takes_plus
    · exact fun h => e.source_nonempty (String.toList_eq_nil_iff.mp h)
    · intro c hc
      have hsolid := e.source_solid c hc
      rw [isPatternSpace] at hsolid
      rw [hsolid]
      rfl
    · exact noHead_cons (by decide) _
  have hgroup := (Captures.group 3 hsource.captures).seq hseparator
  rw [String.ofList_toList] at hgroup
  generalize hback : e.source.toList ++ ([' '] ++ (['-'] ++ ' ' :: e.message.toList)) = back
    at hgroup
  obtain ⟨s, ss, hs⟩ : ∃ s ss, e.source.toList = s :: ss :=
    List.exists_cons_of_ne_nil fun h => e.source_nonempty (String.toList_eq_nil_iff.mp h)
  have hpadding : Takes (plus space) (List.replicate (e.padding + 1) ' ') (back ++ []) := by
    apply takes_plus (by simp)
    · intro c hc
      rw [List.eq_of_mem_replicate hc]
      decide
    · rw [← hback, hs]
      have hsolid := e.source_solid s (by rw [hs]; exact List.mem_cons_self)
      exact noHead_cons hsolid _
  have hlevel : Takes (plus word) e.level.chars
      (List.replicate (e.padding + 1) ' ' ++ back ++ []) := by
    apply takes_level
    exact noHead_cons (by decide) _
  have hnamed := (Captures.group 2 hlevel.captures).seq (hpadding.captures.seq hgroup)
  obtain ⟨l, ls, hl⟩ := List.exists_cons_of_ne_nil e.level.nonempty
  have hgap : Takes (plus space) [' ']
      (e.level.chars ++ (List.replicate (e.padding + 1) ' ' ++ back) ++ []) := by
    apply takes_blank
    have hcapital := capital_range (e.level.upper l (by rw [hl]; exact List.mem_cons_self))
    rw [hl]
    exact noHead_cons (isPatternSpace_visible (by omega)) _
  have hall := (Captures.group 1 (takes_timestamp _ e.timestamp).captures).seq
    (hgap.captures.seq hnamed)
  have hfind := find_bol hall
  rw [List.append_nil, ← hback] at hfind
  exact hfind

end Plain

/-! ## The contexts in the metadata -/

section Metadata

variable (rt : Runtime)

def addContext (state : List (String × Json) × Nat) (ctx : String) :
    List (String × Json) × Nat :=
  contextStep rt state ⟨[(1, ctx)], []⟩

def contextMembers : Nat → List String → List (String × String)
  | _, [] => []
  | n, ctx :: contexts =>
      let content := trimSpace ctx
      if content = "" then contextMembers n contexts
      else
        match keyed content with
        | some m => (toLower rt m.1, m.2) :: contextMembers n contexts
        | none => ("ctx" ++ Nat.repr n, content) :: contextMembers (n + 1) contexts

theorem addContext_eq (entries : List (String × Json)) (n : Nat) (ctx : String) :
    addContext rt (entries, n) ctx =
      if trimSpace ctx = "" then (entries, n)
      else
        match keyed (trimSpace ctx) with
        | some m => (setKey (toLower rt m.1) (.str m.2) entries, n)
        | none => (setKey ("ctx" ++ Nat.repr n) (.str (trimSpace ctx)) entries, n + 1) := by
  have hgroup : Match.group ⟨[(1, ctx)], []⟩ 1 = ctx := rfl
  simp only [addContext, contextStep, keyed, hgroup, List.isEmpty_iff, String.toList_eq_nil_iff,
    Bool.and_eq_true, decide_eq_true_eq, String.ofList_toList]
  split
  · rfl
  · split
    · rfl
    · rfl

theorem contextMembers_perm (n : Nat) (contexts : List String) :
    (contextMembers rt n contexts).Perm
      (keyedContexts rt contexts ++ numberedContexts n contexts) := by
  induction contexts generalizing n with
  | nil => exact .refl _
  | cons ctx contexts ih =>
      rw [contextMembers]
      by_cases hblank : trimSpace ctx = ""
      · have hnone : keyed "" = none := by decide
        have hkeyed : keyedContexts rt (ctx :: contexts) = keyedContexts rt contexts := by
          simp [keyedContexts, hblank, hnone]
        have hplain : numberedContexts n (ctx :: contexts) = numberedContexts n contexts := by
          simp [numberedContexts, plainContexts, hblank]
        rw [if_pos hblank, hkeyed, hplain]
        exact ih n
      · rw [if_neg hblank]
        cases hkey : keyed (trimSpace ctx) with
        | some m =>
            have hkeyed : keyedContexts rt (ctx :: contexts) =
                (toLower rt m.1, m.2) :: keyedContexts rt contexts := by
              simp [keyedContexts, hkey]
            have hplain : numberedContexts n (ctx :: contexts) = numberedContexts n contexts := by
              simp [numberedContexts, plainContexts, hkey]
            rw [hkeyed, hplain]
            exact (ih n).cons _
        | none =>
            have hkeyed : keyedContexts rt (ctx :: contexts) = keyedContexts rt contexts := by
              simp [keyedContexts, hkey]
            have hplain : numberedContexts n (ctx :: contexts) =
                ("ctx" ++ Nat.repr n, trimSpace ctx) :: numberedContexts (n + 1) contexts := by
              simp [numberedContexts, plainContexts, hkey, hblank]
            rw [hkeyed, hplain]
            exact ((ih (n + 1)).cons _).trans List.perm_middle.symm

theorem strMembers_append (ms : List (String × String)) (k v : String) :
    strMembers ms ++ [(k, .str v)] = strMembers (ms ++ [(k, v)]) := by
  simp [strMembers]

theorem keys_strMembers (ms : List (String × String)) :
    (strMembers ms).map Prod.fst = ms.map Prod.fst := by
  simp [strMembers]

theorem setKey_strMembers {ms more : List (String × String)} {k v : String}
    (hkeys : ((ms ++ (k, v) :: more).map Prod.fst).Nodup) :
    setKey k (.str v) (strMembers ms) = strMembers (ms ++ [(k, v)]) := by
  have hnew := not_mem_of_nodup_append hkeys
  rw [← keys_strMembers] at hnew
  rw [setKey_new hnew, strMembers_append]

theorem foldl_addContext {contexts : List String} {ms : List (String × String)} {n : Nat}
    (hkeys : ((ms ++ contextMembers rt n contexts).map Prod.fst).Nodup) :
    (contexts.foldl (addContext rt) (strMembers ms, n)).1 =
      strMembers (ms ++ contextMembers rt n contexts) := by
  induction contexts generalizing ms n with
  | nil => simp [contextMembers]
  | cons ctx contexts ih =>
      rw [List.foldl_cons, addContext_eq]
      rw [contextMembers] at hkeys ⊢
      by_cases hblank : trimSpace ctx = ""
      · rw [if_pos hblank] at hkeys ⊢
        rw [if_pos hblank]
        exact ih hkeys
      · rw [if_neg hblank] at hkeys ⊢
        rw [if_neg hblank]
        cases hkey : keyed (trimSpace ctx) with
        | some m =>
            simp only [hkey] at hkeys ⊢
            rw [setKey_strMembers hkeys]
            rw [List.append_cons ms _ (contextMembers rt n contexts)] at hkeys ⊢
            exact ih hkeys
        | none =>
            simp only [hkey] at hkeys ⊢
            rw [setKey_strMembers hkeys]
            rw [List.append_cons ms _ (contextMembers rt (n + 1) contexts)] at hkeys ⊢
            exact ih hkeys

end Metadata

/-! ## The contexts of a line -/

section Contexts

variable {contexts : List String} (hopen : ∀ ctx ∈ contexts, ']' ∉ ctx.toList)

theorem findFrom_context {ctx : String} (h : ']' ∉ ctx.toList) (first : Bool) (rest : List Char) :
    findFrom contextBracketPattern first ('[' :: (ctx.toList ++ ']' :: rest)) =
      some ⟨[(1, ctx)], rest⟩ := by
  have hbody : Takes (star (notChar ']')) ctx.toList ([']'] ++ rest) := by
    apply takes_star
    · exact bne_of_not_mem h
    · exact noHead_cons (by decide) _
  have hall := (takes_char '[' _).captures.seq
    ((Captures.group 1 hbody.captures).seq (takes_char ']' rest).captures)
  have hfind := findFrom_captures hall first
  rw [String.ofList_toList] at hfind
  rw [← List.singleton_append (x := ']'), ← List.append_assoc]
  exact hfind

theorem findFrom_gap (first : Bool) (cs : List Char) :
    findFrom contextBracketPattern first (' ' :: cs) =
      findFrom contextBracketPattern false cs := rfl

include hopen

theorem findAllFrom_contexts {fuel : Nat} (hfuel : contexts.length < fuel) (first : Bool) :
    (findAllFrom contextBracketPattern fuel first (contexts.map bracketed).flatten).map
      (·.group 1) = contexts := by
  induction contexts generalizing fuel first with
  | nil =>
      obtain ⟨fuel, rfl⟩ := Nat.exists_eq_succ_of_ne_zero (Nat.ne_zero_of_lt hfuel)
      rfl
  | cons ctx contexts ih =>
      obtain ⟨fuel, rfl⟩ := Nat.exists_eq_succ_of_ne_zero (Nat.ne_zero_of_lt hfuel)
      have hrest := ih (fun c hc => hopen c (List.mem_cons_of_mem _ hc))
        (Nat.lt_of_succ_lt_succ hfuel) false
      have htext : ((ctx :: contexts).map bracketed).flatten =
          ' ' :: '[' :: (ctx.toList ++ ']' :: (contexts.map bracketed).flatten) := by
        simp [bracketed]
      rw [htext, findAllFrom, findFrom_gap, findFrom_context (hopen ctx List.mem_cons_self)]
      exact congrArg (List.cons ctx) hrest

omit hopen in
theorem trimSpace_cons_space (cs : List Char) :
    trimSpace (String.ofList (' ' :: cs)) = trimSpace (String.ofList cs) := by
  have hstart : trimLeft (' ' :: cs) = trimLeft cs := List.dropWhile_cons_of_pos (by decide)
  rw [trimSpace, trimSpace, String.toList_ofList, String.toList_ofList, trimChars, trimChars,
    hstart]

omit hopen in
theorem getLast_bracketed (text : String) : (bracketed text).getLast? = some ']' := by
  rw [bracketed, List.getLast?_cons_cons, ← List.cons_append]
  exact List.getLast?_concat

omit hopen in
theorem getLast_contexts (contexts : List String) :
    ∀ c ∈ (contexts.map bracketed).flatten.getLast?, c = ']' := by
  induction contexts with
  | nil => intro c hc; cases hc
  | cons ctx contexts ih =>
      intro c hc
      rw [List.map_cons, List.flatten_cons, List.getLast?_append] at hc
      cases hlast : (contexts.map bracketed).flatten.getLast? with
      | some d =>
          rw [hlast, Option.some_or] at hc
          exact ih c (hlast.trans hc)
      | none =>
          rw [hlast, Option.none_or, getLast_bracketed] at hc
          exact (Option.some.inj hc).symm

theorem findAll_contexts (hne : contexts ≠ []) :
    trimSpace (String.ofList (contexts.map bracketed).flatten) ≠ "" ∧
      (findAll contextBracketPattern
        (trimSpace (String.ofList (contexts.map bracketed).flatten))).map (·.group 1) =
          contexts := by
  obtain ⟨ctx, rest, rfl⟩ := List.exists_cons_of_ne_nil hne
  have hlast := getLast_contexts (ctx :: rest)
  have htext : ((ctx :: rest).map bracketed).flatten =
      ' ' :: '[' :: (ctx.toList ++ ']' :: (rest.map bracketed).flatten) := by
    simp [bracketed]
  rw [htext, List.getLast?_cons_cons] at hlast
  have htrim : trimSpace (String.ofList ('[' :: (ctx.toList ++ ']' ::
      (rest.map bracketed).flatten))) = String.ofList ('[' :: (ctx.toList ++ ']' ::
        (rest.map bracketed).flatten)) :=
    trimSpace_eq_self (fun c hc => Option.some.inj hc ▸ by decide)
      (fun c hc => hlast c hc ▸ by decide)
  rw [htext, trimSpace_cons_space, htrim]
  constructor
  · intro h
    exact List.cons_ne_nil _ _ (String.ofList_eq_empty_iff.mp h)
  · have hlength : (rest.map bracketed).length ≤ (rest.map bracketed).flatten.length := by
      apply length_le_flatten
      intro xs hxs
      obtain ⟨text, -, rfl⟩ := List.mem_map.mp hxs
      exact List.cons_ne_nil _ _
    have hfuel : rest.length < (ctx.toList ++ ']' :: (rest.map bracketed).flatten).length + 1 := by
      rw [List.length_map] at hlength
      rw [List.length_append, List.length_cons]
      omega
    have hrest := findAllFrom_contexts (fun c hc => hopen c (List.mem_cons_of_mem _ hc)) hfuel
      false
    rw [findAll, String.toList_ofList, List.length_cons, findAllFrom,
      findFrom_context (hopen ctx List.mem_cons_self)]
    exact congrArg (List.cons ctx) hrest

end Contexts

/-! ## What is read -/

section Read

variable (rt : Runtime)

theorem toUpper_level (h : KeepsCapitals rt) (level : Level) :
    toUpper rt (trimSpace (String.ofList level.chars)) = String.ofList level.chars := by
  have hspace : ∀ c ∈ level.chars, isSpace c = false :=
    fun c hc => isSpace_capital (level.upper c hc)
  have hupper : level.chars.map rt.toUpper = level.chars := by
    conv_rhs => rw [← List.map_id level.chars]
    apply List.map_congr_left
    intro c hc
    obtain ⟨hlow, hhigh⟩ := level.upper c hc
    exact h c hlow hhigh
  rw [trimSpace_eq_self (fun c hc => hspace c (List.mem_of_mem_head? hc))
    (fun c hc => hspace c (List.mem_of_mem_getLast? hc)), toUpper, String.toList_ofList, hupper]

theorem nodup_numbered (n : Nat) (contexts : List String) :
    ((numberedContexts n contexts).map Prod.fst).Nodup := by
  rw [numberedContexts, List.map_map]
  have hkeys : ((plainContexts contexts).zipIdx n).map
      (Prod.fst ∘ fun m => ("ctx" ++ Nat.repr m.2, m.1)) =
        (List.range' n (plainContexts contexts).length).map fun i => "ctx" ++ Nat.repr i := by
    rw [← List.zipIdx_map_snd, List.map_map]
    rfl
  rw [hkeys]
  apply List.Nodup.map
  · intro i j hij
    have hrepr : Nat.repr i = Nat.repr j := (String.append_right_inj _).mp hij
    have hnumber : (i : Int) = j := by
      have h := congrArg atoi hrepr
      rwa [atoi_repr, atoi_repr, Option.some.injEq] at h
    omega
  · exact List.nodup_range'

theorem nodup_contextMembers {contexts : List String} (h : DistinctKeys rt contexts) :
    ((contextMembers rt 0 contexts).map Prod.fst).Nodup := by
  rw [((contextMembers_perm rt 0 contexts).map Prod.fst).nodup_iff, List.map_append,
    List.nodup_append]
  refine ⟨h.nodup, nodup_numbered 0 contexts, ?_⟩
  intro key hkey other hother heq
  obtain ⟨m, hm, rfl⟩ := List.mem_map.mp hother
  obtain ⟨w, -, rfl⟩ := List.mem_map.mp hm
  exact h.unnumbered key hkey w.2 heq

theorem parseContextBrackets_eq {contextStr : String} {contexts : List String}
    (hfound : (findAll contextBracketPattern contextStr).map (·.group 1) = contexts)
    (hkeys : ((contextMembers rt 0 contexts).map Prod.fst).Nodup) :
    parseContextBrackets rt contextStr =
      if contextMembers rt 0 contexts = [] then ""
      else marshal (.obj (strMembers (contextMembers rt 0 contexts))) := by
  have hfold : (findAll contextBracketPattern contextStr).foldl (contextStep rt) ([], 0) =
      contexts.foldl (addContext rt) (strMembers [], 0) := by
    rw [← hfound, List.foldl_map]
    rfl
  have hentries := foldl_addContext rt (show ((([] : List (String × String)) ++
    contextMembers rt 0 contexts).map Prod.fst).Nodup from hkeys)
  rw [List.nil_append] at hentries
  rw [parseContextBrackets]
  simp only [hfold, hentries]
  cases contextMembers rt 0 contexts with
  | nil => rfl
  | cons m ms => rfl

/-- The metadata of all contexts. -/
theorem decodes_contexts {contexts : List String} (hopen : ∀ ctx ∈ contexts, ']' ∉ ctx.toList)
    (h : DistinctKeys rt contexts) (hne : contexts ≠ []) :
    Decodes rt (parseContextBrackets rt
        (trimSpace (String.ofList (contexts.map bracketed).flatten)))
      (keyedContexts rt contexts ++ numberedContexts 0 contexts) := by
  have hkeys := nodup_contextMembers rt h
  have hperm := contextMembers_perm rt 0 contexts
  have hempty : keyedContexts rt contexts ++ numberedContexts 0 contexts = [] ↔
      contextMembers rt 0 contexts = [] := by
    rw [← List.length_eq_zero_iff, ← hperm.length_eq, List.length_eq_zero_iff]
  rw [Decodes, parseContextBrackets_eq rt (findAll_contexts hopen hne).2 hkeys]
  by_cases hnone : contextMembers rt 0 contexts = []
  · rw [if_pos (hempty.mpr hnone), if_pos hnone]
  · rw [if_neg (mt hempty.mp hnone), if_neg hnone]
    obtain ⟨data, hdata, hmembers⟩ := unmarshalMap_marshal rt hkeys
    exact ⟨data, hdata, hmembers.trans (hperm.map _)⟩

theorem parse_bracket (e : BracketLine) :
    Parser.log4j2.parse rt e.text =
      { level := toUpper rt (trimSpace (String.ofList e.level.chars))
        timestamp := String.ofList e.timestamp.chars
        source := e.source
        message := e.message
        metadata :=
          if trimSpace (String.ofList (e.contexts.map bracketed).flatten) != "" then
            parseContextBrackets rt (trimSpace (String.ofList (e.contexts.map bracketed).flatten))
          else "" } := by
  rw [Parser.parse, parseLog4j2, find_bracket]
  rfl

theorem parse_plain (e : PlainLine) :
    Parser.log4j2.parse rt e.text =
      { timestamp := String.ofList e.timestamp.chars
        level := toUpper rt (trimSpace (String.ofList e.level.chars))
        source := e.source
        message := e.message } := by
  rw [Parser.parse, parseLog4j2, find_bracket_none, find_plain]
  rfl

theorem decodes_metadata (e : BracketLine) (h : DistinctKeys rt e.contexts) :
    Decodes rt (Parser.log4j2.parse rt e.text).metadata
      (keyedContexts rt e.contexts ++ numberedContexts 0 e.contexts) := by
  rw [parse_bracket]
  by_cases hnone : e.contexts = []
  · rw [hnone]
    rfl
  · have htext := (findAll_contexts e.contexts_open hnone).1
    simp only [bne_iff_ne, ne_eq, htext, not_false_eq_true, if_true]
    exact decodes_contexts rt e.contexts_open h hnone

/-- A line reads back to its fields, and its contexts to the metadata. -/
theorem parse_round_trip (hupper : KeepsCapitals rt) :
    (∀ e : BracketLine,
      (Parser.log4j2.parse rt e.text).level = String.ofList e.level.chars ∧
      (Parser.log4j2.parse rt e.text).timestamp = String.ofList e.timestamp.chars ∧
      (Parser.log4j2.parse rt e.text).source = e.source ∧
      (Parser.log4j2.parse rt e.text).message = e.message ∧
      (DistinctKeys rt e.contexts →
        Decodes rt (Parser.log4j2.parse rt e.text).metadata
          (keyedContexts rt e.contexts ++ numberedContexts 0 e.contexts))) ∧
    ∀ e : PlainLine,
      Parser.log4j2.parse rt e.text =
        { level := String.ofList e.level.chars
          timestamp := String.ofList e.timestamp.chars
          source := e.source
          message := e.message } := by
  constructor
  · intro e
    have hlevel : (Parser.log4j2.parse rt e.text).level = String.ofList e.level.chars := by
      rw [parse_bracket]
      exact toUpper_level rt hupper e.level
    have hmetadata := decodes_metadata rt e
    refine ⟨hlevel, ?_, ?_, ?_, hmetadata⟩
    · rw [parse_bracket]
    · rw [parse_bracket]
    · rw [parse_bracket]
  · intro e
    rw [parse_plain, toUpper_level rt hupper]

theorem keepsCapitals_ascii : KeepsCapitals Runtime.ascii := by
  intro c hlow hhigh
  have hrange := capital_range ⟨hlow, hhigh⟩
  have hnot : ¬ (c.val ≥ 'a'.val ∧ c.val ≤ 'z'.val) := by
    intro h
    have hsmall : 97 ≤ c.toNat := UInt32.le_iff_toNat_le.mp h.1
    omega
  show c.toUpper = c
  exact dif_neg hnot

/-- `[INFO ] 2024-01-15 10:30:45.123 [CID:abc ] [admin] User in` -/
def paddedLine : BracketLine where
  level := ⟨"INFO".toList, by decide, by simp⟩
  padding := 1
  timestamp :=
    { year := ⟨"2024".toList, by decide, by simp [isDigit]⟩
      month := ⟨"01".toList, by decide, by simp [isDigit]⟩
      day := ⟨"15".toList, by decide, by simp [isDigit]⟩
      hour := ⟨"10".toList, by decide, by simp [isDigit]⟩
      minute := ⟨"30".toList, by decide, by simp [isDigit]⟩
      second := ⟨"45".toList, by decide, by simp [isDigit]⟩
      separator := '.'
      point_or_comma := by decide
      millisecond := ⟨"123".toList, by decide, by simp [isDigit]⟩ }
  contexts := ["CID:abc "]
  contexts_open := by decide
  source := "admin"
  source_nonempty := by decide
  source_open := by decide
  message := "User in"
  message_line := by decide
  message_start := by simp [isPatternSpace]

theorem distinct_padded : DistinctKeys Runtime.ascii paddedLine.contexts := by
  have hkeys : (keyedContexts Runtime.ascii paddedLine.contexts).map Prod.fst = ["cid"] := by
    decide
  constructor
  · rw [hkeys]
    exact List.nodup_singleton _
  · rw [hkeys]
    intro key hkey n h
    obtain rfl := List.mem_singleton.mp hkey
    have hchars := congrArg String.toList h
    rw [String.toList_append] at hchars
    exact absurd (List.cons.inj (List.cons.inj hchars).2).1 (by decide)

theorem members_padded :
    keyedContexts Runtime.ascii paddedLine.contexts ++ numberedContexts 0 paddedLine.contexts =
      [("cid", "abc")] := by
  decide

theorem parse_round_trip_padded :
    (Parser.log4j2.parse Runtime.ascii paddedLine.text).level = "INFO" ∧
      Decodes Runtime.ascii (Parser.log4j2.parse Runtime.ascii paddedLine.text).metadata
        [("cid", "abc")] := by
  have h := (parse_round_trip Runtime.ascii keepsCapitals_ascii).1 paddedLine
  have hmetadata := h.2.2.2.2 distinct_padded
  rw [members_padded] at hmetadata
  exact ⟨h.1, hmetadata⟩

/-- The value of a context is not read back as it stands in the line. -/
theorem padded_value_trimmed :
    paddedLine.contexts = ["CID:abc "] ∧ keyed "CID:abc " = some ("CID", "abc ") ∧
      DistinctKeys Runtime.ascii paddedLine.contexts ∧
      ¬ Decodes Runtime.ascii (Parser.log4j2.parse Runtime.ascii paddedLine.text).metadata
        [("cid", "abc ")] := by
  refine ⟨rfl, by decide, distinct_padded, ?_⟩
  have hread := decodes_metadata Runtime.ascii paddedLine distinct_padded
  rw [members_padded, Decodes, if_neg (List.cons_ne_nil _ _)] at hread
  obtain ⟨data, hdata, hperm⟩ := hread
  rw [Decodes, if_neg (List.cons_ne_nil _ _), hdata]
  rintro ⟨other, hother, hpadded⟩
  obtain rfl := Option.some.inj hother
  have hvalues : strMembers [("cid", "abc")] = strMembers [("cid", "abc ")] :=
    List.perm_singleton.mp (hperm.symm.trans hpadded)
  have hjson : Json.str "abc" = Json.str "abc " :=
    congrArg Prod.snd (List.cons.inj hvalues).1
  exact absurd (Json.str.inj hjson) (by decide)

end Read

end NestGateway.LogReader
