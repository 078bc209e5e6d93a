import NestGateway.Ui.HighlightText
import NestGateway.Ui.HtmlTags

/-! # Marks that alter html

Marks in the text of html that touch no reference leave its tags and its text as
they are. A match may also be found in what is left of a tag that fell apart;
its mark then stands in the tag, which becomes another one.
-/

namespace NestGateway.Ui.Highlight

open Scans

def tokenTags (tokens : List Token) : List JsText :=
  tokens.flatMap fun t =>
    match t with
    | .unit _ => []
    | .tag inside => [tagText inside]

/-- The second list is the first with the tags of marks inserted. -/
inductive MarksInserted : List JsText → List JsText → Prop where
  | nil : MarksInserted [] []
  | keep (tag : JsText) {tags tags' : List JsText} (rest : MarksInserted tags tags') :
      MarksInserted (tag :: tags) (tag :: tags')
  | mark (current : Bool) {tags tags' : List JsText} (rest : MarksInserted tags tags') :
      MarksInserted tags (tagText (markInside current) :: tagText closeInside :: tags')

/-- The html that comes out is html with the tags and the text of the tokens, but for the tags of
marks. -/
def Unaltered (entities : EntityTable) (tokens : List Token) (out : JsText) : Prop :=
  ∃ marked, WellFormed marked ∧ render marked = out ∧
    MarksInserted (tokenTags tokens) (tokenTags marked) ∧
    decode entities marked = decode entities tokens

/-- The `m` parts from `p` on are units of the text, those from `q` on. -/
def Placed (m : Nat) (tokens : List Token) (p q : Nat) : Prop :=
  (parts (tokens.take q)).length = p ∧
    ∃ us : JsText, us.length = m ∧ tokens.drop q = us.map .unit ++ tokens.drop (q + m)

/-- A match at `p` of the parts is in the text, and touches no reference. -/
def Harmless (entities : EntityTable) (m : Nat) (tokens : List Token) (p : Nat) : Prop :=
  ∃ q, Placed m tokens p q ∧ ∀ r text len,
    referenceAt entities (tokens.drop r) = some (text, len) → r + len ≤ q ∨ q + m ≤ r

theorem isTag_mark (current : Bool) : IsTag (markInside current) := by
  cases current <;> decide

theorem wellFormed_markTokens (current : Bool) (us : JsText) :
    WellFormed (markTokens current us) := by
  have hescape : ∀ u ∈ escapeText us, u ≠ lessThan := by
    induction us with
    | nil => exact fun u hu => absurd hu List.not_mem_nil
    | cons c us ih =>
        intro u hu
        rw [escapeText_cons, List.mem_append] at hu
        rcases hu with hu | hu
        · by_cases hc : c = ampersand ∨ c = lessThan ∨ c = greaterThan
          · have hall : (escapeText [c]).all (fun u => decide (u ≠ lessThan)) = true := by
              rcases hc with rfl | rfl | rfl <;> decide
            exact of_decide_eq_true (List.all_eq_true.mp hall u hu)
          · simp only [not_or] at hc
            rw [escapeText_plain hc.1 hc.2.1 hc.2.2, List.mem_singleton] at hu
            exact hu ▸ hc.2.1
        · exact ih u hu
  refine List.forall_mem_cons.mpr ⟨isTag_mark current, ?_⟩
  refine wellFormed_append.mpr ⟨wellFormed_units hescape, ?_⟩
  exact List.forall_mem_singleton.mpr (by decide : IsTag closeInside)

theorem tokenTags_append (front rest : List Token) :
    tokenTags (front ++ rest) = tokenTags front ++ tokenTags rest := List.flatMap_append

theorem tokenTags_units (us : JsText) : tokenTags (us.map .unit) = [] := by
  simp [tokenTags, List.flatMap_map]

theorem tokenTags_markTokens (current : Bool) (us : JsText) :
    tokenTags (markTokens current us) = [tagText (markInside current), tagText closeInside] := by
  unfold markTokens
  rw [← List.singleton_append, tokenTags_append, tokenTags_append, tokenTags_units]
  rfl

theorem MarksInserted.append_left {tags tags' : List JsText} (h : MarksInserted tags tags')
    (front : List JsText) : MarksInserted (front ++ tags) (front ++ tags') := by
  induction front with
  | nil => exact h
  | cons tag front ih => exact MarksInserted.keep tag ih

theorem MarksInserted.refl (tags : List JsText) : MarksInserted tags tags := by
  have hall := MarksInserted.nil.append_left tags
  rwa [List.append_nil] at hall

/-- Whether a tag has another `>` than the one at its end. -/
def isRich (tag : JsText) : Bool := greaterThan ∈ tag.dropLast

theorem MarksInserted.filter_rich {tags tags' : List JsText} (h : MarksInserted tags tags') :
    tags.filter isRich = tags'.filter isRich := by
  induction h with
  | nil => rfl
  | keep tag rest ih => rw [List.filter_cons, List.filter_cons, ih]
  | mark current rest ih =>
      have hopen : isRich (tagText (markInside current)) = false := by
        cases current <;> decide
      have hclose : isRich (tagText closeInside) = false := by decide
      rw [List.filter_cons_of_neg (by rw [hopen]; decide),
        List.filter_cons_of_neg (by rw [hclose]; decide), ih]

/-! ## Marks at places of the text -/

/-- Places from `s` on with a text of `m` units at each, none over another. -/
inductive Places (m : Nat) (tokens : List Token) : Nat → List Nat → Prop where
  | done {s : Nat} : Places m tokens s []
  | take {s q : Nat} {us : JsText} {qs : List Nat} (later : s ≤ q) (length : us.length = m)
      (here : tokens.drop q = us.map .unit ++ tokens.drop (q + m))
      (rest : Places m tokens (q + m) qs) : Places m tokens s (q :: qs)

section Places

variable {entities : EntityTable} {m : Nat} {tokens : List Token} {s : Nat} {qs : List Nat}

theorem Places.le_of_mem (h : Places m tokens s qs) {q : Nat} (hq : q ∈ qs) : s ≤ q := by
  induction h with
  | done => cases hq
  | take later length here rest ih =>
      rcases List.mem_cons.mp hq with rfl | hq
      · exact later
      · have := ih hq
        omega

theorem take_units (us : JsText) (rest : List Token) :
    (us.map Token.unit ++ rest).take us.length = us.map .unit :=
  List.take_left' (List.length_map _)

theorem add_le_length (hm : 1 ≤ m) {us : JsText} {q : Nat} (length : us.length = m)
    (here : tokens.drop q = us.map .unit ++ tokens.drop (q + m)) : q + m ≤ tokens.length := by
  have hlen := congrArg List.length here
  rw [List.length_append, List.length_map, List.length_drop, List.length_drop, length] at hlen
  omega

/-- No position in `qs` is of a match that touches a reference from `s` on. -/
def FreeFrom (entities : EntityTable) (m : Nat) (tokens : List Token) (s : Nat) (qs : List Nat) :
    Prop :=
  ∀ q ∈ qs, ∀ r, s ≤ r → ∀ text len,
    referenceAt entities (tokens.drop r) = some (text, len) → r + len ≤ q ∨ q + m ≤ r

theorem length_referenceAt {text : JsText} {len : Nat}
    (h : referenceAt entities tokens = some (text, len)) : 0 < len := by
  obtain ⟨_, _, _, _, rfl⟩ := referenceAt_eq_some.mp h
  omega

theorem freeFrom_cons {m s p : Nat} {ps : List Nat} (hlater : s ≤ p) (hps : ∀ q ∈ ps, p + m ≤ q)
    (hp : p ≤ tokens.length) :
    FreeFrom entities m tokens s (p :: ps) ↔
      NoCross entities ((tokens.drop s).take (p - s)) (tokens.drop p) ∧
        (∀ r < m, referenceAt entities ((tokens.drop p).drop r) = none) ∧
        FreeFrom entities m tokens (p + m) ps := by
  have hwhole := take_append_between tokens hlater
  have hlen : ((tokens.drop s).take (p - s)).length = p - s := by
    rw [List.length_take, List.length_drop]
    omega
  unfold NoCross
  rw [hwhole, hlen]
  constructor
  · intro hfree
    have hfirst := hfree p List.mem_cons_self
    refine ⟨fun r hr text len href => ?_, fun r hr => ?_, fun q hq r hr => ?_⟩
    · rw [List.drop_drop] at href
      have := hfirst (s + r) (Nat.le_add_right s r) text len href
      omega
    · cases href : referenceAt entities ((tokens.drop p).drop r) with
      | none => rfl
      | some found =>
          have hpos := length_referenceAt href
          rw [List.drop_drop] at href
          have := hfirst (p + r) (by omega) found.1 found.2 href
          omega
    · exact hfree q (List.mem_cons_of_mem p hq) r (by omega)
  · rintro ⟨hcross, hnone, hfree⟩ q hq r hr text len href
    have hplace : r + len ≤ p ∨ p + m ≤ r := by
      rcases Nat.lt_or_ge r p with hlt | hge
      · obtain ⟨k, rfl⟩ := Nat.exists_eq_add_of_le hr
        rw [← List.drop_drop] at href
        have := hcross k (by omega) text len href
        omega
      · obtain ⟨k, rfl⟩ := Nat.exists_eq_add_of_le hge
        rcases Nat.lt_or_ge k m with hlt | hge
        · rw [← List.drop_drop, hnone k hlt] at href
          cases href
        · omega
    rcases List.mem_cons.mp hq with rfl | hq
    · exact hplace
    · have hle := hps q hq
      rcases hplace with hbefore | hafter
      · omega
      · exact hfree q hq r hafter text len href

variable (currentPosition : Option Int)

/-- The marked tokens stand for the same text, unless a mark touches a reference; then they stand
for a longer one. -/
theorem decode_withMarks (hm : 1 ≤ m) (h : Places m tokens s qs) (index : Nat) :
    ShorterUnless (FreeFrom entities m tokens s qs) (decode entities (tokens.drop s))
      (decode entities (withMarks m currentPosition tokens s index qs)) := by
  induction h generalizing index with
  | done => exact Or.inl ⟨fun q hq => absurd hq List.not_mem_nil, rfl⟩
  | @take s q us qs later length here rest ih =>
      have hq : q ≤ tokens.length := by
        have := add_le_length hm length here
        omega
      obtain ⟨front, hfront⟩ : ∃ front, front = (tokens.drop s).take (q - s) := ⟨_, rfl⟩
      have hwhole : tokens.drop s = front ++ tokens.drop q := by
        rw [hfront, take_append_between tokens later]
      -- the text before the match, the match, and the text after it
      have hcut := @decode_append entities front (tokens.drop q)
      have htext := @decode_match entities us (tokens.drop (q + m))
      rw [← here, length] at htext
      have hall := hcut.trans
        ((htext.trans ((ih (index + 1)).append_left us)).append_left (decode entities front))
      have hmatched : textOf ((tokens.drop q).take m) = us := by
        rw [here, ← length, take_units, textOf_units]
      rw [withMarks, hmatched, ← hfront, decode_markTokens, hwhole]
      refine hall.congr ?_
      rw [freeFrom_cons later (fun q' hq' => rest.le_of_mem hq') hq, ← hfront]

theorem wellFormed_withMarks (hwell : WellFormed tokens) (h : Places m tokens s qs) (index : Nat) :
    WellFormed (withMarks m currentPosition tokens s index qs) := by
  induction h generalizing index with
  | done => exact hwell.drop _
  | @take s q us qs later length here rest ih =>
      exact wellFormed_append.mpr ⟨(hwell.drop s).take (q - s),
        wellFormed_append.mpr ⟨wellFormed_markTokens _ _, ih (index + 1)⟩⟩

theorem tags_withMarks (h : Places m tokens s qs) (index : Nat) :
    MarksInserted (tokenTags (tokens.drop s))
      (tokenTags (withMarks m currentPosition tokens s index qs)) := by
  induction h generalizing index with
  | done => exact MarksInserted.refl _
  | @take s q us qs later length here rest ih =>
      have htags : tokenTags (tokens.drop s) =
          tokenTags ((tokens.drop s).take (q - s)) ++ tokenTags (tokens.drop (q + m)) := by
        have hwhole := congrArg tokenTags (take_append_between tokens later)
        rw [← hwhole, here, tokenTags_append, tokenTags_append, tokenTags_units, List.nil_append]
      rw [withMarks, htags, tokenTags_append, tokenTags_append, tokenTags_markTokens]
      exact (MarksInserted.mark _ (ih (index + 1))).append_left _

end Places

/-! ## Where matches are -/

section Matches

variable {canonicalize : UInt16 → UInt16} {chars : JsText} {tokens : List Token}

/-- A match is in the text, or in what is left of a tag behind its first part. -/
theorem placed_or_inside (hwell : WellFormed tokens) (hchars : chars ≠ []) {p : Nat} {us : JsText}
    (h : matchTokens canonicalize chars ((parts tokens).drop p) = some us) :
    (∃ q, Placed chars.length tokens p q) ∨
      ∃ front inside back before u after, tokens = front ++ .tag inside :: back ∧
        parts [.tag inside] = before ++ .unit u :: after ∧ before ≠ [] ∧
        p = (parts front).length + before.length := by
  induction tokens generalizing p with
  | nil =>
      have hnil : (parts []).drop p = [] := List.drop_nil
      rw [hnil] at h
      cases chars with
      | nil => exact absurd rfl hchars
      | cons c cs => cases h
  | cons t ts ih =>
      obtain ⟨ht, hts⟩ := List.forall_mem_cons.mp hwell
      have hcons := parts_cons hwell
      rcases Nat.lt_or_ge p (parts [t]).length with hlt | hge
      · -- the match begins in the first token
        cases t with
        | unit u =>
            rw [parts_unit ht, List.length_singleton] at hlt
            obtain rfl : p = 0 := by omega
            obtain ⟨hlen, hunits⟩ := length_matchTokens h
            have htokens := eq_of_parts_units hwell hunits
            rw [hlen] at htokens
            refine Or.inl ⟨0, rfl, us, hlen, ?_⟩
            rw [Nat.zero_add]
            exact htokens
        | tag inside =>
            right
            have hunit : ∃ u rest, (parts (.tag inside :: ts)).drop p = .unit u :: rest := by
              have hunits := (length_matchTokens h).2
              have hlen := (length_matchTokens h).1
              cases us with
              | nil => exact absurd (List.length_eq_zero_iff.mp hlen.symm) hchars
              | cons u us => exact ⟨u, _, hunits⟩
            obtain ⟨u, rest, hrest⟩ := hunit
            have hdrop : (parts [.tag inside]).drop p =
                .unit u :: (parts [.tag inside]).drop (p + 1) := by
              rw [List.drop_eq_getElem_cons hlt]
              rw [hcons, List.drop_append_of_le_length (Nat.le_of_lt hlt),
                List.drop_eq_getElem_cons hlt] at hrest
              rw [(List.cons.inj hrest).1]
            refine ⟨[], inside, ts, (parts [.tag inside]).take p, u,
              (parts [.tag inside]).drop (p + 1), rfl, ?_, ?_, ?_⟩
            · rw [← hdrop, List.take_append_drop]
            · intro hnil
              obtain ⟨first, more, htag⟩ := parts_tag ht
              rw [htag] at hnil hdrop
              cases p with
              | zero => cases (List.cons.inj hdrop).1
              | succ p => cases hnil
            · have hempty : parts [] = [] := rfl
              rw [hempty, List.length_take]
              simp only [List.length_nil]
              omega
      · obtain ⟨k, rfl⟩ := Nat.exists_eq_add_of_le hge
        rw [hcons, ← List.drop_drop, List.drop_left] at h
        rcases ih hts h with ⟨q, hq, us', hlen, here⟩ |
            ⟨front, inside, back, before, u, after, rfl, hparts, hbefore, rfl⟩
        · refine Or.inl ⟨q + 1, ?_, us', hlen, ?_⟩
          · have hfront := List.forall_mem_cons.mpr ⟨ht, WellFormed.take hts q⟩
            rw [List.take_succ_cons, parts_cons hfront, List.length_append, hq]
          · rw [Nat.add_right_comm]
            exact here
        · right
          refine ⟨t :: front, inside, back, before, u, after, rfl, hparts, hbefore, ?_⟩
          have hfront : WellFormed (t :: front) :=
            List.forall_mem_cons.mpr ⟨ht, (wellFormed_append.mp hts).1⟩
          rw [parts_cons hfront, List.length_append]
          omega

theorem Placed.unique (hwell : WellFormed tokens) {m p q q' : Nat} (hm : 1 ≤ m)
    (h : Placed m tokens p q) (h' : Placed m tokens p q') : q = q' := by
  obtain ⟨hp, us, hlen, here⟩ := h
  obtain ⟨hp', us', hlen', here'⟩ := h'
  have hle := add_le_length hm hlen here
  have hle' := add_le_length hm hlen' here'
  rcases Nat.lt_trichotomy q q' with hlt | heq | hgt
  · have := length_parts_take_lt hwell hlt (by omega)
    omega
  · exact heq
  · have := length_parts_take_lt hwell hgt (by omega)
    omega

theorem Placed.harmless_iff_free (hwell : WellFormed tokens) {entities : EntityTable} {m p q : Nat}
    (hm : 1 ≤ m) (h : Placed m tokens p q) :
    Harmless entities m tokens p ↔ ∀ r text len,
      referenceAt entities (tokens.drop r) = some (text, len) → r + len ≤ q ∨ q + m ≤ r := by
  constructor
  · rintro ⟨q', h', hfree⟩
    rwa [h.unique hwell hm h']
  · exact fun hfree => ⟨q, h, hfree⟩

theorem forall₂_harmless (hwell : WellFormed tokens) {entities : EntityTable} {m : Nat}
    (hm : 1 ≤ m) {ps qs : List Nat} (h : List.Forall₂ (Placed m tokens) ps qs) :
    (∀ q ∈ qs, ∀ r text len, referenceAt entities (tokens.drop r) = some (text, len) →
        r + len ≤ q ∨ q + m ≤ r) ↔
      ∀ p ∈ ps, Harmless entities m tokens p := by
  induction h with
  | nil => simp
  | cons hplaced _ ih => rw [List.forall_mem_cons, List.forall_mem_cons, ih,
      hplaced.harmless_iff_free hwell hm]

/-- Html that goes on as the tokens from `s` on do, with marks, up to a tag, and then puts a `<`
into the tag behind a `>`. -/
def Broken (tokens : List Token) (s : Nat) (out : JsText) : Prop :=
  ∃ front inside back marked pre u post more, tokens.drop s = front ++ .tag inside :: back ∧
    WellFormed marked ∧ MarksInserted (tokenTags front) (tokenTags marked) ∧
    tagText inside = pre ++ u :: post ∧ u ≠ lessThan ∧ greaterThan ∈ pre ∧
    out = render marked ++ (pre ++ lessThan :: more)

theorem take_parts_between (hwell : WellFormed tokens) {s t p q : Nat} (hst : (parts
    (tokens.take t)).length = s) (hpq : (parts (tokens.take q)).length = p) (htq : t ≤ q) :
    ((parts tokens).drop s).take (p - s) = parts ((tokens.drop t).take (q - t)) := by
  have hlen := length_parts_take hwell t (q - t)
  rw [Nat.add_sub_cancel' htq, hpq, hst] at hlen
  have hwhole := parts_append ((hwell.drop t).take (q - t)) ((hwell.drop t).drop (q - t))
  rw [List.take_append_drop] at hwhole
  rw [← hst, drop_parts hwell, hst, hwhole, hlen, Nat.add_sub_cancel_left, List.take_left]

theorem length_parts_take_le (hwell : WellFormed tokens) {n k : Nat} (hle : n ≤ k)
    (hk : k ≤ tokens.length) :
    (parts (tokens.take n)).length ≤ (parts (tokens.take k)).length := by
  rcases Nat.lt_or_eq_of_le hle with hlt | rfl
  · exact Nat.le_of_lt (length_parts_take_lt hwell hlt hk)
  · exact Nat.le_refl _

theorem between_parts {front : List Token} {inside : JsText} {back : List Token}
    (hwell : WellFormed (front ++ .tag inside :: back)) {before after : List Token} {t : Token}
    (hparts : parts [.tag inside] = before ++ t :: after) {n : Nat}
    (hn : n ≤ (front ++ .tag inside :: back).length) :
    (n ≤ front.length ∧
        (parts ((front ++ .tag inside :: back).take n)).length ≤ (parts front).length) ∨
      (parts front).length + before.length <
        (parts ((front ++ .tag inside :: back).take n)).length := by
  have hfront := (wellFormed_append.mp hwell).1
  have htag : WellFormed [.tag inside] :=
    List.forall_mem_singleton.mpr (hwell _ (List.mem_append_right _ List.mem_cons_self))
  have htake : (front ++ .tag inside :: back).take front.length = front := List.take_left
  have hnext : (front ++ .tag inside :: back).take (front.length + 1) = front ++ [.tag inside] := by
    rw [List.take_add, List.take_left, List.drop_left]
    rfl
  rcases Nat.lt_or_ge front.length n with hlt | hle
  · right
    have hmore := length_parts_take_le hwell hlt hn
    rw [hnext, parts_append hfront htag, hparts] at hmore
    simp only [List.length_append, List.length_cons] at hmore
    omega
  · left
    have hmore := length_parts_take_le hwell hle (by simp)
    rw [htake] at hmore
    exact ⟨hle, hmore⟩

theorem tagText_of_parts {inside : JsText} (hinside : IsTag inside) {before after : List Token}
    {u : UInt16} (hparts : parts [.tag inside] = before ++ .unit u :: after)
    (hbefore : before ≠ []) :
    tagText inside = render before ++ u :: render after ∧ u ≠ lessThan ∧
      greaterThan ∈ render before := by
  have hwell : WellFormed [.tag inside] := List.forall_mem_singleton.mpr hinside
  have hclean := clean_parts hwell
  have hrender := render_parts hwell
  rw [hparts] at hclean hrender
  obtain ⟨first, more, htag⟩ := parts_tag hinside
  obtain ⟨t, before, rfl⟩ := List.exists_cons_of_ne_nil hbefore
  rw [hparts] at htag
  obtain ⟨rfl, _⟩ := List.cons.inj htag
  refine ⟨?_, (clean_cons.mp (clean_append.mp hclean).2).1, ?_⟩
  · rw [render_append, render_cons] at hrender
    exact (hrender.trans (List.append_nil _)).symm
  · rw [render_cons]
    exact List.mem_append_left _ (by simp [Token.text, tagText])

variable (currentPosition : Option Int)

/-- A mark of a match that begins among the parts of a tag breaks the tag. -/
theorem broken_of_inside {front : List Token} {inside : JsText} {back : List Token}
    (hwell : WellFormed (front ++ .tag inside :: back)) {before after : List Token} {u : UInt16}
    (hparts : parts [.tag inside] = before ++ .unit u :: after) (hbefore : before ≠ [])
    {m s t : Nat} (hst : (parts ((front ++ .tag inside :: back).take t)).length = s)
    (ht : t ≤ (front ++ .tag inside :: back).length)
    (hsp : s ≤ (parts front).length + before.length) (index : Nat) (ps : List Nat) :
    Broken (front ++ .tag inside :: back) t
      (render (withMarks m currentPosition (parts (front ++ .tag inside :: back)) s index
        (((parts front).length + before.length) :: ps))) := by
  obtain ⟨hfront, htail⟩ := wellFormed_append.mp hwell
  obtain ⟨hinside, hback⟩ := List.forall_mem_cons.mp htail
  obtain ⟨htext, hu, hend⟩ := tagText_of_parts hinside hparts hbefore
  rcases between_parts hwell hparts ht with ⟨hle, _⟩ | hgt
  · have hdrop : (front ++ .tag inside :: back).drop t = front.drop t ++ .tag inside :: back :=
      List.drop_append_of_le_length hle
    have hlen : (parts front).length = s + (parts (front.drop t)).length := by
      have hsum := parts_append (hfront.take t) (hfront.drop t)
      rw [List.take_append_drop] at hsum
      rw [hsum, List.length_append, ← hst, List.take_append_of_le_length hle]
    have hbetween : ((parts (front ++ .tag inside :: back)).drop s).take
        ((parts front).length + before.length - s) = parts (front.drop t) ++ before := by
      have htag : WellFormed [.tag inside] := List.forall_mem_singleton.mpr hinside
      rw [← hst, drop_parts hwell, hst, hdrop, parts_append (hfront.drop t) htail,
        parts_cons htail, hparts, hlen]
      have hcount : s + (parts (front.drop t)).length + before.length - s =
          (parts (front.drop t) ++ before).length := by
        rw [List.length_append]
        omega
      rw [hcount, List.append_assoc, ← List.append_assoc, List.take_left]
    have hmark : ∀ current us rest, ∃ more,
        render (markTokens current us ++ rest) = lessThan :: more :=
      fun current us rest => ⟨_, rfl⟩
    rw [withMarks, hbetween, render_append, render_append, render_parts (hfront.drop t),
      List.append_assoc]
    obtain ⟨more, hmore⟩ := hmark _ _ _
    exact ⟨front.drop t, inside, back, front.drop t, render before, u, render after, more, hdrop,
      hfront.drop t, MarksInserted.refl _, htext, hu, hend, by rw [hmore]⟩
  · omega

/-- The marks are at places of the text, or one of them breaks a tag. -/
theorem placed_or_broken (hwell : WellFormed tokens) (hchars : chars ≠ []) {s t : Nat}
    {ps : List Nat}
    (h : Scan (fun p => occursAt canonicalize chars ((parts tokens).drop p) = true) chars.length s
      ps) (hst : (parts (tokens.take t)).length = s) (ht : t ≤ tokens.length) :
    (∃ qs, List.Forall₂ (Placed chars.length tokens) ps qs ∧ Places chars.length tokens t qs ∧
      ∀ index, render (withMarks chars.length currentPosition (parts tokens) s index ps) =
        render (withMarks chars.length currentPosition tokens t index qs)) ∨
    ((∃ p ∈ ps, ∀ q, ¬ Placed chars.length tokens p q) ∧
      ∀ index, Broken tokens t
        (render (withMarks chars.length currentPosition (parts tokens) s index ps))) := by
  have hm : 1 ≤ chars.length := List.length_pos_iff.mpr hchars
  induction h generalizing t with
  | done none =>
      refine Or.inl ⟨[], .nil, .done, fun index => ?_⟩
      show render ((parts tokens).drop _) = render (tokens.drop t)
      rw [← hst, drop_parts hwell, render_parts (hwell.drop t)]
  | @take s p ps later here first rest ih =>
      obtain ⟨us, hus⟩ := Option.isSome_iff_exists.mp here
      rcases placed_or_inside hwell hchars hus with ⟨q, hplaced⟩ |
          ⟨front, inside, back, before, u, after, rfl, hparts, hbefore, rfl⟩
      · obtain ⟨hp, us, hlen, hunits⟩ := id hplaced
        have hend := add_le_length hm hlen hunits
        have htq : t ≤ q := by
          by_contra hlt
          have := length_parts_take_lt hwell (Nat.lt_of_not_le hlt) ht
          omega
        have hclean : Clean (us.map .unit) := by
          refine List.forall_mem_map.mpr fun u hu => ?_
          have hmem : Token.unit u ∈ tokens.drop q :=
            hunits ▸ List.mem_append_left _ (List.mem_map_of_mem hu)
          exact hwell _ (List.mem_of_mem_drop hmem)
        have hmatch : (parts tokens).drop p =
            us.map .unit ++ parts (tokens.drop (q + chars.length)) := by
          have hunit := wellFormed_units fun u hu => hclean _ (List.mem_map_of_mem hu)
          have hwhole := parts_append hunit (hwell.drop (q + chars.length))
          rw [← hp, drop_parts hwell, hunits, hwhole, parts_of_clean hclean]
        have hnext : (parts (tokens.take (q + chars.length))).length = p + chars.length := by
          rw [length_parts_take hwell, hp, hunits, ← hlen, take_units, parts_of_clean hclean,
            List.length_map]
        have htext : textOf (((parts tokens).drop p).take chars.length) = us := by
          rw [hmatch, ← hlen, take_units, textOf_units]
        have htext' : textOf ((tokens.drop q).take chars.length) = us := by
          rw [hunits, ← hlen, take_units, textOf_units]
        have hbetween := take_parts_between hwell hst hp htq
        have hmiddle := (hwell.drop t).take (q - t)
        rcases ih hnext hend with ⟨qs, hforall, hplaces, hrender⟩ | ⟨⟨p', hp', hnone⟩, hbroken⟩
        · refine Or.inl ⟨q :: qs, .cons hplaced hforall, .take htq hlen hunits hplaces,
            fun index => ?_⟩
          rw [withMarks, withMarks, htext, htext', hbetween, render_append, render_append,
            render_append, render_append, hrender, render_parts hmiddle]
        · refine Or.inr ⟨⟨p', List.mem_cons_of_mem _ hp', hnone⟩, fun index => ?_⟩
          obtain ⟨front, inside, back, marked, pre, u, post, more, hdrop, hmarked, htags, htag, hu,
            hgt, hout⟩ := hbroken (index + 1)
          refine ⟨(tokens.drop t).take (q - t) ++ (us.map .unit ++ front), inside, back,
            (tokens.drop t).take (q - t) ++
              (markTokens (currentPosition = some (index : Int)) us ++ marked),
            pre, u, post, more, ?_, ?_, ?_, htag, hu, hgt, ?_⟩
          · refine (take_append_between tokens htq).symm.trans ?_
            rw [hunits, hdrop, List.append_assoc, List.append_assoc]
          · exact wellFormed_append.mpr
              ⟨hmiddle, wellFormed_append.mpr ⟨wellFormed_markTokens _ _, hmarked⟩⟩
          · rw [tokenTags_append, tokenTags_append, tokenTags_append, tokenTags_append,
              tokenTags_units, tokenTags_markTokens]
            exact (MarksInserted.mark _ htags).append_left _
          · rw [withMarks, htext, hbetween, render_append, render_append, hout, render_append,
              render_append, render_parts hmiddle]
            simp
      · refine Or.inr ⟨⟨_, List.mem_cons_self, fun q hplaced => ?_⟩, fun index =>
          broken_of_inside currentPosition hwell hparts hbefore hst ht later index ps⟩
        obtain ⟨hq, us', hlen, hunits⟩ := hplaced
        have hend := add_le_length hm hlen hunits
        have hpos := List.length_pos_iff.mpr hbefore
        rcases between_parts hwell hparts (Nat.le_of_add_right_le hend) with ⟨_, hle⟩ | hgt
        · omega
        · omega

end Matches

/-! ## Html and its text -/

/-- No reading of broken html has the tags of the html and those of marks: a tag with a `>` inside
has become another. -/
theorem not_unaltered_of_broken {entities : EntityTable} {tokens : List Token}
    (hwell : WellFormed tokens) {out : JsText} (h : Broken tokens 0 out) :
    ¬ Unaltered entities tokens out := by
  rintro ⟨read, hread, hrender, htags, _⟩
  obtain ⟨front, inside, back, marked, pre, u, post, more, htokens, hmarked, hfront, htag, hu, hgt,
    rfl⟩ := h
  rw [List.drop_zero] at htokens
  obtain ⟨rest, rfl, hrest⟩ := exists_of_render_append hmarked hread hrender
  subst htokens
  have hinside : IsTag inside := hwell _ (List.mem_append_right _ List.mem_cons_self)
  obtain ⟨c, pre', rfl⟩ := List.exists_cons_of_ne_nil (List.ne_nil_of_mem hgt)
  obtain rfl : lessThan = c := (List.cons.inj htag).1
  -- the html goes on with a tag that has the same beginning
  obtain ⟨t, rest, rfl⟩ : ∃ t rest', rest = t :: rest' := by
    cases rest with
    | nil => cases hrest
    | cons t rest => exact ⟨t, rest, rfl⟩
  have ht : t.WellFormed := hread _ (List.mem_append_right _ List.mem_cons_self)
  rw [render_cons] at hrest
  cases t with
  | unit v =>
      have hhead := congrArg List.head? hrest
      exact ht (Option.some.inj hhead)
  | tag inside' =>
      have hlonger : ∃ post', tagText inside' = lessThan :: pre' ++ lessThan :: post' := by
        rcases List.append_eq_append_iff.mp hrest with ⟨x, hx, _⟩ | ⟨y, hy, hmore⟩
        · -- the tag would end before the tag of the html does
          have hends : tagText inside ++ [] = tagText inside' ++ (x ++ u :: post) := by
            rw [List.append_nil, htag, hx, List.append_assoc]
            rfl
          have hnil := (tagText_unique hinside ht hends).2
          exact absurd (congrArg List.length hnil) (by simp)
        · cases y with
          | nil =>
              have hy' : tagText inside' = lessThan :: pre' := hy.trans (List.append_nil _)
              have hends : tagText inside ++ [] = tagText inside' ++ (u :: post) := by
                rw [List.append_nil, htag, hy']
              have hnil := (tagText_unique hinside ht hends).2
              cases hnil
          | cons v post' =>
              obtain rfl : lessThan = v := (List.cons.inj hmore).1
              exact ⟨post', hy⟩
      obtain ⟨post', htag'⟩ := hlonger
      have hrich : ∀ v post, isRich (lessThan :: pre' ++ v :: post) = true := by
        intro v post
        unfold isRich
        rw [List.dropLast_append_cons]
        exact decide_eq_true (List.mem_append_left _ hgt)
      have hsame := htags.filter_rich
      rw [tokenTags_append, tokenTags_append, List.filter_append, List.filter_append,
        hfront.filter_rich] at hsame
      have hcons : ∀ inside rest, tokenTags (.tag inside :: rest) =
          tagText inside :: tokenTags rest := fun inside rest => rfl
      have hheads := List.append_cancel_left hsame
      rw [hcons, hcons, htag, htag', List.filter_cons_of_pos (hrich u post),
        List.filter_cons_of_pos (hrich lessThan post')] at hheads
      exact hu (List.cons.inj (List.append_cancel_left (List.cons.inj hheads).1)).1

/-- Highlighting leaves the tags and the text as they are exactly when every match is in the text
and touches no reference. -/
theorem unaltered_iff (entities : EntityTable) (canonicalize : UInt16 → UInt16)
    {tokens : List Token} (hwell : WellFormed tokens) (query : JsText)
    (currentPosition : Option Int) :
    (∃ out matchCount,
        highlightHtml canonicalize (render tokens) query currentPosition = some (out, matchCount) ∧
          Unaltered entities tokens out) ↔
      (query ≠ [] → ∀ p ∈ hits (occursAt canonicalize query) query.length (parts tokens),
        Harmless entities query.length tokens p) := by
  by_cases hquery : query = []
  · subst hquery
    exact iff_of_true ⟨render tokens, 0, rfl, tokens, hwell, rfl, MarksInserted.refl _, rfl⟩
      fun h => absurd rfl h
  · have hm : 1 ≤ query.length := List.length_pos_iff.mpr hquery
    have hout := @highlightHtml_marks canonicalize query currentPosition hquery _
      (clean_parts hwell)
    rw [render_parts hwell] at hout
    have hscan := @scan_tokens canonicalize query hquery (parts tokens)
    rcases placed_or_broken currentPosition hwell hquery hscan (t := 0) rfl (Nat.zero_le _) with
      ⟨qs, hforall, hplaces, hrender⟩ | ⟨⟨p, hp, hnone⟩, hbroken⟩
    · have hfree : FreeFrom entities query.length tokens 0 qs ↔
          ∀ p ∈ hits (occursAt canonicalize query) query.length (parts tokens),
            Harmless entities query.length tokens p := by
        refine Iff.trans ?_ (forall₂_harmless hwell hm hforall)
        exact forall₂_congr fun q _ => forall_congr' fun r => forall_prop_of_true (Nat.zero_le r)
      have htext := (@decode_withMarks entities _ _ _ _ currentPosition hm hplaces 0).eq_iff
      have htags := tags_withMarks currentPosition hplaces 0
      rw [List.drop_zero] at htext htags
      have hmarked := wellFormed_withMarks currentPosition hwell hplaces 0
      rw [hout, hrender, ← hfree, ← htext]
      constructor
      · rintro ⟨out, matchCount, heq, read, hread, hreads, _, hsame⟩ _
        obtain ⟨rfl, rfl⟩ := Prod.mk.inj (Option.some.inj heq)
        rw [← render_injective hread hmarked hreads]
        exact hsame
      · intro hsame
        exact ⟨_, _, rfl, _, hmarked, rfl, htags, hsame hquery⟩
    · refine iff_of_false ?_ fun h => ?_
      · rintro ⟨out, matchCount, heq, hsame⟩
        obtain ⟨rfl, rfl⟩ := Prod.mk.inj (Option.some.inj (hout.symm.trans heq))
        exact not_unaltered_of_broken hwell (hbroken 0) hsame
      · obtain ⟨q, hplaced, _⟩ := h hquery p hp
        exact hnone q hplaced

/-- The references that escaping writes. -/
def basicEntities : EntityTable where
  lookup name :=
    if name = JsString.units "amp" then some [ampersand]
    else if name = JsString.units "lt" then some [lessThan]
    else if name = JsString.units "gt" then some [greaterThan]
    else none
  name_plain := by
    intro name text h
    split at h
    · subst name; decide
    split at h
    · subst name; decide
    split at h
    · subst name; decide
    · cases h
  shorter := by
    intro name text h
    split at h
    · cases h; simp
    split at h
    · cases h; simp
    split at h
    · cases h; simp
    · cases h
  amp := rfl
  lt := rfl
  gt := rfl

/-- "b" in "a&amp;B" behind a tag that falls apart. -/
theorem unaltered_plain :
    ∃ out matchCount,
      highlightHtml canonicalizeAscii
          (render (.tag (JsString.units "a title=\"x>y\"") ::
            (JsString.units "a&amp;B").map .unit)) [98] (some 0) =
        some (out, matchCount) ∧
      Unaltered basicEntities (.tag (JsString.units "a title=\"x>y\"") ::
        (JsString.units "a&amp;B").map .unit) out := by
  refine (unaltered_iff basicEntities canonicalizeAscii ?_ [98] (some 0)).mpr ?_
  · have hall : (JsString.units "a&amp;B").all (fun u => decide (u ≠ lessThan)) = true := by
      decide
    exact List.forall_mem_cons.mpr ⟨(by decide : IsTag (JsString.units "a title=\"x>y\"")),
      wellFormed_units fun u hu => of_decide_eq_true (List.all_eq_true.mp hall u hu)⟩
  · intro _ p hp
    have hhits : hits (occursAt canonicalizeAscii [98]) 1
        (parts (.tag (JsString.units "a title=\"x>y\"") ::
          (JsString.units "a&amp;B").map .unit)) = [10] := by decide
    obtain rfl : p = 10 := by simpa [hhits] using hp
    refine ⟨7, ⟨by decide, [66], rfl, rfl⟩, fun r text len href => Or.inl ?_⟩
    have hall : ∀ r < 8, ∀ found ∈ referenceAt basicEntities
        ((.tag (JsString.units "a title=\"x>y\"") ::
          (JsString.units "a&amp;B").map Token.unit).drop r), r + found.2 ≤ 7 := by
      decide
    have hr : r < 8 := by
      by_contra hge
      rw [List.drop_eq_nil_of_le (Nat.le_of_not_lt hge)] at href
      cases href
    exact hall r hr (text, len) href

/-- "amp" in the html of "&", and "y" in a tag with a quoted `>`. -/
theorem amp_altered :
    (¬ ∃ out matchCount,
      highlightHtml canonicalizeAscii (JsString.units "&amp;") (JsString.units "amp") none =
        some (out, matchCount) ∧
      Unaltered basicEntities ((JsString.units "&amp;").map .unit) out) ∧
    ¬ ∃ out matchCount,
      highlightHtml canonicalizeAscii (JsString.units "<a title=\"x>y\">t</a>")
          (JsString.units "y") none = some (out, matchCount) ∧
      Unaltered basicEntities [.tag (JsString.units "a title=\"x>y\""), .unit 116,
        .tag (JsString.units "/a")] out := by
  constructor
  · rintro ⟨out, matchCount, hout, read, hread, hreads, _, htext⟩
    have hvalue : highlightHtml canonicalizeAscii (JsString.units "&amp;") (JsString.units "amp")
        none = some (JsString.units "&<mark class=\"match-highlight\">amp</mark>;", 1) := by
      decide
    obtain ⟨rfl, rfl⟩ := Prod.mk.inj (Option.some.inj (hout.symm.trans hvalue))
    have hmarked : WellFormed (.unit ampersand ::
        (markTokens false (JsString.units "amp") ++ [.unit semicolon])) :=
      List.forall_mem_cons.mpr ⟨(by decide : ampersand ≠ lessThan), wellFormed_append.mpr
        ⟨wellFormed_markTokens _ _,
          List.forall_mem_singleton.mpr (by decide : semicolon ≠ lessThan)⟩⟩
    obtain rfl := render_injective hread hmarked (hreads.trans (by decide))
    revert htext
    decide
  · rintro ⟨out, matchCount, hout, read, hread, hreads, htags, _⟩
    have hvalue : highlightHtml canonicalizeAscii (JsString.units "<a title=\"x>y\">t</a>")
        (JsString.units "y") none = some (JsString.units
          "<a title=\"x><mark class=\"match-highlight\">y</mark>\">t</a>", 1) := by
      decide
    obtain ⟨rfl, rfl⟩ := Prod.mk.inj (Option.some.inj (hout.symm.trans hvalue))
    -- a browser reads one tag up to the end of that of the mark
    have htext : (JsString.units "\">t").all (fun u => decide (u ≠ lessThan)) = true := by decide
    have hmarked : WellFormed (
        .tag (JsString.units "a title=\"x><mark class=\"match-highlight\"") :: .unit 121 ::
          .tag closeInside ::
            ((JsString.units "\">t").map .unit ++ [.tag (JsString.units "/a")])) :=
      List.forall_mem_cons.mpr ⟨(by decide : IsTag _), List.forall_mem_cons.mpr
        ⟨(by decide : (121 : UInt16) ≠ lessThan), List.forall_mem_cons.mpr
          ⟨(by decide : IsTag closeInside), wellFormed_append.mpr
            ⟨wellFormed_units fun u hu => of_decide_eq_true (List.all_eq_true.mp htext u hu),
              List.forall_mem_singleton.mpr (by decide : IsTag (JsString.units "/a"))⟩⟩⟩⟩
    obtain rfl := render_injective hread hmarked (hreads.trans (by decide))
    have hrich := htags.filter_rich
    revert hrich
    decide

end NestGateway.Ui.Highlight

