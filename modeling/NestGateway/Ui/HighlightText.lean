import NestGateway.Ui.Highlight

/-! # What marks do to the text

The text of html is what its character references stand for, which are read
between tags. A mark that touches no reference leaves the text as it is. A mark
that does splits the reference or escapes it again, and the text gets longer.
-/

namespace NestGateway.Ui.Highlight

def semicolon : UInt16 := 0x3B

/-- The names of the character references, each with the text it stands for. -/
structure EntityTable where
  lookup : JsText → Option JsText
  name_plain : ∀ {name text}, lookup name = some text → ampersand ∉ name ∧ semicolon ∉ name
  /-- A reference is longer than its text. -/
  shorter : ∀ {name text}, lookup name = some text → text.length < name.length + 2
  amp : lookup (JsString.units "amp") = some [ampersand]
  lt : lookup (JsString.units "lt") = some [lessThan]
  gt : lookup (JsString.units "gt") = some [greaterThan]

/-- The text up to the next tag. -/
def lead : List Token → JsText
  | .unit u :: ts => u :: lead ts
  | _ => []

section Decode

variable (entities : EntityTable)

/-- The reference that begins here: its text, and how long it is. -/
def referenceAt (tokens : List Token) : Option (JsText × Nat) :=
  match lead tokens with
  | [] => none
  | u :: us =>
      if u = ampersand ∧ semicolon ∈ us then
        let name := us.takeWhile (· ≠ semicolon)
        (entities.lookup name).map fun text => (text, name.length + 2)
      else none

/-- The text of html; the first tokens may be of the last reference. -/
def decodeFrom : Nat → List Token → JsText
  | _, [] => []
  | skip + 1, _ :: ts => decodeFrom skip ts
  | 0, .tag _ :: ts => decodeFrom 0 ts
  | 0, .unit u :: ts =>
      match referenceAt entities (.unit u :: ts) with
      | some (text, len) => text ++ decodeFrom (len - 1) ts
      | none => u :: decodeFrom 0 ts

def decode (tokens : List Token) : JsText := decodeFrom entities 0 tokens

end Decode

/-! ## References in the tokens -/

def reference (name : JsText) : List Token := (ampersand :: (name ++ [semicolon])).map .unit

theorem length_reference (name : JsText) : (reference name).length = name.length + 2 := by
  simp [reference]

theorem lead_append (us : JsText) (rest : List Token) :
    lead (us.map .unit ++ rest) = us ++ lead rest := by
  induction us with
  | nil => rfl
  | cons u us ih => exact congrArg (u :: ·) ih

theorem eq_lead_append (tokens : List Token) :
    ∃ rest, tokens = (lead tokens).map .unit ++ rest := by
  induction tokens with
  | nil => exact ⟨[], rfl⟩
  | cons t ts ih =>
      cases t with
      | tag inside => exact ⟨.tag inside :: ts, rfl⟩
      | unit u =>
          obtain ⟨rest, hrest⟩ := ih
          exact ⟨rest, congrArg (List.cons _) hrest⟩

theorem takeWhile_name {name : JsText} (h : semicolon ∉ name) (rest : JsText) :
    (name ++ semicolon :: rest).takeWhile (· ≠ semicolon) = name := by
  have hplain : ∀ u ∈ name, decide (u ≠ semicolon) = true :=
    fun u hu => decide_eq_true fun heq => h (heq ▸ hu)
  rw [List.takeWhile_append_of_pos hplain, List.takeWhile_cons_of_neg (by simp), List.append_nil]

section References

variable {entities : EntityTable}

theorem referenceAt_reference {name text : JsText} (h : entities.lookup name = some text)
    (rest : List Token) :
    referenceAt entities (reference name ++ rest) = some (text, name.length + 2) := by
  have hlead : lead (reference name ++ rest) =
      ampersand :: (name ++ semicolon :: lead rest) := by
    unfold reference
    rw [lead_append]
    simp
  have hend : semicolon ∈ name ++ semicolon :: lead rest := by simp
  unfold referenceAt
  rw [hlead]
  dsimp only
  rw [if_pos ⟨rfl, hend⟩, takeWhile_name (entities.name_plain h).2, h]
  rfl

theorem referenceAt_eq_some {tokens : List Token} {text : JsText} {len : Nat} :
    referenceAt entities tokens = some (text, len) ↔
      ∃ name rest, tokens = reference name ++ rest ∧ entities.lookup name = some text ∧
        len = name.length + 2 := by
  constructor
  · intro h
    obtain ⟨rest, hrest⟩ := eq_lead_append tokens
    unfold referenceAt at h
    split at h
    · cases h
    · rename_i u us hlead
      split at h
      · rename_i hbegin
        obtain ⟨rfl, hend⟩ := hbegin
        -- the name goes up to the first semicolon
        obtain ⟨name, after, rfl, hname⟩ := List.eq_append_cons_of_mem hend
        dsimp only at h
        rw [takeWhile_name hname] at h
        obtain ⟨text', hlookup, heq⟩ := Option.map_eq_some_iff.mp h
        cases heq
        refine ⟨name, after.map .unit ++ rest, ?_, hlookup, rfl⟩
        rw [hrest, hlead]
        simp [reference]
      · cases h
  · rintro ⟨name, rest, rfl, hlookup, rfl⟩
    exact referenceAt_reference hlookup rest

theorem referenceAt_unit {u : UInt16} (h : u ≠ ampersand) (ts : List Token) :
    referenceAt entities (.unit u :: ts) = none := by
  simp [referenceAt, lead, h]

theorem referenceAt_inside {name text : JsText} (h : entities.lookup name = some text)
    (rest : List Token) {r : Nat} (hpos : 0 < r) (hlt : r < name.length + 2) :
    referenceAt entities ((reference name ++ rest).drop r) = none := by
  obtain ⟨k, rfl⟩ := Nat.exists_eq_succ_of_ne_zero (Nat.ne_of_gt hpos)
  have hk : k < (name ++ [semicolon]).length := by
    rw [List.length_append, List.length_singleton]
    omega
  have hdrop : (reference name ++ rest).drop (k + 1) =
      .unit (name ++ [semicolon])[k] ::
        (((name ++ [semicolon]).drop (k + 1)).map .unit ++ rest) := by
    unfold reference
    rw [List.map_cons, List.cons_append, List.drop_succ_cons,
      List.drop_append_of_le_length (by simpa using Nat.le_of_lt hk), ← List.map_drop,
      List.drop_eq_getElem_cons hk]
    rfl
  have hplain : (name ++ [semicolon])[k] ≠ ampersand := by
    rcases List.mem_append.mp (List.getElem_mem hk) with hmem | hmem
    · exact fun heq => (entities.name_plain h).1 (heq ▸ hmem)
    · rw [List.mem_singleton.mp hmem]
      decide
  rw [hdrop]
  exact referenceAt_unit hplain _

theorem referenceAt_append {tokens : List Token} {found : JsText × Nat}
    (h : referenceAt entities tokens = some found) (rest : List Token) :
    referenceAt entities (tokens ++ rest) = some found := by
  obtain ⟨name, after, rfl, hlookup, hlen⟩ := referenceAt_eq_some.mp h
  exact referenceAt_eq_some.mpr
    ⟨name, after ++ rest, List.append_assoc _ _ _, hlookup, hlen⟩

end References

/-- `xs` is `ys` if `P`, and shorter if not. -/
def ShorterUnless (P : Prop) (xs ys : JsText) : Prop :=
  P ∧ xs = ys ∨ ¬ P ∧ xs.length < ys.length

section ShorterUnless

variable {P Q : Prop} {xs ys zs : JsText}

theorem ShorterUnless.length_le (h : ShorterUnless P xs ys) : xs.length ≤ ys.length := by
  rcases h with ⟨_, rfl⟩ | ⟨_, hlt⟩
  · exact Nat.le_refl _
  · exact Nat.le_of_lt hlt

theorem ShorterUnless.eq_iff (h : ShorterUnless P xs ys) : ys = xs ↔ P := by
  rcases h with ⟨hp, rfl⟩ | ⟨hp, hlt⟩
  · exact iff_of_true rfl hp
  · exact iff_of_false (fun heq => by rw [heq] at hlt; exact Nat.lt_irrefl _ hlt) hp

theorem ShorterUnless.congr (h : ShorterUnless P xs ys) (hpq : P ↔ Q) : ShorterUnless Q xs ys := by
  rwa [ShorterUnless, ← hpq]

theorem ShorterUnless.trans (h : ShorterUnless P xs ys) (h' : ShorterUnless Q ys zs) :
    ShorterUnless (P ∧ Q) xs zs := by
  rcases h with ⟨hp, rfl⟩ | ⟨hp, hlt⟩
  · exact h'.congr (and_iff_right hp).symm
  · exact Or.inr ⟨fun hpq => hp hpq.1, Nat.lt_of_lt_of_le hlt h'.length_le⟩

theorem ShorterUnless.append_left (front : JsText) (h : ShorterUnless P xs ys) :
    ShorterUnless P (front ++ xs) (front ++ ys) := by
  rcases h with ⟨hp, rfl⟩ | ⟨hp, hlt⟩
  · exact Or.inl ⟨hp, rfl⟩
  · refine Or.inr ⟨hp, ?_⟩
    rw [List.length_append, List.length_append]
    omega

theorem ShorterUnless.append_right (h : ShorterUnless P xs ys) (rest : JsText) :
    ShorterUnless P (xs ++ rest) (ys ++ rest) := by
  rcases h with ⟨hp, rfl⟩ | ⟨hp, hlt⟩
  · exact Or.inl ⟨hp, rfl⟩
  · refine Or.inr ⟨hp, ?_⟩
    rw [List.length_append, List.length_append]
    omega

end ShorterUnless

/-! ## The text of the tokens -/

section Text

variable (entities : EntityTable)

theorem decodeFrom_skip (skip : Nat) (tokens : List Token) :
    decodeFrom entities skip tokens = decode entities (tokens.drop skip) := by
  induction tokens generalizing skip with
  | nil => cases skip <;> rfl
  | cons t ts ih =>
      cases skip with
      | zero => rfl
      | succ skip => exact ih skip

theorem decode_tag (inside : JsText) (ts : List Token) :
    decode entities (.tag inside :: ts) = decode entities ts := rfl

variable {entities}

theorem decode_unit {u : UInt16} {ts : List Token}
    (h : referenceAt entities (.unit u :: ts) = none) :
    decode entities (.unit u :: ts) = u :: decode entities ts := by
  simp [decode, decodeFrom, h]

theorem decode_reference {name text : JsText} (h : entities.lookup name = some text)
    (rest : List Token) :
    decode entities (reference name ++ rest) = text ++ decode entities rest := by
  have href := referenceAt_reference h rest
  have hcons : reference name ++ rest =
      .unit ampersand :: ((name ++ [semicolon]).map .unit ++ rest) := rfl
  have hlen : name.length + 2 - 1 = ((name ++ [semicolon]).map Token.unit).length := by simp
  rw [hcons] at href ⊢
  rw [decode, decodeFrom, href]
  dsimp only
  rw [decodeFrom_skip, hlen, List.drop_left]

theorem tokens_induction (entities : EntityTable) {P : List Token → Prop} (nil : P [])
    (tag : ∀ inside ts, P ts → P (.tag inside :: ts))
    (unit : ∀ u ts, referenceAt entities (.unit u :: ts) = none → P ts → P (.unit u :: ts))
    (reference : ∀ name text ts, entities.lookup name = some text → P ts → P (reference name ++ ts))
    (tokens : List Token) : P tokens := by
  induction hn : tokens.length using Nat.strongRecOn generalizing tokens with
  | _ n ih =>
      subst hn
      cases tokens with
      | nil => exact nil
      | cons t ts =>
          cases t with
          | tag inside => exact tag inside ts (ih _ (Nat.lt_succ_self _) ts rfl)
          | unit u =>
              cases href : referenceAt entities (.unit u :: ts) with
              | none => exact unit u ts href (ih _ (Nat.lt_succ_self _) ts rfl)
              | some found =>
                  obtain ⟨name, rest, heq, hlookup, _⟩ := referenceAt_eq_some.mp href
                  rw [heq] at ih ⊢
                  refine reference name found.1 rest hlookup (ih _ ?_ rest rfl)
                  rw [List.length_append, length_reference]
                  omega

theorem decode_plain {us : JsText} (h : ampersand ∉ us) (rest : List Token) :
    decode entities (us.map .unit ++ rest) = us ++ decode entities rest := by
  induction us with
  | nil => rfl
  | cons u us ih =>
      rw [List.mem_cons, not_or] at h
      obtain ⟨hu, hus⟩ := h
      have hnone := @referenceAt_unit entities u (Ne.symm hu) (us.map .unit ++ rest)
      rw [List.map_cons, List.cons_append, decode_unit hnone, ih hus]
      rfl

/-- Without its semicolon a reference is plain text. -/
theorem decode_begun {us : JsText} (hamp : ampersand ∉ us) (hend : semicolon ∉ us) :
    decode entities (.unit ampersand :: us.map .unit) = ampersand :: us := by
  have hlead : lead (.unit ampersand :: us.map .unit) = ampersand :: us := by
    have happ := lead_append (ampersand :: us) []
    simpa [lead] using happ
  have hnone : referenceAt entities (.unit ampersand :: us.map .unit) = none := by
    simp [referenceAt, hlead, hend]
  have hus := @decode_plain entities us hamp []
  rw [List.append_nil] at hus
  rw [decode_unit hnone, hus]
  simp [decode, decodeFrom]

/-- No reference goes across the place where the tokens are cut. -/
def NoCross (entities : EntityTable) (front rest : List Token) : Prop :=
  ∀ r < front.length, ∀ text len,
    referenceAt entities ((front ++ rest).drop r) = some (text, len) → r + len ≤ front.length

theorem noCross_cons {t : Token} {front rest : List Token}
    (h : referenceAt entities (t :: (front ++ rest)) = none) :
    NoCross entities (t :: front) rest ↔ NoCross entities front rest := by
  constructor
  · intro hcross r hr text len href
    have := hcross (r + 1) (Nat.succ_lt_succ hr) text len href
    rw [List.length_cons] at this
    omega
  · intro hcross r hr text len href
    cases r with
    | zero =>
        rw [List.cons_append, List.drop_zero, h] at href
        cases href
    | succ r =>
        have := hcross r (Nat.lt_of_succ_lt_succ hr) text len href
        rw [List.length_cons]
        omega

theorem noCross_reference {name text : JsText} (h : entities.lookup name = some text)
    (front rest : List Token) :
    NoCross entities (reference name ++ front) rest ↔ NoCross entities front rest := by
  have hlen := length_reference name
  have hshift : ∀ r, (reference name ++ front ++ rest).drop (name.length + 2 + r) =
      (front ++ rest).drop r := by
    intro r
    rw [← hlen, List.append_assoc, ← List.drop_drop, List.drop_left]
  constructor
  · intro hcross r hr text len href
    rw [← hshift] at href
    have := hcross _ (by rw [List.length_append, hlen]; omega) text len href
    rw [List.length_append, hlen] at this
    omega
  · intro hcross r hr text' len href
    rw [List.length_append, hlen] at hr ⊢
    rcases Nat.lt_or_ge r (name.length + 2) with hlt | hge
    · rcases Nat.eq_zero_or_pos r with rfl | hpos
      · rw [List.drop_zero, List.append_assoc, referenceAt_reference h] at href
        cases href
        omega
      · rw [List.append_assoc, referenceAt_inside h _ hpos hlt] at href
        cases href
    · obtain ⟨k, rfl⟩ := Nat.exists_eq_add_of_le hge
      rw [hshift] at href
      have := hcross k (by omega) text' len href
      omega

/-- A cut through a reference makes the text longer. -/
theorem decode_cut {name text : JsText} (h : entities.lookup name = some text)
    {front back : List Token} (hfront : front ≠ []) (hback : back ≠ [])
    (hcut : front ++ back = reference name) (rest : List Token) :
    ShorterUnless (NoCross entities front (back ++ rest))
      (decode entities (front ++ (back ++ rest)))
      (decode entities front ++ decode entities (back ++ rest)) := by
  have hsum : front.length + back.length = name.length + 2 := by
    rw [← List.length_append, hcut, length_reference]
  have hfrontpos := List.length_pos_iff.mpr hfront
  have hbackpos := List.length_pos_iff.mpr hback
  have hwhole : front ++ (back ++ rest) = reference name ++ rest := by
    rw [← List.append_assoc, hcut]
  -- the front is the ampersand and the beginning of the name, the back has no ampersand
  obtain ⟨t, front, rfl⟩ := List.exists_cons_of_ne_nil hfront
  obtain ⟨rfl, htail⟩ := List.cons.inj hcut
  obtain ⟨us, vs, hname, rfl, rfl⟩ := List.map_eq_append_iff.mp htail.symm
  have hplain : ampersand ∉ us ++ vs := by
    rw [← hname, List.mem_append, List.mem_singleton, not_or]
    exact ⟨(entities.name_plain h).1, by decide⟩
  have hend : semicolon ∉ us := by
    have hvs : vs ≠ [] := fun hnil => hback (by rw [hnil]; rfl)
    obtain ⟨vs, v, rfl⟩ := List.eq_nil_or_concat vs |>.resolve_left hvs
    rw [List.concat_eq_append, ← List.append_assoc] at hname
    have hinit := (List.append_inj' hname rfl).1
    exact fun hmem => (entities.name_plain h).2 (hinit ▸ List.mem_append_left _ hmem)
  rw [List.mem_append, not_or] at hplain
  refine Or.inr ⟨fun hcross => ?_, ?_⟩
  · have href := referenceAt_reference h rest
    rw [← hwhole] at href
    have := hcross 0 hfrontpos text _ href
    omega
  · have hshorter := entities.shorter h
    rw [hwhole, decode_reference h, decode_begun hplain.1 hend, decode_plain hplain.2]
    simp only [List.length_append, List.length_cons, List.length_map] at hsum ⊢
    omega

/-- Tokens that are cut stand for their texts, unless the cut goes through a reference. -/
theorem decode_append (front rest : List Token) :
    ShorterUnless (NoCross entities front rest) (decode entities (front ++ rest))
      (decode entities front ++ decode entities rest) := by
  have hnil : ∀ rest, ShorterUnless (NoCross entities [] rest) (decode entities ([] ++ rest))
      (decode entities [] ++ decode entities rest) :=
    fun rest => Or.inl ⟨fun r hr => absurd hr (Nat.not_lt_zero r), rfl⟩
  generalize hwhole : front ++ rest = whole
  induction whole using tokens_induction entities generalizing front with
  | nil =>
      obtain ⟨rfl, rfl⟩ := List.append_eq_nil_iff.mp hwhole
      exact hnil []
  | tag inside ts ih =>
      cases front with
      | nil => exact hwhole ▸ hnil rest
      | cons t front =>
          obtain ⟨rfl, rfl⟩ := List.cons.inj hwhole
          have hcross := @noCross_cons entities (.tag inside) front rest rfl
          rw [decode_tag, decode_tag]
          exact (ih front rfl).congr hcross.symm
  | unit u ts hnone ih =>
      cases front with
      | nil => exact hwhole ▸ hnil rest
      | cons t front =>
          obtain ⟨rfl, rfl⟩ := List.cons.inj hwhole
          have hfront : referenceAt entities (.unit u :: front) = none := by
            cases href : referenceAt entities (.unit u :: front) with
            | none => rfl
            | some found => exact (referenceAt_append href rest).symm.trans hnone
          rw [decode_unit hnone, decode_unit hfront]
          exact ((ih front rfl).append_left [u]).congr (noCross_cons hnone).symm
  | reference name text ts hlookup ih =>
      have hsplit : front = [] ∨ (∃ more, front = reference name ++ more ∧ more ++ rest = ts) ∨
          ∃ back, front ≠ [] ∧ back ≠ [] ∧ front ++ back = reference name ∧ rest = back ++ ts := by
        rcases List.append_eq_append_iff.mp hwhole with ⟨back, hcut, hrest⟩ | ⟨more, hmore, hts⟩
        · by_cases hback : back = []
          · subst hback
            rw [List.append_nil] at hcut
            exact Or.inr (Or.inl ⟨[], by rw [hcut, List.append_nil], hrest⟩)
          · by_cases hfront : front = []
            · exact Or.inl hfront
            · exact Or.inr (Or.inr ⟨back, hfront, hback, hcut.symm, hrest⟩)
        · exact Or.inr (Or.inl ⟨more, hmore, hts.symm⟩)
      rcases hsplit with rfl | ⟨front, rfl, hts⟩ | ⟨back, hfront, hback, hcut, rfl⟩
      · exact hwhole ▸ hnil rest
      · rw [decode_reference hlookup, decode_reference hlookup, List.append_assoc]
        exact ((ih front hts).append_left text).congr (noCross_reference hlookup front rest).symm
      · rw [← hwhole]
        exact decode_cut hlookup hfront hback hcut ts

theorem decode_text (us : JsText) :
    ShorterUnless (∀ r, referenceAt entities ((us.map Token.unit).drop r) = none)
      (decode entities (us.map Token.unit)) us := by
  generalize hwhole : us.map Token.unit = whole
  induction whole using tokens_induction entities generalizing us with
  | nil =>
      obtain rfl := List.map_eq_nil_iff.mp hwhole
      exact Or.inl ⟨fun r => by rw [List.drop_nil]; rfl, rfl⟩
  | tag inside ts ih =>
      cases us with
      | nil => cases hwhole
      | cons u us => cases (List.cons.inj hwhole).1
  | unit u ts hnone ih =>
      cases us with
      | nil => cases hwhole
      | cons v us =>
          obtain ⟨hu, hts⟩ := List.cons.inj hwhole
          obtain rfl := Token.unit.inj hu
          rw [decode_unit hnone]
          refine ((ih us hts).append_left [v]).congr ⟨fun hmore r => ?_, fun hall r => hall (r + 1)⟩
          cases r with
          | zero => exact hnone
          | succ r => exact hmore r
  | reference name text ts hlookup ih =>
      obtain ⟨vs, us, rfl, hvs, hts⟩ := List.map_eq_append_iff.mp hwhole
      have hlen : vs.length = name.length + 2 := by
        rw [← length_reference, ← hvs, List.length_map]
      have hle := (ih us hts).length_le
      have hshorter := entities.shorter hlookup
      refine Or.inr ⟨fun hnone => ?_, ?_⟩
      · have href := hnone 0
        rw [List.drop_zero, referenceAt_reference hlookup] at href
        cases href
      · rw [decode_reference hlookup, List.length_append, List.length_append]
        omega

theorem no_reference_iff (us : JsText) (rest : List Token) :
    NoCross entities (us.map Token.unit) rest ∧
        (∀ r, referenceAt entities ((us.map Token.unit).drop r) = none) ↔
      ∀ r < us.length, referenceAt entities ((us.map Token.unit ++ rest).drop r) = none := by
  have hdrop : ∀ r ≤ us.length, (us.map Token.unit ++ rest).drop r =
      (us.map Token.unit).drop r ++ rest :=
    fun r hr => List.drop_append_of_le_length (by rwa [List.length_map])
  constructor
  · rintro ⟨hcross, hnone⟩ r hr
    cases href : referenceAt entities ((us.map Token.unit ++ rest).drop r) with
    | none => rfl
    | some found =>
        -- the reference would end in the text as well
        have hend := hcross r (by rwa [List.length_map]) found.1 found.2 href
        rw [List.length_map] at hend
        rw [hdrop r (Nat.le_of_lt hr)] at href
        obtain ⟨name, after, hwhole, hlookup, hlen⟩ := referenceAt_eq_some.mp href
        have hbegin : reference name <+: (us.map Token.unit).drop r := by
          refine List.prefix_of_prefix_length_le ⟨after, hwhole.symm⟩ (List.prefix_append _ rest) ?_
          rw [length_reference, List.length_drop, List.length_map]
          omega
        obtain ⟨more, hmore⟩ := hbegin
        have hsome := referenceAt_reference hlookup more
        rw [hmore, hnone r] at hsome
        cases hsome
  · intro hnone
    refine ⟨fun r hr text len href => ?_, fun r => ?_⟩
    · rw [List.length_map] at hr
      rw [hnone r hr] at href
      cases href
    · rcases Nat.lt_or_ge r us.length with hlt | hge
      · cases href : referenceAt entities ((us.map Token.unit).drop r) with
        | none => rfl
        | some found =>
            have hsome := referenceAt_append href rest
            rw [← hdrop r (Nat.le_of_lt hlt), hnone r hlt] at hsome
            cases hsome
      · rw [List.drop_eq_nil_of_le (by rwa [List.length_map])]
        rfl

theorem decode_match (us : JsText) (rest : List Token) :
    ShorterUnless
      (∀ r < us.length, referenceAt entities ((us.map Token.unit ++ rest).drop r) = none)
      (decode entities (us.map Token.unit ++ rest)) (us ++ decode entities rest) :=
  ((decode_append (us.map Token.unit) rest).trans
    ((decode_text us).append_right (decode entities rest))).congr (no_reference_iff us rest)

theorem lead_tag (front rest : List Token) (inside : JsText) :
    lead (front ++ .tag inside :: rest) = lead front := by
  induction front with
  | nil => rfl
  | cons t front ih =>
      cases t with
      | tag inside => rfl
      | unit u => exact congrArg (u :: ·) ih

/-- A tag ends the text before it. -/
theorem decode_before_tag (front rest : List Token) (inside : JsText) :
    decode entities (front ++ .tag inside :: rest) =
      decode entities front ++ decode entities rest := by
  rcases decode_append front (.tag inside :: rest) with ⟨_, htext⟩ | ⟨hcross, _⟩
  · exact htext
  · refine absurd (fun r hr text len href => ?_) hcross
    rw [List.drop_append_of_le_length (Nat.le_of_lt hr)] at href
    unfold referenceAt at href
    rw [lead_tag] at href
    obtain ⟨name, after, hfront, _, hlen⟩ := referenceAt_eq_some.mp href
    have hlength := congrArg List.length hfront
    rw [List.length_drop, List.length_append, length_reference] at hlength
    omega

theorem escapeText_cons (u : UInt16) (us : JsText) :
    escapeText (u :: us) = escapeText [u] ++ escapeText us := by
  simp [escapeText, List.flatMap_append]

theorem escapeText_plain {u : UInt16} (hamp : u ≠ ampersand) (hlt : u ≠ lessThan)
    (hgt : u ≠ greaterThan) : escapeText [u] = [u] := by
  simp [escapeText, hamp, hlt, hgt]

theorem decode_escapeText (us : JsText) (rest : List Token) :
    decode entities ((escapeText us).map .unit ++ rest) = us ++ decode entities rest := by
  induction us with
  | nil => rfl
  | cons u us ih =>
      rw [escapeText_cons, List.map_append, List.append_assoc]
      by_cases hamp : u = ampersand
      · have href : (escapeText [u]).map .unit = reference (JsString.units "amp") := by
          rw [hamp]
          decide
        rw [href, decode_reference entities.amp, ih, hamp]
        rfl
      by_cases hlt : u = lessThan
      · have href : (escapeText [u]).map .unit = reference (JsString.units "lt") := by
          rw [hlt]
          decide
        rw [href, decode_reference entities.lt, ih, hlt]
        rfl
      by_cases hgt : u = greaterThan
      · have href : (escapeText [u]).map .unit = reference (JsString.units "gt") := by
          rw [hgt]
          decide
        rw [href, decode_reference entities.gt, ih, hgt]
        rfl
      have hnone := @referenceAt_unit entities u hamp ((escapeText us).map .unit ++ rest)
      rw [escapeText_plain hamp hlt hgt, List.map_singleton, List.singleton_append,
        decode_unit hnone, ih]
      rfl

theorem decode_markTokens (front rest : List Token) (current : Bool) (us : JsText) :
    decode entities (front ++ (markTokens current us ++ rest)) =
      decode entities front ++ (us ++ decode entities rest) := by
  unfold markTokens
  rw [List.cons_append, decode_before_tag, List.append_assoc, List.singleton_append,
    decode_escapeText, decode_tag]

end Text

end NestGateway.Ui.Highlight
