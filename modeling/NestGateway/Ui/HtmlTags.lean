import NestGateway.Ui.Highlight

/-! # The tags of html

A browser ends a tag at the first `>` that is not in a quoted value of an
attribute, so html has one list of tags. `highlightHtml` ends a tag at the first
`>`, and a tag with a `>` in a quoted value falls apart for it, into a shorter
tag and what looks like text.
-/

namespace NestGateway.Ui.Highlight

/-! ## Where a tag ends -/

def solidus : UInt16 := 0x2F

def equalsSign : UInt16 := 0x3D

def quotationMark : UInt16 := 0x22

def apostrophe : UInt16 := 0x27

def isSpace (u : UInt16) : Bool := u = 0x20 || u = 0x09 || u = 0x0A || u = 0x0C

def isLetter (u : UInt16) : Bool := 0x41 ≤ u && u ≤ 0x5A || 0x61 ≤ u && u ≤ 0x7A

/-- The states of the tokenizer of html behind a `<`. -/
inductive TagState where
  | tagOpen
  | endTagOpen
  | tagName
  | beforeName
  | attributeName
  | afterName
  | beforeValue
  | doubleQuoted
  | singleQuoted
  | unquoted
  | afterQuoted
  | selfClosing
  deriving Repr, DecidableEq

namespace TagState

/-- Whether a `>` ends the tag. -/
def ends : TagState → Bool
  | tagOpen | endTagOpen | doubleQuoted | singleQuoted => false
  | _ => true

/-- The next state behind another unit than the `>` that ends the tag, none where no tag begins. -/
def next (u : UInt16) : TagState → Option TagState
  | tagOpen => if u = solidus then some endTagOpen else if isLetter u then some tagName else none
  | endTagOpen => if isLetter u then some tagName else none
  | tagName =>
      some (if isSpace u then beforeName else if u = solidus then selfClosing else tagName)
  | beforeName | afterQuoted | selfClosing =>
      some (if isSpace u then beforeName else if u = solidus then selfClosing else attributeName)
  | attributeName | afterName =>
      some (if isSpace u then afterName else if u = solidus then selfClosing
        else if u = equalsSign then beforeValue else attributeName)
  | beforeValue =>
      some (if isSpace u then beforeValue else if u = quotationMark then doubleQuoted
        else if u = apostrophe then singleQuoted else unquoted)
  | doubleQuoted => some (if u = quotationMark then afterQuoted else doubleQuoted)
  | singleQuoted => some (if u = apostrophe then afterQuoted else singleQuoted)
  | unquoted => some (if isSpace u then beforeName else unquoted)

/-- The state behind a text, none when the tag ends within it or none begins. -/
def read : TagState → JsText → Option TagState
  | s, [] => some s
  | s, u :: us =>
      if u = greaterThan ∧ s.ends = true then none
      else
        match s.next u with
        | none => none
        | some s => s.read us

/-- A `>` behind the text is the first one that ends the tag. -/
def Closes (s : TagState) (text : JsText) : Prop := (s.read text).any ends = true

instance (s : TagState) (text : JsText) : Decidable (s.Closes text) :=
  inferInstanceAs (Decidable (_ = true))

theorem closes_cons {s : TagState} {u : UInt16} {us : JsText} (h : s.Closes (u :: us)) :
    ¬ (u = greaterThan ∧ s.ends = true) ∧ ∃ s', s.next u = some s' ∧ s'.Closes us := by
  unfold Closes at h
  rw [read] at h
  split at h
  · cases h
  next hgoes =>
    split at h
    · cases h
    next s' hnext => exact ⟨hgoes, s', hnext, h⟩

theorem Closes.unique {s : TagState} {us vs rest rest' : JsText} (hus : s.Closes us)
    (hvs : s.Closes vs) (h : us ++ greaterThan :: rest = vs ++ greaterThan :: rest') :
    us = vs ∧ rest = rest' := by
  induction us generalizing s vs with
  | nil =>
      cases vs with
      | nil => exact ⟨rfl, (List.cons.inj h).2⟩
      | cons v vs =>
          obtain ⟨rfl, _⟩ := List.cons.inj h
          exact absurd ⟨rfl, hus⟩ (closes_cons hvs).1
  | cons u us ih =>
      cases vs with
      | nil =>
          obtain ⟨rfl, _⟩ := List.cons.inj h
          exact absurd ⟨rfl, hvs⟩ (closes_cons hus).1
      | cons v vs =>
          obtain ⟨rfl, hmore⟩ := List.cons.inj h
          obtain ⟨_, s', hnext, hus'⟩ := closes_cons hus
          obtain ⟨_, s'', hnext', hvs'⟩ := closes_cons hvs
          obtain rfl := Option.some.inj (hnext.symm.trans hnext')
          obtain ⟨rfl, hrest⟩ := ih hus' hvs' hmore
          exact ⟨rfl, hrest⟩

end TagState

/-- What may stand between the `<` and the `>` of a tag. -/
def IsTag (inside : JsText) : Prop := TagState.tagOpen.Closes inside

instance (inside : JsText) : Decidable (IsTag inside) :=
  inferInstanceAs (Decidable (TagState.Closes _ _))

/-- Tags, and text without a `<`. -/
def Token.WellFormed : Token → Prop
  | .unit u => u ≠ lessThan
  | .tag inside => IsTag inside

def WellFormed (tokens : List Token) : Prop := ∀ t ∈ tokens, t.WellFormed

theorem wellFormed_append {front back : List Token} :
    WellFormed (front ++ back) ↔ WellFormed front ∧ WellFormed back := List.forall_mem_append

theorem wellFormed_units {us : JsText} (h : ∀ u ∈ us, u ≠ lessThan) :
    WellFormed (us.map .unit) := List.forall_mem_map.mpr h

theorem tagText_unique {inside inside' rest rest' : JsText} (h : IsTag inside)
    (h' : IsTag inside') (heq : tagText inside ++ rest = tagText inside' ++ rest') :
    inside = inside' ∧ rest = rest' := by
  refine h.unique h' ?_
  simpa [tagText] using heq

theorem token_unique {t t' : Token} {rest rest' : JsText} (h : t.WellFormed)
    (h' : t'.WellFormed) (heq : t.text ++ rest = t'.text ++ rest') : t = t' ∧ rest = rest' := by
  cases t with
  | unit u =>
      cases t' with
      | unit u' =>
          obtain ⟨rfl, hrest⟩ := List.cons.inj (show u :: rest = u' :: rest' from heq)
          exact ⟨rfl, hrest⟩
      | tag inside' =>
          have hhead := congrArg List.head? heq
          exact absurd (Option.some.inj hhead) h
  | tag inside =>
      cases t' with
      | unit u' =>
          have hhead := congrArg List.head? heq
          exact absurd (Option.some.inj hhead).symm h'
      | tag inside' =>
          obtain ⟨rfl, hrest⟩ := tagText_unique h h' heq
          exact ⟨rfl, hrest⟩

theorem exists_of_render_append {front tokens : List Token} (hfront : WellFormed front)
    (htokens : WellFormed tokens) {rest : JsText} (h : render tokens = render front ++ rest) :
    ∃ back, tokens = front ++ back ∧ render back = rest := by
  induction front generalizing tokens with
  | nil => exact ⟨tokens, rfl, h⟩
  | cons t front ih =>
      obtain ⟨ht, hfront'⟩ := List.forall_mem_cons.mp hfront
      rw [render_cons, List.append_assoc] at h
      cases tokens with
      | nil =>
          have hnil := (List.append_eq_nil_iff.mp h.symm).1
          cases t <;> cases hnil
      | cons t' tokens =>
          obtain ⟨ht', htokens'⟩ := List.forall_mem_cons.mp htokens
          rw [render_cons] at h
          obtain ⟨rfl, hmore⟩ := token_unique ht' ht h
          obtain ⟨back, rfl, hback⟩ := ih hfront' htokens' hmore
          exact ⟨back, rfl, hback⟩

/-- Html is read in one way. -/
theorem render_injective {tokens tokens' : List Token} (h : WellFormed tokens)
    (h' : WellFormed tokens') (heq : render tokens = render tokens') : tokens = tokens' := by
  obtain ⟨back, rfl, hback⟩ := exists_of_render_append h' h (heq.trans (List.append_nil _).symm)
  have hempty : back = [] := by
    cases back with
    | nil => rfl
    | cons t back =>
        rw [render_cons] at hback
        cases t <;> cases hback
  rw [hempty, List.append_nil]

/-! ## The parts that `highlightHtml` makes of html -/

/-- The texts and the tags between which `highlightHtml` splits. -/
def tokenize (html : JsText) : List Token :=
  (splitTags html).flatMap fun part =>
    if isTag part then [.tag part.tail.dropLast] else part.map .unit

theorem tokenize_render {tokens : List Token} (hclean : Clean tokens) :
    tokenize (render tokens) = tokens := by
  have hsplit : ∀ (part : JsText), (∀ u ∈ part, u ≠ lessThan) →
      (splitFrom false part (render tokens)).flatMap (fun part =>
        if isTag part then [Token.tag part.tail.dropLast] else part.map .unit) =
      part.map .unit ++ tokens := by
    induction tokens with
    | nil =>
        intro part hpart
        simp [render, splitFrom, isTag_of_clean hpart]
    | cons t tokens ih =>
        intro part hpart
        obtain ⟨ht, htokens⟩ := clean_cons.mp hclean
        rw [render_cons]
        cases t with
        | unit u =>
            rw [Token.text, List.singleton_append, splitFrom_unit ht, ih htokens]
            · simp
            · intro v hv
              rcases List.mem_append.mp hv with hv | hv
              · exact hpart v hv
              · exact List.mem_singleton.mp hv ▸ ht
        | tag inside =>
            have hinside : (tagText inside).tail.dropLast = inside := by
              unfold tagText
              rw [List.tail_cons, List.dropLast_concat]
            have hmore := ih htokens [] fun u hu => absurd hu List.not_mem_nil
            rw [Token.text, splitFrom_tag ht, List.flatMap_cons, List.flatMap_cons, hmore]
            simp [isTag_of_clean hpart, isTag_tagText, hinside]
  exact hsplit [] fun u hu => absurd hu List.not_mem_nil

/-- Html that ends with a `>` falls into clean parts. -/
theorem exists_clean (html : JsText) (hlast : ∀ u ∈ html.getLast?, u = greaterThan) :
    ∃ parts, Clean parts ∧ render parts = html := by
  induction hn : html.length using Nat.strongRecOn generalizing html with
  | _ n ih =>
      subst hn
      cases html with
      | nil => exact ⟨[], nofun, rfl⟩
      | cons c cs =>
          have hshort : ∀ front rest, cs = front ++ rest →
              ∃ parts, Clean parts ∧ render parts = rest := by
            rintro front rest rfl
            have hfewer : rest.length < (c :: (front ++ rest)).length := by
              rw [List.length_cons, List.length_append]
              omega
            refine ih _ hfewer rest (fun u hu => hlast u ?_) rfl
            rw [← List.cons_append, List.getLast?_append, Option.mem_def.mp hu]
            rfl
          by_cases hc : c = lessThan
          · subst hc
            have hend : greaterThan ∈ cs := by
              cases hcs : cs.getLast? with
              | none =>
                  rw [List.getLast?_eq_none_iff.mp hcs] at hlast
                  exact absurd (hlast lessThan rfl) (by decide)
              | some u =>
                  have hu := hlast u (by rw [List.getLast?_cons, hcs]; rfl)
                  exact hu ▸ List.mem_of_getLast? hcs
            obtain ⟨inside, rest, rfl, hinside⟩ := List.eq_append_cons_of_mem hend
            obtain ⟨parts, hclean, rfl⟩ := hshort (inside ++ [greaterThan]) rest (by simp)
            refine ⟨.tag inside :: parts, clean_cons.mpr ⟨hinside, hclean⟩, ?_⟩
            rw [render_cons, Token.text, tagText]
            simp
          · obtain ⟨parts, hclean, rfl⟩ := hshort [] cs rfl
            exact ⟨.unit c :: parts, clean_cons.mpr ⟨hc, hclean⟩, rfl⟩

theorem clean_append {front back : List Token} :
    Clean (front ++ back) ↔ Clean front ∧ Clean back := List.forall_mem_append

/-- The parts of html, which are its tokens but for tags that fall apart. -/
def parts (tokens : List Token) : List Token := tokenize (render tokens)

section Parts

variable {tokens : List Token}

theorem parts_of_clean (h : Clean tokens) : parts tokens = tokens := tokenize_render h

theorem exists_parts (h : WellFormed tokens) :
    ∃ parts, Clean parts ∧ render parts = render tokens := by
  induction tokens with
  | nil => exact ⟨[], nofun, rfl⟩
  | cons t tokens ih =>
      obtain ⟨ht, htokens⟩ := List.forall_mem_cons.mp h
      obtain ⟨parts, hclean, hrender⟩ := ih htokens
      cases t with
      | unit u =>
          refine ⟨.unit u :: parts, clean_cons.mpr ⟨ht, hclean⟩, ?_⟩
          rw [render_cons, render_cons, hrender]
      | tag inside =>
          have hlast : ∀ u ∈ (tagText inside).getLast?, u = greaterThan := by
            intro u hu
            rw [tagText, ← List.cons_append, List.getLast?_concat] at hu
            exact (Option.some.inj hu).symm
          obtain ⟨front, hfront, htext⟩ := exists_clean (tagText inside) hlast
          refine ⟨front ++ parts, clean_append.mpr ⟨hfront, hclean⟩, ?_⟩
          rw [render_append, render_cons, hrender, htext]
          rfl

theorem clean_parts (h : WellFormed tokens) : Clean (parts tokens) := by
  obtain ⟨front, hclean, hrender⟩ := exists_parts h
  rw [parts, ← hrender, tokenize_render hclean]
  exact hclean

theorem render_parts (h : WellFormed tokens) : render (parts tokens) = render tokens := by
  obtain ⟨front, hclean, hrender⟩ := exists_parts h
  rw [parts, ← hrender, tokenize_render hclean]

theorem parts_append {front back : List Token} (hfront : WellFormed front)
    (hback : WellFormed back) : parts (front ++ back) = parts front ++ parts back := by
  have hclean := clean_append.mpr ⟨clean_parts hfront, clean_parts hback⟩
  have hrender : render (front ++ back) = render (parts front ++ parts back) := by
    rw [render_append, render_append, render_parts hfront, render_parts hback]
  rw [parts, hrender, tokenize_render hclean]

theorem parts_cons {t : Token} (h : WellFormed (t :: tokens)) :
    parts (t :: tokens) = parts [t] ++ parts tokens := by
  obtain ⟨ht, htokens⟩ := List.forall_mem_cons.mp h
  exact parts_append (List.forall_mem_singleton.mpr ht) htokens

theorem parts_unit {u : UInt16} (h : u ≠ lessThan) : parts [.unit u] = [.unit u] :=
  parts_of_clean (List.forall_mem_singleton.mpr h)

theorem parts_tag {inside : JsText} (h : IsTag inside) :
    ∃ first more, parts [.tag inside] = .tag first :: more := by
  have hwell : WellFormed [.tag inside] := List.forall_mem_singleton.mpr h
  have hclean := clean_parts hwell
  have hrender := render_parts hwell
  cases hparts : parts [.tag inside] with
  | nil =>
      rw [hparts] at hrender
      cases hrender
  | cons t more =>
      rw [hparts] at hclean hrender
      cases t with
      | tag first => exact ⟨first, more, rfl⟩
      | unit u =>
          have hhead := congrArg List.head? hrender
          exact absurd (Option.some.inj hhead) (clean_cons.mp hclean).1

theorem parts_ne_nil {t : Token} (h : t.WellFormed) : parts [t] ≠ [] := by
  cases t with
  | unit u =>
      rw [parts_unit h]
      exact List.cons_ne_nil _ _
  | tag inside =>
      obtain ⟨first, more, hparts⟩ := parts_tag h
      rw [hparts]
      exact List.cons_ne_nil _ _

theorem eq_of_parts_units (h : WellFormed tokens) {us : JsText} {rest : List Token}
    (hparts : parts tokens = us.map .unit ++ rest) :
    tokens = us.map .unit ++ tokens.drop us.length := by
  induction us generalizing tokens with
  | nil => rfl
  | cons u us ih =>
      cases tokens with
      | nil => cases hparts
      | cons t tokens =>
          obtain ⟨ht, htokens⟩ := List.forall_mem_cons.mp h
          rw [parts_cons h] at hparts
          cases t with
          | tag inside =>
              obtain ⟨first, more, htag⟩ := parts_tag ht
              rw [htag] at hparts
              cases (List.cons.inj hparts).1
          | unit v =>
              rw [parts_unit ht] at hparts
              obtain ⟨hv, hmore⟩ := List.cons.inj hparts
              obtain rfl := Token.unit.inj hv
              exact congrArg (List.cons _) (ih htokens hmore)

theorem WellFormed.take (h : WellFormed tokens) (n : Nat) : WellFormed (tokens.take n) :=
  fun t ht => h t (List.mem_of_mem_take ht)

theorem WellFormed.drop (h : WellFormed tokens) (n : Nat) : WellFormed (tokens.drop n) :=
  fun t ht => h t (List.mem_of_mem_drop ht)

theorem drop_parts (h : WellFormed tokens) (n : Nat) :
    (parts tokens).drop (parts (tokens.take n)).length = parts (tokens.drop n) := by
  have hwhole := parts_append (h.take n) (h.drop n)
  rw [List.take_append_drop] at hwhole
  rw [hwhole, List.drop_left]

theorem length_parts_take (h : WellFormed tokens) (n k : Nat) :
    (parts (tokens.take (n + k))).length =
      (parts (tokens.take n)).length + (parts ((tokens.drop n).take k)).length := by
  rw [List.take_add, parts_append (h.take n) ((h.drop n).take k), List.length_append]

theorem length_parts_take_lt (h : WellFormed tokens) {n k : Nat} (hlt : n < k)
    (hk : k ≤ tokens.length) :
    (parts (tokens.take n)).length < (parts (tokens.take k)).length := by
  obtain ⟨d, rfl⟩ := Nat.exists_eq_add_of_lt hlt
  have hdrop := List.drop_eq_getElem_cons (Nat.lt_of_lt_of_le hlt hk)
  have hwell : WellFormed ((tokens.drop n).take (d + 1)) := (h.drop n).take (d + 1)
  rw [Nat.add_assoc, length_parts_take h]
  rw [hdrop, List.take_succ_cons] at hwell ⊢
  have hpos := List.length_pos_iff.mpr (parts_ne_nil (hwell _ List.mem_cons_self))
  rw [parts_cons hwell, List.length_append]
  omega

end Parts

end NestGateway.Ui.Highlight
