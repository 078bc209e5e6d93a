import NestGateway.Core.GoJson

/-! # JSON texts between JavaScript and Go

What `JSON.stringify` writes, and that `json.Unmarshal` reads it back: strings
with any characters, numbers as JavaScript writes them, nested arrays and
objects.
-/

namespace NestGateway.GoJson

open Text Regex Re

/-- A character within a string; other than the Go encoder, this one leaves HTML characters. -/
def stringifyChar (c : Char) : List Char :=
  if c = '"' ∨ c = '\\' then ['\\', c]
  else if c = Char.ofNat 8 then ['\\', 'b']
  else if c = Char.ofNat 12 then ['\\', 'f']
  else if c = '\n' then ['\\', 'n']
  else if c = '\r' then ['\\', 'r']
  else if c = '\t' then ['\\', 't']
  else if c.toNat < 0x20 then
    ['\\', 'u', '0', '0', hexDigit (c.toNat / 16), hexDigit (c.toNat % 16)]
  else [c]

def stringText (s : String) : List Char := '"' :: (s.toList.flatMap stringifyChar ++ ['"'])

mutual

/-- The text of a value whose members are in the order of enumeration. -/
def jsonText : Json → List Char
  | .null => ['n', 'u', 'l', 'l']
  | .bool true => ['t', 'r', 'u', 'e']
  | .bool false => ['f', 'a', 'l', 's', 'e']
  | .num text => text.toList
  | .str s => stringText s
  | .arr [] => ['[', ']']
  | .arr (v :: vs) => '[' :: (jsonText v ++ moreElements vs)
  | .obj [] => ['{', '}']
  | .obj (m :: ms) => '{' :: (memberText m ++ moreMembers ms)

def moreElements : List Json → List Char
  | [] => [']']
  | v :: vs => ',' :: (jsonText v ++ moreElements vs)

def memberText : String × Json → List Char
  | (k, v) => stringText k ++ ':' :: jsonText v

def moreMembers : List (String × Json) → List Char
  | [] => ['}']
  | m :: ms => ',' :: (memberText m ++ moreMembers ms)

end

/-- `JSON.stringify` -/
def stringify (v : Json) : String := String.ofList (jsonText v)

/-! ## Strings are read back -/

theorem hexValue_hexDigit {n : Nat} (h : n < 16) : hexValue (hexDigit n) = some n := by
  have hall : ∀ n < 16, hexValue (hexDigit n) = some n := by decide
  exact hall n h

theorem unescape_byte {c : Char} (h : c.toNat < 0x100) (rest : List Char) :
    unescape ('u' :: '0' :: '0' :: hexDigit (c.toNat / 16) :: hexDigit (c.toNat % 16) :: rest) =
      some (c, rest) := by
  have hzero : hexValue '0' = some 0 := by decide
  have hhigh := hexValue_hexDigit (n := c.toNat / 16) (by omega)
  have hlow := hexValue_hexDigit (n := c.toNat % 16) (by omega)
  have hvalue : ((0 * 16 + 0) * 16 + c.toNat / 16) * 16 + c.toNat % 16 = c.toNat := by omega
  simp only [unescape, codeUnit, hzero, hhigh, hlow, Option.bind_eq_bind, Option.bind_some,
    Option.map_some, hvalue]
  rw [decodeUnit.eq_def, if_pos (by simp; omega), Char.ofNat_toNat]

theorem bind_body {c d : Char} (h : d = c) (body : Option (List Char × List Char)) :
    (do
      let (ds, rest) ← body
      some (d :: ds, rest)) = body.map fun body => (c :: body.1, body.2) := by
  subst h
  cases body <;> rfl

theorem stringBody_char (c : Char) (fuel : Nat) (rest : List Char) :
    stringBody (fuel + 1) (stringifyChar c ++ rest) =
      (stringBody fuel rest).map fun body => (c :: body.1, body.2) := by
  have hbind : ∀ d : Char, d = c → _ := fun d h => bind_body h (stringBody fuel rest)
  rw [stringifyChar]
  split
  next h =>
    rcases h with rfl | rfl <;> exact hbind _ rfl
  split
  next h => exact hbind _ h.symm
  split
  next h => exact hbind _ h.symm
  split
  next h => exact hbind _ h.symm
  split
  next h => exact hbind _ h.symm
  split
  next h => exact hbind _ h.symm
  split
  next h =>
    simp only [List.cons_append, List.nil_append, stringBody]
    rw [if_neg (by decide), if_pos (by decide), unescape_byte (by omega)]
    exact hbind c rfl
  next hquote _ _ _ _ _ hcontrol =>
    simp only [not_or] at hquote
    simp only [List.cons_append, List.nil_append, stringBody]
    rw [if_neg (by simpa using hquote.1), if_neg (by simpa using hquote.2), if_neg hcontrol]
    exact hbind c rfl

theorem stringBody_text (cs : List Char) {fuel : Nat} (hfuel : cs.length < fuel)
    (rest : List Char) :
    stringBody fuel (cs.flatMap stringifyChar ++ '"' :: rest) = some (cs, rest) := by
  induction cs generalizing fuel with
  | nil =>
      obtain ⟨fuel, rfl⟩ := Nat.exists_eq_succ_of_ne_zero (Nat.ne_zero_of_lt hfuel)
      rfl
  | cons c cs ih =>
      obtain ⟨fuel, rfl⟩ := Nat.exists_eq_succ_of_ne_zero (Nat.ne_zero_of_lt hfuel)
      rw [List.flatMap_cons, List.append_assoc, stringBody_char,
        ih (Nat.lt_of_succ_lt_succ hfuel)]
      rfl

theorem stringifyChar_ne_nil (c : Char) : stringifyChar c ≠ [] := by
  rw [stringifyChar]
  repeat' split
  all_goals exact List.cons_ne_nil _ _

theorem length_le_flatMap (cs : List Char) : cs.length ≤ (cs.flatMap stringifyChar).length := by
  induction cs with
  | nil => exact Nat.le_refl _
  | cons c cs ih =>
      have := List.length_pos_iff.mpr (stringifyChar_ne_nil c)
      rw [List.flatMap_cons, List.length_append, List.length_cons]
      omega

theorem stringToken_text (s : String) (rest : List Char) :
    stringToken (stringText s ++ rest) = some (s, rest) := by
  have hlen := length_le_flatMap s.toList
  rw [stringText, List.cons_append, stringToken, List.append_assoc, List.singleton_append,
    stringBody_text]
  · simp
  · rw [List.length_append]
    omega

/-! ## Numbers are read back -/

inductive IsInt : List Char → Prop
  | zero : IsInt ['0']
  | digits {c : Char} {ds : List Char} (hc : isDigit c = true) (hne : c ≠ '0')
      (hds : ∀ d ∈ ds, isDigit d = true) : IsInt (c :: ds)

inductive IsFrac : List Char → Prop
  | none : IsFrac []
  | some {ds : List Char} (hne : ds ≠ []) (hds : ∀ d ∈ ds, isDigit d = true) : IsFrac ('.' :: ds)

inductive IsExp : List Char → Prop
  | none : IsExp []
  | some {sign ds : List Char} (hsign : sign = ['+'] ∨ sign = ['-']) (hne : ds ≠ [])
      (hds : ∀ d ∈ ds, isDigit d = true) : IsExp ('e' :: (sign ++ ds))

/-- The text of a finite number in JavaScript. -/
def IsNumber (text : String) : Prop :=
  ∃ sign int frac exp, text.toList = sign ++ (int ++ (frac ++ exp)) ∧
    (sign = [] ∨ sign = ['-']) ∧ IsInt int ∧ IsFrac frac ∧ IsExp exp

theorem isInt_toDigits (n : Nat) : IsInt (Nat.toDigits 10 n) := by
  have hdigit : ∀ n < 10, n ≠ 0 → isDigit n.digitChar = true ∧ n.digitChar ≠ '0' := by decide
  induction n using Nat.strongRecOn with
  | ind n ih =>
      rcases Nat.lt_or_ge n 10 with hlt | hle
      · rw [Nat.toDigits_of_lt_base hlt]
        rcases Nat.eq_zero_or_pos n with rfl | hpos
        · exact .zero
        · obtain ⟨hd, hne⟩ := hdigit n hlt (Nat.ne_of_gt hpos)
          exact .digits hd hne fun d hmem => absurd hmem List.not_mem_nil
      · have hrest := ih (n / 10) (by omega)
        have hall : ∀ d ∈ Nat.toDigits 10 n, isDigit d = true := fun d hd =>
          isDigit_of_mem_toDigits hd
        rw [Nat.toDigits_of_base_le (by decide) hle] at hall ⊢
        cases hds : Nat.toDigits 10 (n / 10) with
        | nil => exact absurd hds Nat.toDigits_ne_nil
        | cons c ds =>
            rw [hds] at hrest hall
            cases hrest with
            | zero =>
                have hzero := Nat.ofDigitChars_ten_toDigits (n := n / 10)
                rw [hds] at hzero
                have : Nat.ofDigitChars 10 ['0'] 0 = 0 := by decide
                omega
            | digits hc hne _ =>
                exact .digits hc hne fun d hd => hall d (List.mem_cons_of_mem _ hd)

theorem isNumber_repr (n : Nat) : IsNumber (Nat.repr n) := by
  refine ⟨[], Nat.toDigits 10 n, [], [], ?_, Or.inl rfl, isInt_toDigits n, .none, .none⟩
  rw [Nat.toList_repr, List.append_nil, List.append_nil, List.nil_append]

/-- What may follow a value. -/
def Ends (rest : List Char) : Prop := ∀ c ∈ rest.head?, c = ',' ∨ c = ']' ∨ c = '}'

section NoHead

variable {p : Char → Bool} {rest : List Char} (ends : Ends rest)
  (hp : p ',' = false ∧ p ']' = false ∧ p '}' = false)
include ends hp

theorem noHead_ends : NoHead p rest := by
  intro c hc
  rcases ends c hc with rfl | rfl | rfl
  · exact hp.1
  · exact hp.2.1
  · exact hp.2.2

theorem noHead_exp {exp : List Char} (hexp : IsExp exp) (he : p 'e' = false) :
    NoHead p (exp ++ rest) := by
  cases hexp with
  | none => exact noHead_ends ends hp
  | some hsign hne hds =>
      intro c hc
      obtain rfl := Option.some.inj hc
      exact he

theorem noHead_frac {frac exp : List Char} (hfrac : IsFrac frac) (hexp : IsExp exp)
    (hdot : p '.' = false) (he : p 'e' = false) : NoHead p (frac ++ (exp ++ rest)) := by
  cases hfrac with
  | none => exact noHead_exp ends hp hexp he
  | some hne hds =>
      intro c hc
      obtain rfl := Option.some.inj hc
      exact hdot

end NoHead

theorem takes_exp {exp rest : List Char} (hexp : IsExp exp) (ends : Ends rest) :
    Takes (opt (all [cls fun c => c == 'e' || c == 'E', opt (cls fun c => c == '+' || c == '-'),
      plus digit])) exp rest := by
  have hdigit : NoHead isDigit rest := noHead_ends ends (by decide)
  cases hexp with
  | none =>
      refine takes_opt_nil (Fails.seq (fails_cls ?_))
      exact noHead_ends ends (by decide)
  | some hsign hne hds =>
      refine Takes.alt_left (Takes.cons rfl ?_)
      refine Takes.seq (Takes.alt_left ?_) (takes_plus hne hds hdigit)
      rcases hsign with rfl | rfl
      · exact takes_cls rfl _
      · exact takes_cls rfl _

theorem takes_frac {frac rest : List Char} (hfrac : IsFrac frac) (hdot : NoHead (· == '.') rest)
    (hdigit : NoHead isDigit rest) :
    Takes (opt (seq (char '.') (plus digit))) frac rest := by
  cases hfrac with
  | none => exact takes_opt_nil (Fails.seq (fails_cls hdot))
  | some hne hds =>
      exact Takes.alt_left (Takes.cons rfl (takes_plus hne hds hdigit))

theorem takes_int {int rest : List Char} (hint : IsInt int) (hdigit : NoHead isDigit rest) :
    Takes (alt (char '0') (seq (cls fun c => isDigit c && c != '0') (star digit))) int rest := by
  cases hint with
  | zero => exact Takes.alt_left (takes_cls rfl _)
  | @digits c ds hc hne hds =>
      refine Takes.alt_right (fails_cls ?_) ?_
      · intro d hd
        obtain rfl := Option.some.inj hd
        exact beq_false_of_ne hne
      · exact Takes.cons (by simp [hc, hne]) (takes_star hds hdigit)

theorem findFrom_number {text : String} (h : IsNumber text) {rest : List Char}
    (ends : Ends rest) :
    findFrom numberRe true (text.toList ++ rest) = some ⟨[(1, text)], rest⟩ := by
  obtain ⟨sign, int, frac, exp, htext, hsign, hint, hfrac, hexp⟩ := h
  have hrest : NoHead isDigit (frac ++ (exp ++ rest)) :=
    noHead_frac ends (by decide) hfrac hexp (by decide) (by decide)
  have hafter : Takes (seq (opt (seq (char '.') (plus digit)))
      (opt (all [cls fun c => c == 'e' || c == 'E', opt (cls fun c => c == '+' || c == '-'),
        plus digit]))) (frac ++ exp) rest :=
    Takes.seq
      (takes_frac hfrac (noHead_exp ends (by decide) hexp (by decide))
        (noHead_exp ends (by decide) hexp (by decide)))
      (takes_exp hexp ends)
  rw [← List.append_assoc] at hrest
  have hunsigned := Takes.seq (takes_int hint hrest) hafter
  have hminus : NoHead (· == '-') ((int ++ (frac ++ exp)) ++ rest) := by
    intro c hc
    cases hint with
    | zero =>
        obtain rfl := Option.some.inj hc
        rfl
    | digits hd hne hds =>
        obtain rfl := Option.some.inj hc
        refine beq_false_of_ne ?_
        rintro rfl
        exact absurd hd (by decide)
  have hsigned : Takes (opt (char '-')) sign ((int ++ (frac ++ exp)) ++ rest) := by
    rcases hsign with rfl | rfl
    · exact takes_opt_nil (fails_cls hminus)
    · exact Takes.alt_left (takes_cls rfl _)
  have h := findFrom_group (Takes.seq hsigned hunsigned)
  rw [← htext, String.ofList_toList] at h
  exact h

/-! ## Values are read back -/

section Runtime

variable (rt : Runtime)

/-- A value of JavaScript within `depth` arrays and objects that Go reads as it is: the Go
encoder writes the numbers as JavaScript does, and the decoder accepts the nesting. -/
inductive Exchangeable : Nat → Json → Prop
  | null {depth : Nat} : Exchangeable depth .null
  | bool {depth : Nat} (b : Bool) : Exchangeable depth (.bool b)
  | num {depth : Nat} {text : String} (hnumber : IsNumber text)
      (hfloat : rt.float64Text text = some text) : Exchangeable depth (.num text)
  | str {depth : Nat} (s : String) : Exchangeable depth (.str s)
  | arr {depth : Nat} {vs : List Json} (hdepth : depth < maxNestingDepth)
      (hvs : ∀ v ∈ vs, Exchangeable (depth + 1) v) : Exchangeable depth (.arr vs)
  | obj {depth : Nat} {ms : List (String × Json)} (hdepth : depth < maxNestingDepth)
      (hkeys : (ms.map Prod.fst).Nodup) (hms : ∀ m ∈ ms, Exchangeable (depth + 1) m.2) :
      Exchangeable depth (.obj ms)

/-- The text of a value is read back within `depth`, with what follows it. -/
def ReadsBack (depth : Nat) (v : Json) : Prop :=
  ∀ fuel rest, 2 * (jsonText v).length ≤ fuel → Ends rest →
    value rt fuel depth (jsonText v ++ rest) = some (v, rest)

variable {rt}

/-- A text that begins with neither a space nor a closing bracket. -/
def Begins (cs : List Char) : Prop :=
  ∃ c rest, cs = c :: rest ∧ c ∉ [' ', '\t', '\r', '\n'] ∧ c ≠ ']' ∧ c ≠ '}'

theorem skipSpace_cons {c : Char} (h : c ∉ [' ', '\t', '\r', '\n']) (cs : List Char) :
    skipSpace (c :: cs) = c :: cs := by
  rw [skipSpace, List.dropWhile_cons_of_neg (by simpa using h)]

theorem Begins.skipSpace {cs : List Char} (h : Begins cs) (rest : List Char) :
    skipSpace (cs ++ rest) = cs ++ rest := by
  obtain ⟨c, cs', rfl, hspace, _⟩ := h
  exact skipSpace_cons hspace _

theorem IsNumber.begins {text : String} (h : IsNumber text) :
    ∃ c cs, text.toList = c :: cs ∧ (c = '-' ∨ isDigit c = true) := by
  obtain ⟨sign, int, frac, exp, htext, hsign, hint, _, _⟩ := h
  rcases hsign with rfl | rfl
  · cases hint with
    | zero => exact ⟨_, _, htext, Or.inr rfl⟩
    | digits hc hne hds => exact ⟨_, _, htext, Or.inr hc⟩
  · exact ⟨_, _, htext, Or.inl rfl⟩

theorem begins_jsonText {depth : Nat} {v : Json} (h : Exchangeable rt depth v) :
    Begins (jsonText v) := by
  cases h with
  | null => exact ⟨_, _, rfl, by decide, by decide, by decide⟩
  | bool b => cases b <;> exact ⟨_, _, rfl, by decide, by decide, by decide⟩
  | str s => exact ⟨_, _, rfl, by decide, by decide, by decide⟩
  | num hnumber hfloat =>
      obtain ⟨c, cs, htext, hc⟩ := hnumber.begins
      refine ⟨c, cs, htext, ?_⟩
      rcases hc with rfl | hc
      · decide
      · refine ⟨fun hmem => ?_, ?_, ?_⟩
        · simp only [List.mem_cons, List.not_mem_nil, or_false] at hmem
          rcases hmem with rfl | rfl | rfl | rfl <;> exact absurd hc (by decide)
        · rintro rfl
          exact absurd hc (by decide)
        · rintro rfl
          exact absurd hc (by decide)
  | arr hdepth hvs =>
      rename_i vs
      cases vs <;> exact ⟨_, _, rfl, by decide, by decide, by decide⟩
  | obj hdepth hkeys hms =>
      rename_i ms
      cases ms <;> exact ⟨_, _, rfl, by decide, by decide, by decide⟩

theorem readsBack_num {depth : Nat} {text : String} (hnumber : IsNumber text)
    (hfloat : rt.float64Text text = some text) : ReadsBack rt depth (.num text) := by
  intro fuel rest hfuel ends
  obtain ⟨c, cs, htext, hc⟩ := hnumber.begins
  have hfind := findFrom_number hnumber ends
  have hgroup : (⟨[(1, text)], rest⟩ : Match).group 1 = text := rfl
  obtain ⟨fuel, rfl⟩ : ∃ n, fuel = n + 1 := by
    refine Nat.exists_eq_succ_of_ne_zero fun h => ?_
    rw [jsonText, htext, List.length_cons] at hfuel
    omega
  rw [jsonText]
  have hspace : skipSpace (text.toList ++ rest) = text.toList ++ rest :=
    (begins_jsonText (.num hnumber hfloat : Exchangeable rt depth _)).skipSpace rest
  have hhead : ∀ d ds, text.toList ++ rest = d :: ds → d = '-' ∨ isDigit d = true := by
    intro d ds h
    rw [htext, List.cons_append] at h
    exact (List.cons.inj h).1 ▸ hc
  rw [value, hspace]
  split
  next h => exact absurd (hhead _ _ h) (by decide)
  next h => exact absurd (hhead _ _ h) (by decide)
  next h => exact absurd (hhead _ _ h) (by decide)
  next h => exact absurd (hhead _ _ h) (by decide)
  next h => exact absurd (hhead _ _ h) (by decide)
  next h => exact absurd (hhead _ _ h) (by decide)
  next =>
    rw [hfind]
    dsimp only
    rw [hgroup, hfloat]
    rfl

theorem ends_cons {c : Char} (h : c = ',' ∨ c = ']' ∨ c = '}') (rest : List Char) :
    Ends (c :: rest) := by
  intro d hd
  exact Option.some.inj hd ▸ h

theorem elements_text {depth : Nat} {v : Json} {vs : List Json}
    (hread : ∀ w ∈ v :: vs, ReadsBack rt depth w) {fuel : Nat}
    (hfuel : 2 * (jsonText v ++ moreElements vs).length + 1 ≤ fuel) (rest : List Char) :
    elements rt fuel depth (jsonText v ++ (moreElements vs ++ rest)) = some (v :: vs, rest) := by
  induction vs generalizing v fuel with
  | nil =>
      obtain ⟨fuel, rfl⟩ := Nat.exists_eq_succ_of_ne_zero (Nat.ne_zero_of_lt hfuel)
      rw [List.length_append] at hfuel
      have hv := hread v List.mem_cons_self fuel (']' :: rest) (by omega)
        (ends_cons (by decide) rest)
      rw [elements, moreElements, List.singleton_append, hv]
      simp only [Option.bind_eq_bind, Option.bind_some]
      rw [skipSpace_cons (by decide)]
      rfl
  | cons w ws ih =>
      obtain ⟨fuel, rfl⟩ := Nat.exists_eq_succ_of_ne_zero (Nat.ne_zero_of_lt hfuel)
      rw [moreElements, List.length_append, List.length_cons] at hfuel
      have hv := hread v List.mem_cons_self fuel (',' :: (jsonText w ++ moreElements ws ++ rest))
        (by omega) (ends_cons (by decide) _)
      have hrest : elements rt fuel depth (jsonText w ++ (moreElements ws ++ rest)) =
          some (w :: ws, rest) :=
        ih (fun x hx => hread x (List.mem_cons_of_mem _ hx)) (by omega)
      rw [elements, moreElements, List.cons_append, hv]
      simp only [Option.bind_eq_bind, Option.bind_some]
      rw [skipSpace_cons (by decide)]
      simp only [List.append_assoc, hrest, Option.bind_some]

theorem setKey_new {β : Type} {k : String} {acc : List (String × β)}
    (h : k ∉ acc.map Prod.fst) (v : β) : setKey k v acc = acc ++ [(k, v)] := by
  induction acc with
  | nil => rfl
  | cons e acc ih =>
      rw [List.map_cons, List.mem_cons, not_or] at h
      rw [setKey, if_neg (by simpa using Ne.symm h.1), ih h.2, List.cons_append]

theorem not_mem_of_nodup_append {β : Type} {k : String} {v : β} {acc ms : List (String × β)}
    (h : ((acc ++ (k, v) :: ms).map Prod.fst).Nodup) : k ∉ acc.map Prod.fst := by
  rw [List.map_append, List.map_cons] at h
  intro hmem
  exact (List.nodup_append.mp h).2.2 k hmem k List.mem_cons_self rfl

theorem member_text {depth fuel : Nat} {k : String} {v : Json} (hv : ReadsBack rt depth v)
    (hfuel : 2 * (jsonText v).length ≤ fuel) {rest : List Char} (ends : Ends rest)
    (acc : List (String × Json)) :
    members rt (fuel + 1) depth (memberText (k, v) ++ rest) acc =
      match skipSpace rest with
      | ',' :: rest => members rt fuel depth rest (setKey k v acc)
      | '}' :: rest => some (setKey k v acc, rest)
      | _ => none := by
  have hkey : skipSpace (stringText k ++ ':' :: (jsonText v ++ rest)) =
      stringText k ++ ':' :: (jsonText v ++ rest) :=
    Begins.skipSpace ⟨_, _, rfl, by decide, by decide, by decide⟩ _
  rw [memberText, List.append_assoc, List.cons_append, members, hkey, stringToken_text]
  simp only [Option.bind_eq_bind, Option.bind_some]
  rw [skipSpace_cons (by decide)]
  exact congrArg (Option.bind · _) (hv fuel rest hfuel ends)

theorem members_text {depth : Nat} {m : String × Json} {ms acc : List (String × Json)}
    (hkeys : ((acc ++ m :: ms).map Prod.fst).Nodup)
    (hread : ∀ w ∈ m :: ms, ReadsBack rt depth w.2) {fuel : Nat}
    (hfuel : 2 * (memberText m ++ moreMembers ms).length + 1 ≤ fuel) (rest : List Char) :
    members rt fuel depth (memberText m ++ (moreMembers ms ++ rest)) acc =
      some (acc ++ m :: ms, rest) := by
  induction ms generalizing m acc fuel with
  | nil =>
      obtain ⟨fuel, rfl⟩ := Nat.exists_eq_succ_of_ne_zero (Nat.ne_zero_of_lt hfuel)
      obtain ⟨k, v⟩ := m
      have hv : ReadsBack rt depth v := hread (k, v) List.mem_cons_self
      have hnew := not_mem_of_nodup_append hkeys
      rw [moreMembers, List.length_append, memberText, List.length_append, List.length_cons]
        at hfuel
      rw [moreMembers, List.singleton_append,
        member_text hv (by omega) (ends_cons (by decide) rest), skipSpace_cons (by decide),
        setKey_new hnew]
      rfl
  | cons w ws ih =>
      obtain ⟨fuel, rfl⟩ := Nat.exists_eq_succ_of_ne_zero (Nat.ne_zero_of_lt hfuel)
      obtain ⟨k, v⟩ := m
      have hv : ReadsBack rt depth v := hread (k, v) List.mem_cons_self
      have hnew := not_mem_of_nodup_append hkeys
      rw [moreMembers, List.length_append, memberText, List.length_append, List.length_cons,
        List.length_cons] at hfuel
      have hrest : members rt fuel depth (memberText w ++ (moreMembers ws ++ rest))
          (acc ++ [(k, v)]) = some (acc ++ [(k, v)] ++ w :: ws, rest) :=
        ih (by rw [List.append_assoc]; exact hkeys)
          (fun x hx => hread x (List.mem_cons_of_mem _ hx)) (by omega)
      rw [moreMembers, List.cons_append, List.append_assoc,
        member_text hv (by omega) (ends_cons (by decide) _), skipSpace_cons (by decide),
        setKey_new hnew]
      refine hrest.trans ?_
      rw [List.append_assoc]
      rfl

theorem value_open_bracket (fuel depth : Nat) (cs : List Char) :
    value rt (fuel + 1) depth ('[' :: cs) =
      if maxNestingDepth ≤ depth then none
      else
        match skipSpace cs with
        | ']' :: rest => some (Json.arr [], rest)
        | rest =>
            (elements rt fuel (depth + 1) rest).map fun (vs, rest) => (Json.arr vs, rest) := by
  rw [value, skipSpace_cons (by decide)]
  rfl

theorem value_open_brace (fuel depth : Nat) (cs : List Char) :
    value rt (fuel + 1) depth ('{' :: cs) =
      if maxNestingDepth ≤ depth then none
      else
        match skipSpace cs with
        | '}' :: rest => some (Json.obj [], rest)
        | rest =>
            (members rt fuel (depth + 1) rest []).map fun (ms, rest) => (Json.obj ms, rest) := by
  rw [value, skipSpace_cons (by decide)]
  rfl

theorem value_bracket {depth : Nat} (hdepth : depth < maxNestingDepth) (fuel : Nat)
    {cs : List Char} (h : skipSpace cs = cs) (hhead : ∀ rest, cs ≠ ']' :: rest) :
    value rt (fuel + 1) depth ('[' :: cs) =
      (elements rt fuel (depth + 1) cs).map fun (vs, rest) => (.arr vs, rest) := by
  rw [value_open_bracket, if_neg (Nat.not_le.mpr hdepth), h]
  split
  next => exact absurd rfl (hhead _)
  next => rfl

theorem value_brace {depth : Nat} (hdepth : depth < maxNestingDepth) (fuel : Nat)
    {cs : List Char} (h : skipSpace cs = cs) (hhead : ∀ rest, cs ≠ '}' :: rest) :
    value rt (fuel + 1) depth ('{' :: cs) =
      (members rt fuel (depth + 1) cs []).map fun (ms, rest) => (.obj ms, rest) := by
  rw [value_open_brace, if_neg (Nat.not_le.mpr hdepth), h]
  split
  next => exact absurd rfl (hhead _)
  next => rfl

/-- What `JSON.stringify` writes for a value is read back. -/
theorem readsBack {depth : Nat} {v : Json} (h : Exchangeable rt depth v) :
    ReadsBack rt depth v := by
  induction h with
  | null =>
      intro fuel rest hfuel _
      obtain ⟨fuel, rfl⟩ := Nat.exists_eq_succ_of_ne_zero (Nat.ne_zero_of_lt hfuel)
      rfl
  | bool b =>
      intro fuel rest hfuel _
      obtain ⟨fuel, rfl⟩ : ∃ n, fuel = n + 1 := by
        cases b <;> exact Nat.exists_eq_succ_of_ne_zero (Nat.ne_zero_of_lt hfuel)
      cases b <;> rfl
  | num hnumber hfloat => exact readsBack_num hnumber hfloat
  | str s =>
      intro fuel rest hfuel _
      obtain ⟨fuel, rfl⟩ := Nat.exists_eq_succ_of_ne_zero (Nat.ne_zero_of_lt hfuel)
      have hstring := stringToken_text s rest
      rw [stringText, List.cons_append] at hstring
      rw [jsonText, stringText, List.cons_append, value, skipSpace_cons (by decide)]
      change (stringToken ('"' :: (s.toList.flatMap stringifyChar ++ ['"'] ++ rest))).map _ = _
      rw [hstring]
      rfl
  | @arr depth vs hdepth hvs ih =>
      intro fuel rest hfuel _
      obtain ⟨fuel, rfl⟩ : ∃ n, fuel = n + 1 := by
        cases vs <;> exact Nat.exists_eq_succ_of_ne_zero (Nat.ne_zero_of_lt hfuel)
      cases vs with
      | nil =>
          change (if maxNestingDepth ≤ depth then none else some (Json.arr [], rest)) = _
          rw [if_neg (Nat.not_le.mpr hdepth)]
      | cons v vs =>
          have hbegins := begins_jsonText (hvs v List.mem_cons_self)
          rw [jsonText, List.length_cons] at hfuel
          rw [jsonText, List.cons_append, List.append_assoc,
            value_bracket hdepth fuel (hbegins.skipSpace _), elements_text ih (by omega)]
          · rfl
          · intro more heq
            obtain ⟨c, cs, htext, _, hne, _⟩ := hbegins
            rw [htext] at heq
            exact hne (List.cons.inj heq).1
  | @obj depth ms hdepth hkeys hms ih =>
      intro fuel rest hfuel _
      obtain ⟨fuel, rfl⟩ : ∃ n, fuel = n + 1 := by
        cases ms <;> exact Nat.exists_eq_succ_of_ne_zero (Nat.ne_zero_of_lt hfuel)
      cases ms with
      | nil =>
          change (if maxNestingDepth ≤ depth then none else some (Json.obj [], rest)) = _
          rw [if_neg (Nat.not_le.mpr hdepth)]
      | cons m ms =>
          have hbegins : Begins (memberText m) := by
            rw [memberText, stringText, List.cons_append]
            exact ⟨_, _, rfl, by decide, by decide, by decide⟩
          rw [jsonText, List.length_cons] at hfuel
          rw [jsonText, List.cons_append, List.append_assoc,
            value_brace hdepth fuel (hbegins.skipSpace _), members_text hkeys ih (by omega)]
          · rfl
          · intro more heq
            obtain ⟨c, cs, htext, _, _, hne⟩ := hbegins
            rw [htext] at heq
            exact hne (List.cons.inj heq).1

/-- `json.Unmarshal` reads the object that `JSON.stringify` has written. -/
theorem unmarshalMap_stringify {ms : List (String × Json)} (h : Exchangeable rt 0 (.obj ms)) :
    unmarshalMap rt (stringify (.obj ms)) = some ms := by
  have hread := readsBack h (2 * (jsonText (.obj ms)).length + 2) [] (by omega)
    (fun c hc => by cases hc)
  rw [List.append_nil] at hread
  rw [unmarshalMap, decode, stringify, String.toList_ofList, hread]
  rfl

/-- What `JSON.stringify` has written is one value and nothing else. -/
theorem decode_stringify {v : Json} (h : Exchangeable rt 0 v) :
    decode rt (stringify v) = some v := by
  have hread := readsBack h (2 * (jsonText v).length + 2) [] (by omega) (fun c hc => by cases hc)
  rw [List.append_nil] at hread
  unfold decode stringify
  rw [String.toList_ofList, hread]
  rfl

end Runtime

/-! ## One line -/

/-- A value of JavaScript: its numbers are finite, and no two members of an object share a key. -/
inductive WellFormed : Json → Prop
  | null : WellFormed .null
  | bool (b : Bool) : WellFormed (.bool b)
  | num {text : String} (hnumber : IsNumber text) : WellFormed (.num text)
  | str (s : String) : WellFormed (.str s)
  | arr {vs : List Json} (hvs : ∀ v ∈ vs, WellFormed v) : WellFormed (.arr vs)
  | obj {ms : List (String × Json)} (hkeys : (ms.map Prod.fst).Nodup)
      (hms : ∀ m ∈ ms, WellFormed m.2) : WellFormed (.obj ms)

theorem Exchangeable.wellFormed {rt : Runtime} {depth : Nat} {v : Json}
    (h : Exchangeable rt depth v) : WellFormed v := by
  induction h with
  | null => exact .null
  | bool b => exact .bool b
  | num hnumber _ => exact .num hnumber
  | str s => exact .str s
  | arr _ _ ih => exact .arr ih
  | obj _ hkeys _ ih => exact .obj hkeys ih

theorem IsNumber.chars {text : String} (h : IsNumber text) :
    ∀ c ∈ text.toList, isDigit c = true ∨ c ∈ ['-', '+', '.', 'e'] := by
  obtain ⟨sign, int, frac, exp, htext, hsign, hint, hfrac, hexp⟩ := h
  intro c hc
  rw [htext] at hc
  rcases List.mem_append.mp hc with hc | hc
  · rcases hsign with rfl | rfl
    · cases hc
    · rw [List.mem_singleton.mp hc]
      decide
  rcases List.mem_append.mp hc with hc | hc
  · cases hint with
    | zero =>
        rw [List.mem_singleton.mp hc]
        decide
    | digits hd hne hds =>
        rcases List.mem_cons.mp hc with rfl | hc
        · exact Or.inl hd
        · exact Or.inl (hds c hc)
  rcases List.mem_append.mp hc with hc | hc
  · cases hfrac with
    | none => cases hc
    | some hne hds =>
        rcases List.mem_cons.mp hc with rfl | hc
        · decide
        · exact Or.inl (hds c hc)
  · cases hexp with
    | none => cases hc
    | some hsign hne hds =>
        rcases List.mem_cons.mp hc with rfl | hc
        · decide
        · rcases List.mem_append.mp hc with hc | hc
          · rcases hsign with rfl | rfl
            · rw [List.mem_singleton.mp hc]
              decide
            · rw [List.mem_singleton.mp hc]
              decide
          · exact Or.inl (hds c hc)

theorem not_mem_stringifyChar (c : Char) : '\n' ∉ stringifyChar c := by
  have hhex : ∀ n < 16, '\n' ≠ hexDigit n := by decide
  rw [stringifyChar]
  split
  next h => rcases h with rfl | rfl <;> decide
  split
  next => decide
  split
  next => decide
  split
  next => decide
  next hfeed =>
    split
    next => decide
    split
    next => decide
    split
    next hcontrol =>
      simp only [List.mem_cons, List.not_mem_nil, or_false, not_or]
      exact ⟨by decide, by decide, by decide, by decide, hhex _ (by omega), hhex _ (by omega)⟩
    next => exact fun h => hfeed (List.mem_singleton.mp h).symm

theorem not_mem_stringText (s : String) : '\n' ∉ stringText s := by
  rw [stringText, List.mem_cons, List.mem_append, List.mem_flatMap, List.mem_singleton]
  rintro (h | ⟨c, _, h⟩ | h)
  · exact absurd h (by decide)
  · exact not_mem_stringifyChar c h
  · exact absurd h (by decide)

theorem not_mem_moreElements {vs : List Json} (h : ∀ v ∈ vs, '\n' ∉ jsonText v) :
    '\n' ∉ moreElements vs := by
  induction vs with
  | nil => decide
  | cons v vs ih =>
      rw [moreElements, List.mem_cons, List.mem_append]
      rintro (hc | hc | hc)
      · exact absurd hc (by decide)
      · exact h v List.mem_cons_self hc
      · exact ih (fun w hw => h w (List.mem_cons_of_mem _ hw)) hc

theorem not_mem_memberText {k : String} {v : Json} (h : '\n' ∉ jsonText v) :
    '\n' ∉ memberText (k, v) := by
  rw [memberText, List.mem_append, List.mem_cons]
  rintro (hc | hc | hc)
  · exact not_mem_stringText k hc
  · exact absurd hc (by decide)
  · exact h hc

theorem not_mem_moreMembers {ms : List (String × Json)} (h : ∀ m ∈ ms, '\n' ∉ jsonText m.2) :
    '\n' ∉ moreMembers ms := by
  induction ms with
  | nil => decide
  | cons m ms ih =>
      rw [moreMembers, List.mem_cons, List.mem_append]
      rintro (hc | hc | hc)
      · exact absurd hc (by decide)
      · exact not_mem_memberText (h m List.mem_cons_self) hc
      · exact ih (fun w hw => h w (List.mem_cons_of_mem _ hw)) hc

theorem not_mem_jsonText {v : Json} (h : WellFormed v) : '\n' ∉ jsonText v := by
  induction h with
  | null => decide
  | bool b => cases b <;> decide
  | num hnumber =>
      intro hc
      rcases hnumber.chars _ hc with h | h
      · exact absurd h (by decide)
      · exact absurd h (by decide)
  | str s => exact not_mem_stringText s
  | @arr vs _ ih =>
      cases vs with
      | nil => decide
      | cons v vs =>
          rw [jsonText, List.mem_cons, List.mem_append]
          rintro (hc | hc | hc)
          · exact absurd hc (by decide)
          · exact ih v List.mem_cons_self hc
          · exact not_mem_moreElements (fun w hw => ih w (List.mem_cons_of_mem _ hw)) hc
  | @obj ms _ _ ih =>
      cases ms with
      | nil => decide
      | cons m ms =>
          rw [jsonText, List.mem_cons, List.mem_append]
          rintro (hc | hc | hc)
          · exact absurd hc (by decide)
          · exact not_mem_memberText (ih m List.mem_cons_self) hc
          · exact not_mem_moreMembers (fun w hw => ih w (List.mem_cons_of_mem _ hw)) hc

end NestGateway.GoJson
