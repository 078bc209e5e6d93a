import NestGateway.Core.JsonText

/-! # JSON texts that Go writes and reads

What `json.Marshal` writes for a map of strings, `json.Unmarshal` reads back. The
encoder escapes more characters than JavaScript does and writes the keys in
order.
-/

namespace NestGateway.GoJson

open Text

def quoteChars (s : String) : List Char := '"' :: (s.toList.flatMap escapeChar ++ ['"'])

theorem toList_quote (s : String) : (quote s).toList = quoteChars s := by
  simp [quote, quoteChars]

theorem unescape_separator {c : Char} {d : Char} (h : c = Char.ofNat 0x2028 ∧ d = '8' ∨
    c = Char.ofNat 0x2029 ∧ d = '9') (rest : List Char) :
    unescape ('u' :: '2' :: '0' :: '2' :: d :: rest) = some (c, rest) := by
  rcases h with ⟨rfl, rfl⟩ | ⟨rfl, rfl⟩
  · rfl
  · rfl

theorem stringBody_escapeChar (c : Char) (fuel : Nat) (rest : List Char) :
    stringBody (fuel + 1) (escapeChar c ++ rest) =
      (stringBody fuel rest).map fun body => (c :: body.1, body.2) := by
  have hbind : ∀ d : Char, d = c → _ := fun d h => bind_body h (stringBody fuel rest)
  rw [escapeChar]
  split
  next h =>
    rcases Bool.or_eq_true_iff.mp h with h | h
    · obtain rfl := beq_iff_eq.mp h
      exact hbind _ rfl
    · obtain rfl := beq_iff_eq.mp h
      exact hbind _ rfl
  split
  next h => exact hbind _ (beq_iff_eq.mp h).symm
  split
  next h => exact hbind _ (beq_iff_eq.mp h).symm
  split
  next h => exact hbind _ (beq_iff_eq.mp h).symm
  split
  next h => exact hbind _ (beq_iff_eq.mp h).symm
  split
  next h => exact hbind _ (beq_iff_eq.mp h).symm
  split
  next h =>
    have hbyte : c.toNat < 0x100 := by
      simp only [Bool.or_eq_true, decide_eq_true_eq, beq_iff_eq] at h
      rcases h with ((h | rfl) | rfl) | rfl
      · omega
      all_goals decide
    simp only [List.cons_append, List.nil_append, stringBody]
    rw [if_neg (by decide), if_pos (by decide), unescape_byte hbyte]
    exact hbind c rfl
  split
  next h =>
    simp only [List.cons_append, List.nil_append, stringBody]
    rw [if_neg (by decide), if_pos (by decide),
      unescape_separator (.inl ⟨beq_iff_eq.mp h, rfl⟩)]
    exact hbind c rfl
  split
  next h =>
    simp only [List.cons_append, List.nil_append, stringBody]
    rw [if_neg (by decide), if_pos (by decide),
      unescape_separator (.inr ⟨beq_iff_eq.mp h, rfl⟩)]
    exact hbind c rfl
  next hquote _ _ _ _ _ hcontrol _ _ =>
    simp only [Bool.or_eq_true, decide_eq_true_eq, not_or] at hquote hcontrol
    simp only [List.cons_append, List.nil_append, stringBody]
    rw [if_neg hquote.1, if_neg hquote.2, if_neg hcontrol.1.1.1]
    exact hbind c rfl

theorem escapeChar_ne_nil (c : Char) : escapeChar c ≠ [] := by
  rw [escapeChar]
  repeat' split
  all_goals exact List.cons_ne_nil _ _

theorem stringBody_escaped (cs : List Char) {fuel : Nat} (hfuel : cs.length < fuel)
    (rest : List Char) :
    stringBody fuel (cs.flatMap escapeChar ++ '"' :: rest) = some (cs, rest) := by
  induction cs generalizing fuel with
  | nil =>
      obtain ⟨fuel, rfl⟩ := Nat.exists_eq_succ_of_ne_zero (Nat.ne_zero_of_lt hfuel)
      rfl
  | cons c cs ih =>
      obtain ⟨fuel, rfl⟩ := Nat.exists_eq_succ_of_ne_zero (Nat.ne_zero_of_lt hfuel)
      rw [List.flatMap_cons, List.append_assoc, stringBody_escapeChar,
        ih (Nat.lt_of_succ_lt_succ hfuel)]
      rfl

theorem length_le_escaped (cs : List Char) : cs.length ≤ (cs.flatMap escapeChar).length := by
  induction cs with
  | nil => exact Nat.le_refl _
  | cons c cs ih =>
      have := List.length_pos_iff.mpr (escapeChar_ne_nil c)
      rw [List.flatMap_cons, List.length_append, List.length_cons]
      omega

theorem stringToken_quote (s : String) (rest : List Char) :
    stringToken (quoteChars s ++ rest) = some (s, rest) := by
  have hlen := length_le_escaped s.toList
  rw [quoteChars, List.cons_append, stringToken, List.append_assoc, List.singleton_append,
    stringBody_escaped]
  · simp
  · rw [List.length_append]
    omega

def strMembers (ms : List (String × String)) : List (String × Json) :=
  ms.map fun m => (m.1, .str m.2)

def pairChars (m : String × String) : List Char := quoteChars m.1 ++ ':' :: quoteChars m.2

def morePairs : List (String × String) → List Char
  | [] => ['}']
  | m :: ms => ',' :: (pairChars m ++ morePairs ms)

section Runtime

variable (rt : Runtime)

theorem value_quote (fuel depth : Nat) (s : String) (rest : List Char) :
    value rt (fuel + 1) depth (quoteChars s ++ rest) = some (.str s, rest) := by
  have hstring := stringToken_quote s rest
  rw [quoteChars, List.cons_append] at hstring
  rw [quoteChars, List.cons_append, value, skipSpace_cons (by decide)]
  change (stringToken ('"' :: (s.toList.flatMap escapeChar ++ ['"'] ++ rest))).map _ = _
  rw [hstring]
  rfl

theorem members_pair {fuel depth : Nat} (k v : String) (rest : List Char)
    (acc : List (String × Json)) :
    members rt (fuel + 2) depth (pairChars (k, v) ++ rest) acc =
      match skipSpace rest with
      | ',' :: rest => members rt (fuel + 1) depth rest (setKey k (.str v) acc)
      | '}' :: rest => some (setKey k (.str v) acc, rest)
      | _ => none := by
  have hkey : skipSpace (quoteChars k ++ ':' :: (quoteChars v ++ rest)) =
      quoteChars k ++ ':' :: (quoteChars v ++ rest) :=
    Begins.skipSpace ⟨_, _, rfl, by decide, by decide, by decide⟩ _
  rw [pairChars, List.append_assoc, List.cons_append, members, hkey, stringToken_quote]
  simp only [Option.bind_eq_bind, Option.bind_some]
  rw [skipSpace_cons (by decide)]
  exact congrArg (Option.bind · _) (value_quote rt fuel depth v rest)

theorem members_pairs {depth : Nat} {m : String × String} {ms : List (String × String)}
    {acc : List (String × Json)} (hkeys : ((acc ++ strMembers (m :: ms)).map Prod.fst).Nodup)
    {fuel : Nat} (hfuel : ms.length + 2 ≤ fuel) (rest : List Char) :
    members rt fuel depth (pairChars m ++ (morePairs ms ++ rest)) acc =
      some (acc ++ strMembers (m :: ms), rest) := by
  induction ms generalizing m acc fuel with
  | nil =>
      obtain ⟨k, v⟩ := m
      obtain ⟨fuel, rfl⟩ := Nat.exists_eq_add_of_le' hfuel
      have hnew : k ∉ acc.map Prod.fst := not_mem_of_nodup_append hkeys
      rw [morePairs, List.singleton_append]
      show members rt (fuel + 2) depth (pairChars (k, v) ++ '}' :: rest) acc = _
      rw [members_pair, skipSpace_cons (by decide), setKey_new hnew]
      rfl
  | cons w ws ih =>
      obtain ⟨k, v⟩ := m
      rw [List.length_cons] at hfuel
      obtain ⟨fuel, rfl⟩ := Nat.exists_eq_add_of_le' hfuel
      have hnew : k ∉ acc.map Prod.fst := not_mem_of_nodup_append hkeys
      have hmore : members rt (fuel + (ws.length + 1) + 1) depth
          (pairChars w ++ (morePairs ws ++ rest)) (acc ++ [(k, .str v)]) =
            some (acc ++ [(k, .str v)] ++ strMembers (w :: ws), rest) := by
        apply ih
        · rw [List.append_assoc]
          exact hkeys
        · omega
      rw [morePairs, List.cons_append, List.append_assoc]
      show members rt (fuel + (ws.length + 1) + 2) depth (pairChars (k, v) ++ ',' :: _) acc = _
      rw [members_pair, skipSpace_cons (by decide), setKey_new hnew]
      refine hmore.trans ?_
      rw [List.append_assoc]
      rfl

end Runtime

theorem marshalMembers_str (ms : List (String × String)) :
    marshalMembers (strMembers ms) = ms.map fun m => (m.1, quote m.2) := by
  induction ms with
  | nil => rfl
  | cons m ms ih =>
      show marshalMember (m.1, .str m.2) :: marshalMembers (strMembers ms) = _
      rw [ih]
      rfl

theorem length_le_morePairs (ms : List (String × String)) :
    ms.length < (morePairs ms).length := by
  induction ms with
  | nil => exact Nat.zero_lt_one
  | cons m ms ih =>
      simp only [morePairs, List.length_cons, List.length_append]
      omega

theorem toList_commaJoin (m : String × String) (rest : List (String × String)) :
    (commaJoin ((m :: rest).map fun m => quote m.1 ++ ":" ++ quote m.2)).toList ++ ['}'] =
      pairChars m ++ morePairs rest := by
  have hpair (m : String × String) :
      (quote m.1 ++ ":" ++ quote m.2).toList = pairChars m := by
    simp [toList_quote, pairChars]
  induction rest generalizing m with
  | nil =>
      rw [List.map_cons, List.map_nil, commaJoin, String.intercalate_singleton, hpair, morePairs]
  | cons w ws ih =>
      have hrest := ih w
      rw [commaJoin] at hrest
      rw [List.map_cons, commaJoin, String.intercalate_cons_of_ne_nil (by simp),
        String.toList_append, String.toList_append, hpair, List.append_assoc, List.append_assoc,
        hrest]
      rfl

theorem toList_marshal {ms : List (String × String)} {m : String × String}
    {rest : List (String × String)}
    (hsorted : ms.insertionSort (fun a b => a.1 ≤ b.1) = m :: rest) :
    (marshal (.obj (strMembers ms))).toList = '{' :: (pairChars m ++ morePairs rest) := by
  have hquoted := List.map_insertionSort (fun a b : String × String => a.1 ≤ b.1)
    (fun a b : String × String => a.1 ≤ b.1) (fun m => (m.1, quote m.2)) ms
    fun _ _ _ _ => Iff.rfl
  rw [hsorted] at hquoted
  rw [marshal, objectText, marshalMembers_str, ← hquoted, List.map_map, String.toList_append,
    String.toList_append, String.toList_ofList, String.toList_ofList, List.append_assoc]
  exact congrArg (List.cons '{') (toList_commaJoin m rest)

variable (rt : Runtime)

/-- `json.Unmarshal` reads the map of strings that `json.Marshal` has written. -/
theorem unmarshalMap_marshal {ms : List (String × String)} (hkeys : (ms.map Prod.fst).Nodup) :
    ∃ data, unmarshalMap rt (marshal (.obj (strMembers ms))) = some data ∧
      data.Perm (strMembers ms) := by
  have hperm := List.perm_insertionSort (fun a b : String × String => a.1 ≤ b.1) ms
  cases hsorted : ms.insertionSort fun a b => a.1 ≤ b.1 with
  | nil =>
      rw [hsorted] at hperm
      rw [List.nil_perm.mp hperm]
      exact ⟨[], rfl, .nil⟩
  | cons m rest =>
      rw [hsorted] at hperm
      refine ⟨strMembers (m :: rest), ?_, hperm.map _⟩
      have hsortedKeys : ((strMembers (m :: rest)).map Prod.fst).Nodup := by
        have hkeys' := (hperm.map Prod.fst).nodup_iff.mpr hkeys
        rwa [strMembers, List.map_map]
      have hlength := length_le_morePairs rest
      have hbegins : Begins (pairChars m) := ⟨_, _, rfl, by decide, by decide, by decide⟩
      have hhead : ∀ more, pairChars m ++ morePairs rest ≠ '}' :: more := by
        intro more heq
        exact absurd (List.cons.inj heq).1 (by decide)
      have hmembers : members rt (2 * ('{' :: (pairChars m ++ morePairs rest)).length + 1) 1
          (pairChars m ++ (morePairs rest ++ [])) [] =
            some ([] ++ strMembers (m :: rest), []) := by
        apply members_pairs rt hsortedKeys
        simp only [List.length_cons, List.length_append]
        omega
      rw [List.append_nil, List.nil_append] at hmembers
      rw [unmarshalMap, decode, toList_marshal hsorted,
        value_brace (by decide) _ (hbegins.skipSpace _) hhead, hmembers]
      rfl

end NestGateway.GoJson
