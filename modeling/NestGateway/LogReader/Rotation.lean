import NestGateway.LogReader.DateRange

/-! # The order of rotated files

The number in the name of a rotated file is read by one expression for two
styles, `name.N.log` and `name.log.N`. Compressing a file puts `.gz` behind its
name. The expression allows that behind `name.log.N` only.
-/

namespace NestGateway.LogReader

open Text Regex Re

structure Numeral (digits : List Char) : Prop where
  ne_nil : digits ≠ []
  digits : ∀ c ∈ digits, isDigit c = true

/-- A name that ends with a number where the expression reads one. -/
inductive Numbered (digits : List Char) : List Char → Prop where
  | dotLog (front : List Char) : Numbered digits (front ++ '.' :: (digits ++ ".log".toList))
  | dotGz (front : List Char) : Numbered digits (front ++ '.' :: (digits ++ ".gz".toList))
  | logDot (front : List Char) : Numbered digits (front ++ (".log.".toList ++ digits))

theorem Numbered.append {digits cs : List Char} (h : Numbered digits cs) (front : List Char) :
    Numbered digits (front ++ cs) := by
  cases h with
  | dotLog front' =>
      rw [← List.append_assoc]
      exact dotLog _
  | dotGz front' =>
      rw [← List.append_assoc]
      exact dotGz _
  | logDot front' =>
      rw [← List.append_assoc]
      exact logDot _

theorem ending_of_run {text : String} {f : Bool} {cs : List Char} {groups : List (Nat × String)}
    {m : Match}
    (h : (lit text).run ⟨f, cs, groups⟩ (fun t => (all [eol]).run t State.toMatch) = some m) :
    cs = text.toList ∧ m.groups = groups := by
  obtain ⟨rest, f', hlit, hend⟩ := exists_of_run_lit h
  obtain ⟨rfl, hmatch⟩ := exists_of_run_eol hend
  rw [← Option.some.inj hmatch]
  exact ⟨hlit.trans (List.append_nil _), rfl⟩

theorem numbered_of_run {f : Bool} {cs : List Char} {m : Match}
    (h : rotationNumPattern.run ⟨f, cs, []⟩ State.toMatch = some m) :
    ∃ digits, Numeral digits ∧ Numbered digits cs ∧
      (m.groups = [(1, String.ofList digits)] ∨ m.groups = [(2, String.ofList digits)]) := by
  rcases Option.or_eq_some_iff.mp h with hfirst | ⟨_, hsecond⟩
  · obtain ⟨c, rest, rfl, hc, hgroup⟩ := exists_of_run_cons hfirst
    obtain rfl := beq_iff_eq.mp hc
    obtain ⟨digits, rest', f', rfl, hne, hall, hmore⟩ := exists_of_run_plus hgroup
    rw [textTo_eq rfl] at hmore
    refine ⟨digits, ⟨hne, hall⟩, ?_⟩
    rcases Option.or_eq_some_iff.mp hmore with hlog | ⟨_, hgz⟩
    · obtain ⟨rfl, hgroups⟩ := ending_of_run hlog
      exact ⟨Numbered.dotLog [], Or.inl hgroups⟩
    · obtain ⟨rfl, hgroups⟩ := ending_of_run hgz
      exact ⟨Numbered.dotGz [], Or.inl hgroups⟩
  · obtain ⟨rest, f', rfl, hgroup⟩ := exists_of_run_lit hsecond
    obtain ⟨digits, rest', f'', rfl, hne, hall, hmore⟩ := exists_of_run_plus hgroup
    rw [textTo_eq rfl] at hmore
    refine ⟨digits, ⟨hne, hall⟩, ?_⟩
    rcases Option.or_eq_some_iff.mp hmore with hgz | ⟨_, hend⟩
    · obtain ⟨rfl, hgroups⟩ := ending_of_run hgz
      exact ⟨Numbered.dotGz ".log".toList, Or.inr hgroups⟩
    · obtain ⟨rfl, hmatch⟩ := exists_of_run_eol hend
      rw [← Option.some.inj hmatch, List.append_nil]
      exact ⟨Numbered.logDot [], Or.inr rfl⟩

/-! ## The one number of a name -/

theorem Numeral.no_dot {digits : List Char} (h : Numeral digits) : '.' ∉ digits :=
  fun hmem => absurd (h.digits '.' hmem) (by decide)

theorem append_dot_inj {front front' digits digits' : List Char} (h : '.' ∉ digits)
    (h' : '.' ∉ digits') (heq : front ++ '.' :: digits = front' ++ '.' :: digits') :
    front = front' ∧ digits = digits' := by
  rcases List.append_eq_append_iff.mp heq with ⟨mid, hfront, hrest⟩ | ⟨mid, hfront, hrest⟩
  · cases mid with
    | nil => exact ⟨by rw [hfront, List.append_nil], (List.cons.inj hrest).2⟩
    | cons c mid =>
        have hmem : '.' ∈ digits := by
          rw [(List.cons.inj hrest).2]
          exact List.mem_append_right mid List.mem_cons_self
        exact absurd hmem h
  · cases mid with
    | nil => exact ⟨by rw [hfront, List.append_nil], (List.cons.inj hrest).2.symm⟩
    | cons c mid =>
        have hmem : '.' ∈ digits' := by
          rw [(List.cons.inj hrest).2]
          exact List.mem_append_right mid List.mem_cons_self
        exact absurd hmem h'

theorem Numeral.append_ne {digits tail : List Char} {last : Char} (h : Numeral digits)
    (htail : tail.getLast? = some last) (hlast : isDigit last = false) (front front' : List Char) :
    front ++ digits ≠ front' ++ tail := by
  intro heq
  have hne : tail ≠ [] := by
    rintro rfl
    cases htail
  have hend : digits.getLast? = some last := by
    rw [← List.getLast?_append_of_ne_nil front h.ne_nil, heq,
      List.getLast?_append_of_ne_nil front' hne, htail]
  rw [h.digits last (List.mem_of_getLast? hend)] at hlast
  cases hlast

theorem Numeral.dot_append_ne {digits tail : List Char} {last : Char} (h : Numeral digits)
    (htail : tail.getLast? = some last) (hlast : isDigit last = false)
    (front front' middle : List Char) :
    front ++ '.' :: digits ≠ front' ++ '.' :: (middle ++ tail) := by
  rw [← List.singleton_append, ← List.append_assoc, ← List.cons_append, ← List.append_assoc]
  exact h.append_ne htail hlast _ _

theorem numbered_log_iff {digits : List Char} (hd : Numeral digits) {front : List Char} :
    Numbered digits (front ++ ".log".toList) ↔ ∃ front', front = front' ++ '.' :: digits := by
  constructor
  · intro h
    generalize hcs : front ++ ".log".toList = cs at h
    cases h with
    | dotLog front' =>
        rw [← List.cons_append, ← List.append_assoc] at hcs
        exact ⟨front', List.append_cancel_right hcs⟩
    | dotGz front' => exact absurd (congrArg List.reverse hcs) (by simp)
    | logDot front' =>
        rw [← List.append_assoc] at hcs
        exact absurd hcs.symm (hd.append_ne rfl rfl _ front)
  · rintro ⟨front', rfl⟩
    rw [List.append_assoc]
    exact .dotLog front'

theorem numbered_gz_iff {digits : List Char} (hd : Numeral digits) {front : List Char} :
    Numbered digits (front ++ ".gz".toList) ↔ ∃ front', front = front' ++ '.' :: digits := by
  constructor
  · intro h
    generalize hcs : front ++ ".gz".toList = cs at h
    cases h with
    | dotLog front' => exact absurd (congrArg List.reverse hcs) (by simp)
    | dotGz front' =>
        rw [← List.cons_append, ← List.append_assoc] at hcs
        exact ⟨front', List.append_cancel_right hcs⟩
    | logDot front' =>
        rw [← List.append_assoc] at hcs
        exact absurd hcs.symm (hd.append_ne rfl rfl _ front)
  · rintro ⟨front', rfl⟩
    rw [List.append_assoc]
    exact .dotGz front'

theorem numbered_dot_iff {digits digits' : List Char} (hd : Numeral digits)
    (hd' : Numeral digits') {front : List Char} :
    Numbered digits' (front ++ '.' :: digits) ↔ digits' = digits ∧ ".log".toList <:+ front := by
  constructor
  · intro h
    generalize hcs : front ++ '.' :: digits = cs at h
    cases h with
    | dotLog front' => exact absurd hcs (hd.dot_append_ne rfl rfl front front' digits')
    | dotGz front' => exact absurd hcs (hd.dot_append_ne rfl rfl front front' digits')
    | logDot front' =>
        have hdots : front ++ '.' :: digits = (front' ++ ".log".toList) ++ '.' :: digits' := by
          simpa using hcs
        obtain ⟨rfl, rfl⟩ := append_dot_inj hd.no_dot hd'.no_dot hdots
        exact ⟨rfl, List.suffix_append ..⟩
  · rintro ⟨rfl, front', rfl⟩
    rw [List.append_assoc]
    exact .logDot front'

/-- A name has one number at most. -/
theorem Numbered.unique {digits digits' cs : List Char} (hd : Numeral digits)
    (hd' : Numeral digits') (h : Numbered digits cs) (h' : Numbered digits' cs) :
    digits' = digits := by
  cases h with
  | dotLog front =>
      rw [← List.cons_append, ← List.append_assoc] at h'
      obtain ⟨front', heq⟩ := (numbered_log_iff hd').mp h'
      exact (append_dot_inj hd.no_dot hd'.no_dot heq).2.symm
  | dotGz front =>
      rw [← List.cons_append, ← List.append_assoc] at h'
      obtain ⟨front', heq⟩ := (numbered_gz_iff hd').mp h'
      exact (append_dot_inj hd.no_dot hd'.no_dot heq).2.symm
  | logDot front =>
      have hcs : front ++ (".log.".toList ++ digits) =
          (front ++ ".log".toList) ++ '.' :: digits := by simp
      rw [hcs] at h'
      exact ((numbered_dot_iff hd hd').mp h').1

/-- `\.(\d+)(?:\.log|\.gz)$` -/
def dotStyle : Re := all [char '.', group 1 (plus digit), alt (lit ".log") (lit ".gz"), eol]

/-- `\.log\.(\d+)(?:\.gz)?$` -/
def logStyle : Re := all [lit ".log.", group 2 (plus digit), opt (lit ".gz"), eol]

theorem Numeral.captures {digits rest : List Char} (h : Numeral digits)
    (hend : NoHead isDigit rest) (n : Nat) :
    Captures (group n (plus digit)) digits rest [(n, String.ofList digits)] :=
  Captures.group n (takes_plus h.ne_nil h.digits hend).captures

theorem captures_dotStyle {digits ending : List Char} (h : Numeral digits)
    (hhead : NoHead isDigit ending) (hending : Takes (alt (lit ".log") (lit ".gz")) ending []) :
    Captures dotStyle ('.' :: (digits ++ ending)) [] [(1, String.ofList digits)] := by
  have hclosing := hending.captures.seq captures_eol
  rw [List.append_nil] at hclosing
  have hnumber := (h.captures (by rwa [List.append_nil]) 1).seq hclosing
  exact (takes_char '.' _).captures.seq hnumber

theorem captures_logStyle {digits : List Char} (h : Numeral digits) :
    Captures logStyle (".log.".toList ++ digits) [] [(2, String.ofList digits)] := by
  have hgz : Fails (lit ".gz") [] := Fails.seq (fails_cls noHead_nil)
  have hclosing : Captures (seq (opt (lit ".gz")) eol) [] [] [] :=
    (takes_opt_nil hgz).captures.seq captures_eol
  have hnumber := (h.captures noHead_nil 2).seq hclosing
  rw [List.append_nil] at hnumber
  exact (takes_lit ".log." _).captures.seq hnumber

theorem dotStyle_fails (cs : List Char) : Fails dotStyle (".log.".toList ++ cs) := by
  have hletter : Fails (group 1 (plus digit)) ('l' :: 'o' :: 'g' :: '.' :: cs) :=
    (Fails.seq (fails_cls (noHead_cons (by decide) _))).group 1
  exact (forces_cls (beq_self_eq_true '.') _).fails hletter.seq

theorem findFrom_of_numbered {digits cs : List Char} (hd : Numeral digits)
    (h : Numbered digits cs) (first : Bool) :
    (findFrom rotationNumPattern first cs).isSome = true := by
  cases h with
  | dotLog front =>
      have hcaptures := captures_dotStyle hd (noHead_cons (by decide) _)
        (takes_lit ".log" []).alt_left
      exact findFrom_append hcaptures.alt_left.isSome first front
  | dotGz front =>
      have hlog : Fails (lit ".log") (".gz".toList ++ []) :=
        (forces_cls (beq_self_eq_true '.') _).fails
          (Fails.seq (fails_cls (noHead_cons (by decide) _)))
      have hcaptures := captures_dotStyle hd (noHead_cons (by decide) _)
        (Takes.alt_right hlog (takes_lit ".gz" []))
      exact findFrom_append hcaptures.alt_left.isSome first front
  | logDot front =>
      have hfails := dotStyle_fails digits
      rw [← List.append_nil (_ ++ digits)] at hfails
      exact findFrom_append (Captures.alt_right hfails (captures_logStyle hd)).isSome first front

theorem extractRotationNum_numbered {filename : String} {digits : List Char}
    (hd : Numeral digits) (h : Numbered digits (basePath filename).toList) :
    extractRotationNum filename = rotationValue (String.ofList digits) := by
  obtain ⟨m, hfind⟩ := Option.isSome_iff_exists.mp (findFrom_of_numbered hd h true)
  obtain ⟨front, rest, f, hcs, hrun⟩ := exists_of_findFrom hfind
  obtain ⟨digits', hd', h', hgroups⟩ := numbered_of_run hrun
  obtain rfl := Numbered.unique hd hd' h (hcs ▸ h'.append front)
  have hne : (String.ofList digits' != "") = true := by simpa using hd.ne_nil
  rw [extractRotationNum, find, hfind]
  rcases hgroups with hgroups | hgroups
  · have hfirst : m.group 1 = String.ofList digits' := by rw [Match.group, hgroups]; rfl
    dsimp only
    rw [hfirst, if_pos hne]
  · have hfirst : m.group 1 = "" := by rw [Match.group, hgroups]; rfl
    have hsecond : m.group 2 = String.ofList digits' := by rw [Match.group, hgroups]; rfl
    dsimp only
    rw [hfirst, hsecond, if_pos hne]
    rfl

theorem extractRotationNum_zero {filename : String}
    (h : ∀ digits, Numeral digits → ¬ Numbered digits (basePath filename).toList) :
    extractRotationNum filename = 0 := by
  rw [extractRotationNum]
  split
  next => rfl
  next m hfind =>
    obtain ⟨front, rest, f, hcs, hrun⟩ := exists_of_findFrom hfind
    obtain ⟨digits, hd, hnumbered, _⟩ := numbered_of_run hrun
    exact absurd (hcs ▸ hnumbered.append front) (h digits hd)

theorem ofDigitChars_eq_zero_iff {digits : List Char} (h : ∀ c ∈ digits, isDigit c = true)
    (init : Nat) :
    Nat.ofDigitChars 10 digits init = 0 ↔ init = 0 ∧ ∀ c ∈ digits, c = '0' := by
  induction digits generalizing init with
  | nil => simp [Nat.ofDigitChars_nil]
  | cons c digits ih =>
      obtain ⟨hc, hdigits⟩ := List.forall_mem_cons.mp h
      have hzero : c.toNat - '0'.toNat = 0 ↔ c = '0' := by
        have hrange := isDigit_range hc
        rw [← Char.toNat_inj]
        show c.toNat - 48 = 0 ↔ c.toNat = 48
        omega
      have hsum : 10 * init + (c.toNat - '0'.toNat) = 0 ↔ init = 0 ∧ c.toNat - '0'.toNat = 0 := by
        omega
      rw [Nat.ofDigitChars_cons, ih hdigits, List.forall_mem_cons, ← hzero, hsum, and_assoc]

theorem rotationValue_eq_zero_iff {digits : List Char} (h : Numeral digits) :
    rotationValue (String.ofList digits) = 0 ↔ ∀ c ∈ digits, c = '0' := by
  have hmin (n : Nat) : min n (2 ^ 63 - 1) = 0 ↔ n = 0 := by omega
  rw [rotationValue, hmin, String.toList_ofList, ofDigitChars_eq_zero_iff h.digits]
  exact and_iff_right rfl

theorem basePath_name {name : String} (hne : name ≠ "") (hslash : '/' ∉ name.toList) :
    basePath name = name := by
  rw [basePath, if_neg hne, pathElements_of_not_mem hslash, List.reverse_singleton,
    List.dropWhile_cons_of_neg (by simpa using hne)]

theorem basePath_under {name : String} (hne : name ≠ "") (hslash : '/' ∉ name.toList)
    (dirPrefix : String) : basePath (dirPrefix ++ "/" ++ name) = name := by
  have hpath : dirPrefix ++ "/" ++ name ≠ "" := by simp [hne]
  rw [basePath, if_neg hpath, pathElements_append, pathElements_of_not_mem hslash,
    List.reverse_append, List.reverse_singleton, List.singleton_append,
    List.dropWhile_cons_of_neg (by simpa using hne)]

/-! ## Numbers that compression changes -/

/-- A number other than zero stands in front of `.log` or of `.gz`, or it ends the name and does not
stand behind `.log.`. -/
def Misnumbered (name : String) : Prop :=
  ∃ front digits, Numeral digits ∧ (∃ c ∈ digits, c ≠ '0') ∧
    (name.toList = front ++ '.' :: (digits ++ ".log".toList) ∨
      name.toList = front ++ '.' :: (digits ++ ".gz".toList) ∨
      name.toList = front ++ '.' :: digits ∧ ¬ ".log".toList <:+ front)

theorem misnumbered_dot_iff {name : String} {front digits : List Char} (hd : Numeral digits)
    (hname : name.toList = front ++ '.' :: digits) :
    Misnumbered name ↔ (∃ c ∈ digits, c ≠ '0') ∧ ¬ ".log".toList <:+ front := by
  constructor
  · rintro ⟨front', digits', hd', hnonzero, h | h | ⟨h, hnot⟩⟩
    · exact absurd (hname.symm.trans h) (hd.dot_append_ne rfl rfl front front' digits')
    · exact absurd (hname.symm.trans h) (hd.dot_append_ne rfl rfl front front' digits')
    · obtain ⟨rfl, rfl⟩ := append_dot_inj hd.no_dot hd'.no_dot (hname.symm.trans h)
      exact ⟨hnonzero, hnot⟩
  · rintro ⟨hnonzero, hlog⟩
    exact ⟨front, digits, hd, hnonzero, Or.inr (Or.inr ⟨hname, hlog⟩)⟩

/-- Any other name is misnumbered for the number that is read from it. -/
theorem misnumbered_iff {name : String}
    (hnodot : ∀ front digits, Numeral digits → name.toList ≠ front ++ '.' :: digits) :
    Misnumbered name ↔
      ∃ digits, Numeral digits ∧ (∃ c ∈ digits, c ≠ '0') ∧ Numbered digits name.toList := by
  constructor
  · rintro ⟨front, digits, hd, hnonzero, h | h | ⟨h, _⟩⟩
    · exact ⟨digits, hd, hnonzero, h ▸ .dotLog front⟩
    · exact ⟨digits, hd, hnonzero, h ▸ .dotGz front⟩
    · exact absurd h (hnodot front digits hd)
  · rintro ⟨digits, hd, hnonzero, hnumbered⟩
    generalize hname : name.toList = cs at hnumbered
    cases hnumbered with
    | dotLog front => exact ⟨front, digits, hd, hnonzero, Or.inl hname⟩
    | dotGz front => exact ⟨front, digits, hd, hnonzero, Or.inr (Or.inl hname)⟩
    | logDot front =>
        refine absurd ?_ (hnodot (front ++ ".log".toList) digits hd)
        rw [hname, List.append_assoc]
        rfl

theorem rotationValue_ne_zero_iff {digits : List Char} (h : Numeral digits) :
    rotationValue (String.ofList digits) ≠ 0 ↔ ∃ c ∈ digits, c ≠ '0' := by
  rw [ne_eq, rotationValue_eq_zero_iff h]
  simp only [not_forall, exists_prop]

section Compression

variable {name : String} (hne : name ≠ "") (hslash : '/' ∉ name.toList)

include hne hslash

theorem basePath_gz : (basePath (name ++ ".gz")).toList = name.toList ++ ".gz".toList := by
  rw [basePath_name (by simp [hne]) (by simp [hslash]), String.toList_append]

theorem extractRotationNum_gz {front digits : List Char} (hd : Numeral digits)
    (hname : name.toList = front ++ '.' :: digits) :
    extractRotationNum (name ++ ".gz") = rotationValue (String.ofList digits) := by
  refine extractRotationNum_numbered hd ?_
  rw [basePath_gz hne hslash]
  exact (numbered_gz_iff hd).mpr ⟨front, hname⟩

theorem extractRotationNum_gz_zero
    (hname : ∀ front digits, Numeral digits → name.toList ≠ front ++ '.' :: digits) :
    extractRotationNum (name ++ ".gz") = 0 := by
  refine extractRotationNum_zero fun digits hd h => ?_
  rw [basePath_gz hne hslash] at h
  obtain ⟨front, heq⟩ := (numbered_gz_iff hd).mp h
  exact hname front digits hd heq

theorem extractRotationNum_ne_zero_iff : extractRotationNum name ≠ 0 ↔
    ∃ digits, Numeral digits ∧ (∃ c ∈ digits, c ≠ '0') ∧ Numbered digits name.toList := by
  have hbase := basePath_name hne hslash
  constructor
  · intro hnum
    by_contra hnone
    refine hnum ?_
    by_cases hnumber : ∃ digits, Numeral digits ∧ Numbered digits name.toList
    · obtain ⟨digits, hd, hnumbered⟩ := hnumber
      rw [extractRotationNum_numbered hd (hbase.symm ▸ hnumbered)]
      by_contra hvalue
      exact hnone ⟨digits, hd, (rotationValue_ne_zero_iff hd).mp hvalue, hnumbered⟩
    · exact extractRotationNum_zero fun digits hd h => hnumber ⟨digits, hd, hbase ▸ h⟩
  · rintro ⟨digits, hd, hnonzero, hnumbered⟩
    rw [extractRotationNum_numbered hd (hbase.symm ▸ hnumbered)]
    exact (rotationValue_ne_zero_iff hd).mpr hnonzero

/-- Compressing a file changes its number exactly if the name is misnumbered. -/
theorem extractRotationNum_gz_eq_iff :
    extractRotationNum (name ++ ".gz") = extractRotationNum name ↔ ¬ Misnumbered name := by
  have hbase := basePath_name hne hslash
  by_cases hdot : ∃ front digits, Numeral digits ∧ name.toList = front ++ '.' :: digits
  · obtain ⟨front, digits, hd, hname⟩ := hdot
    have hiff (digits' : List Char) (hd' : Numeral digits') :
        Numbered digits' (basePath name).toList ↔ digits' = digits ∧ ".log".toList <:+ front := by
      rw [hbase, hname, numbered_dot_iff hd hd']
    rw [extractRotationNum_gz hne hslash hd hname, misnumbered_dot_iff hd hname]
    by_cases hlog : ".log".toList <:+ front
    · rw [extractRotationNum_numbered hd ((hiff digits hd).mpr ⟨rfl, hlog⟩)]
      exact iff_of_true rfl fun h => h.2 hlog
    · rw [extractRotationNum_zero fun digits' hd' h => hlog ((hiff digits' hd').mp h).2,
        and_iff_left hlog, ← rotationValue_ne_zero_iff hd, not_not]
  · have hnodot : ∀ front digits, Numeral digits → name.toList ≠ front ++ '.' :: digits :=
      fun front digits hd h => hdot ⟨front, digits, hd, h⟩
    rw [extractRotationNum_gz_zero hne hslash hnodot, misnumbered_iff hnodot,
      ← extractRotationNum_ne_zero_iff hne hslash, not_not, eq_comm]

end Compression

/-- The files are ordered by the pair of date and number. -/
theorem not_fileLess_iff {a b : LogFile} : (!fileLess b a) = true ↔
    toLex (a.date, extractRotationNum a.name) ≤ toLex (b.date, extractRotationNum b.name) := by
  rw [Prod.Lex.toLex_le_toLex, fileLess]
  by_cases heq : b.date = a.date
  · simp [heq]
  · simp [heq, Ne.symm heq, lt_iff_le_and_ne]

theorem listFiles_pairwise (r : Reader) (app fromDate toDate : String) :
    (r.listFiles app fromDate toDate).Pairwise fun a b => fileLess b a = false := by
  have htotal : Std.Total fun a b : LogFile => (!fileLess b a) = true :=
    ⟨fun a b => by simpa only [not_fileLess_iff] using le_total _ _⟩
  have htrans : IsTrans LogFile fun a b => (!fileLess b a) = true :=
    ⟨fun a b c => by simpa only [not_fileLess_iff] using le_trans⟩
  have hsorted := List.pairwise_insertionSort (fun a b : LogFile => (!fileLess b a) = true)
    (uniqueNames [] (r.scanned app fromDate toDate))
  exact hsorted.imp fun h => by simpa using h

theorem pair_sublist_or {α : Type} {a b : α} {l : List α} (ha : a ∈ l) (hb : b ∈ l)
    (hne : a ≠ b) : [a, b].Sublist l ∨ [b, a].Sublist l := by
  induction l with
  | nil => exact absurd ha List.not_mem_nil
  | cons c l ih =>
      rcases List.mem_cons.mp ha with rfl | ha'
      · have hmem := (List.mem_cons.mp hb).resolve_left hne.symm
        exact Or.inl (List.Sublist.cons_cons a (List.singleton_sublist.mpr hmem))
      · rcases List.mem_cons.mp hb with rfl | hb'
        · exact Or.inr (List.Sublist.cons_cons b (List.singleton_sublist.mpr ha'))
        · exact (ih ha' hb').imp (List.Sublist.cons c) (List.Sublist.cons c)

/-- Two files of a date are listed in the order of their numbers. -/
theorem pair_sublist_listFiles_iff {r : Reader} {app fromDate toDate : String} {f g : LogFile}
    (hf : f ∈ r.listFiles app fromDate toDate) (hg : g ∈ r.listFiles app fromDate toDate)
    (hdate : g.date = f.date) (hnum : extractRotationNum g.name ≠ extractRotationNum f.name) :
    [f, g].Sublist (r.listFiles app fromDate toDate) ↔
      extractRotationNum f.name < extractRotationNum g.name := by
  have hless (a b : LogFile) (hdate : b.date = a.date)
      (h : [a, b].Sublist (r.listFiles app fromDate toDate)) :
      extractRotationNum a.name ≤ extractRotationNum b.name := by
    have hpair := List.pairwise_pair.mp ((listFiles_pairwise r app fromDate toDate).sublist h)
    simpa [fileLess, hdate] using hpair
  constructor
  · exact fun h => lt_of_le_of_ne (hless f g hdate h) hnum.symm
  · intro hlt
    refine (pair_sublist_or hf hg fun heq => hnum (heq ▸ rfl)).resolve_right fun h => ?_
    exact absurd (hless g f hdate.symm h) (not_le.mpr hlt)

theorem extractDate_gz (name : String) : extractDate (name ++ ".gz") = extractDate name := by
  have hdigit : Ignores digit ".gz".toList := ignores_cls (noHead_cons (by decide) _)
  have hdash : Ignores (char '-') ".gz".toList := ignores_cls (noHead_cons (by decide) _)
  have hdate : Ignores dateInFilename ".gz".toList := by
    refine Ignores.group (Ignores.all ?_) 1
    simp only [List.forall_mem_cons]
    exact ⟨hdigit.times 4, hdash, hdigit.times 2, hdash, hdigit.times 2,
      fun _ h => absurd h List.not_mem_nil⟩
  have hnone : ∀ first, findFrom dateInFilename first ".gz".toList = none := by decide +kernel
  rw [extractDate, extractDate, find, find, String.toList_append, findFrom_ignores hdate hnone]
  cases findFrom dateInFilename true name.toList with
  | none => rfl
  | some m => rfl

/-- The entry of a file and the entry that compressing it leaves: the name is longer, and the time
of the last modification is kept. -/
structure Compressed (e e' : DirEntry) : Prop where
  name : e'.name = e.name ++ ".gz"
  modDate : e'.info.map (·.modDate) = e.info.map (·.modDate)

theorem Compressed.entryDate {e e' : DirEntry} (h : Compressed e e') (dirPrefix : String) :
    entryDate dirPrefix e' = entryDate dirPrefix e := by
  rw [LogReader.entryDate, LogReader.entryDate, h.name, h.modDate, extractDate_gz]

section Scanned

variable {dir dirPrefix fromDate toDate : String} {e e' : DirEntry} {f f' : LogFile}

theorem Scans.basePath (h : Scans dir dirPrefix fromDate toDate e f)
    (hslash : '/' ∉ e.name.toList) : basePath f.name = e.name := by
  have hne := (isName_of_log h.log hslash).ne_empty
  rw [h.name]
  split
  next => exact basePath_under hne hslash dirPrefix
  next => exact basePath_name hne hslash

theorem Scans.number (h : Scans dir dirPrefix fromDate toDate e f) (hslash : '/' ∉ e.name.toList) :
    extractRotationNum f.name = extractRotationNum e.name := by
  rw [extractRotationNum, extractRotationNum, h.basePath hslash,
    basePath_name (isName_of_log h.log hslash).ne_empty hslash]

theorem Compressed.date (h : Compressed e e') (hf : Scans dir dirPrefix fromDate toDate e f)
    (hf' : Scans dir dirPrefix fromDate toDate e' f') : f'.date = f.date := by
  have hdate := hf'.date
  rw [h.entryDate, hf.date] at hdate
  exact (Option.some.inj hdate).symm

end Scanned

/-- Compressing a file of this name changes neither its number nor its place among the listed files
of its date with other numbers. -/
structure Unmoved (name : String) : Prop where
  number : extractRotationNum (name ++ ".gz") = extractRotationNum name
  place : ∀ {r r' : Reader} {app fromDate toDate dir dirPrefix : String} {e e' : DirEntry}
    {f f' g : LogFile}, e.name = name → Compressed e e' →
      scanEntry dir dirPrefix fromDate toDate e = some f →
      scanEntry dir dirPrefix fromDate toDate e' = some f' →
      f ∈ r.listFiles app fromDate toDate → g ∈ r.listFiles app fromDate toDate →
      f' ∈ r'.listFiles app fromDate toDate → g ∈ r'.listFiles app fromDate toDate →
      g.date = f.date → extractRotationNum g.name ≠ extractRotationNum f.name →
        ([f, g].Sublist (r.listFiles app fromDate toDate) ↔
          [f', g].Sublist (r'.listFiles app fromDate toDate)) ∧
        ([g, f].Sublist (r.listFiles app fromDate toDate) ↔
          [g, f'].Sublist (r'.listFiles app fromDate toDate))

theorem unmoved_of_number {name : String} (hslash : '/' ∉ name.toList)
    (hnumber : extractRotationNum (name ++ ".gz") = extractRotationNum name) : Unmoved name := by
  refine ⟨hnumber, ?_⟩
  intro r r' app fromDate toDate dir dirPrefix e e' f f' g hname hcompressed hscan hscan'
    hf hg hf' hg' hdate hnum
  have hscans := scans_of_scanEntry hscan
  have hscans' := scans_of_scanEntry hscan'
  have hslash' : '/' ∉ e'.name.toList := by
    rw [hcompressed.name, hname, String.toList_append]
    simp [hslash]
  have hdate' : f'.date = f.date := hcompressed.date hscans hscans'
  have hnumber' : extractRotationNum f'.name = extractRotationNum f.name := by
    rw [hscans'.number hslash', hscans.number (hname ▸ hslash), hcompressed.name, hname, hnumber]
  have hnum' : extractRotationNum g.name ≠ extractRotationNum f'.name := hnumber'.symm ▸ hnum
  constructor
  · rw [pair_sublist_listFiles_iff hf hg hdate hnum,
      pair_sublist_listFiles_iff hf' hg' (hdate.trans hdate'.symm) hnum', hnumber']
  · rw [pair_sublist_listFiles_iff hg hf hdate.symm hnum.symm,
      pair_sublist_listFiles_iff hg' hf' (hdate'.trans hdate.symm) hnum'.symm, hnumber']

/-- Compression moves exactly the misnumbered files. -/
theorem unmoved_iff {name : String} (hlog : contains name ".log" = true)
    (hslash : '/' ∉ name.toList) : Unmoved name ↔ ¬ Misnumbered name := by
  rw [← extractRotationNum_gz_eq_iff (isName_of_log hlog hslash).ne_empty hslash]
  exact ⟨fun h => h.number, unmoved_of_number hslash⟩

/-- A file numbered behind `.log` stays in its place. -/
theorem winston_unmoved : Unmoved "app.log.1" := by
  refine (unmoved_iff (by decide +kernel) (by decide)).mpr fun h => ?_
  have hone : Numeral ['1'] := ⟨List.cons_ne_nil '1' [], List.forall_mem_singleton.mpr rfl⟩
  exact ((misnumbered_dot_iff hone (show _ = "app.log".toList ++ _ from rfl)).mp h).2 (by decide)

def rotated (second : String) : Reader where
  baseDir := "/logs"
  fs :=
    { readDir := fun dir =>
        if dir = "/logs/app" then
          some (["app.2024-01-15.1.log", second].map fun name => ⟨name, false, some ⟨"", 0⟩⟩)
        else none
      openFile := fun _ => none }

/-- The file numbered in front of `.log` moves to the front of its day. -/
theorem log4j_moved : ¬ Unmoved "app.2024-01-15.2.log" ∧
    ((rotated "app.2024-01-15.2.log").listFiles "app" "" "").map (·.name) =
      ["app.2024-01-15.1.log", "app.2024-01-15.2.log"] ∧
    ((rotated "app.2024-01-15.2.log.gz").listFiles "app" "" "").map (·.name) =
      ["app.2024-01-15.2.log.gz", "app.2024-01-15.1.log"] :=
  ⟨fun h => absurd h.number (by decide +kernel), by decide +kernel, by decide +kernel⟩

end NestGateway.LogReader
