import NestGateway.Core.FixedWidth
import NestGateway.Core.JsDate
import NestGateway.Core.JsString
import NestGateway.Core.Regex

/-! # Datetimes of the database

A `Date` is stored as the wall clock of Korea, nine hours ahead, with three
digits of the second. A `Date` is its time value here.
-/

namespace NestGateway.Auth

open Regex Re JsDate FixedWidth

def KST_OFFSET_MS : Int := 9 * 60 * 60 * 1000

/-- `String(value).padStart(length, '0')` -/
def pad (value length : Nat) : String := String.ofList (zeroPad length (Nat.repr value).toList)

def formatKstDatetime (value : Int) : String :=
  match timeClip (value + KST_OFFSET_MS) with
  | none => "NaN-NaN-NaN NaN:NaN:NaN.NaN"
  | some kst =>
      toString (yearFromTime kst) ++ "-" ++ pad (monthFromTime kst + 1) 2 ++ "-" ++
        pad (dateFromTime kst) 2 ++ " " ++ pad (hourFromTime kst) 2 ++ ":" ++
        pad (minFromTime kst) 2 ++ ":" ++ pad (secFromTime kst) 2 ++ "." ++
        pad (msFromTime kst) 3

/-- `^(\d{4})-(\d{2})-(\d{2})[ T](\d{2}):(\d{2}):(\d{2})(?:\.(\d{1,6}))?$` -/
def kstDatetimePattern : Re :=
  all [bol, group 1 (times 4 digit), char '-', group 2 (times 2 digit), char '-',
    group 3 (times 2 digit), cls fun c => c == ' ' || c == 'T', group 4 (times 2 digit), char ':',
    group 5 (times 2 digit), char ':', group 6 (times 2 digit),
    opt (seq (char '.') (group 7 (between 1 6 digit))), eol]

/-- `fraction.padEnd(3, '0').slice(0, 3)` -/
def millisecondsText (fraction : String) : String :=
  String.ofList ((fraction.toList ++ List.replicate (3 - fraction.length) '0').take 3)

/-- The date, none for an invalid one, or the text of the error. -/
def parseKstDatetime (value : String) : Except String (Option Int) :=
  match find kstDatetimePattern (JsString.trim value) with
  | none => .error ("Invalid KST datetime value: " ++ value)
  | some m =>
      .ok (do
        let year ← JsString.number (m.group 1)
        let month ← JsString.number (m.group 2)
        let day ← JsString.number (m.group 3)
        let hour ← JsString.number (m.group 4)
        let minute ← JsString.number (m.group 5)
        let second ← JsString.number (m.group 6)
        let milliseconds ← JsString.number (millisecondsText (m.group 7))
        let time ← utc year ((month : Int) - 1) day hour minute second milliseconds
        timeClip (time - KST_OFFSET_MS))

def kstYear (value : Int) : Int := yearFromTime (value + KST_OFFSET_MS)

def InDatetimeRange (value : Int) : Prop := 1000 ≤ kstYear value ∧ kstYear value ≤ 9999

/-- The fraction of three digits padded to six. -/
def padFraction (text : String) : String := text ++ "000"

def separateByT (text : String) : String :=
  String.ofList (text.toList.map fun c => if c = ' ' then 'T' else c)

/-- The forms in which a written text is read. -/
def storedForms (text : String) : List String :=
  [text, padFraction text, separateByT text, padFraction (separateByT text)]

/-! ## The written text -/

/-- The fields of a datetime, with the separator and the fraction that it is written with. -/
def datetimeChars (sep : Char) (fraction : List Char) (year month day hour minute second : Nat) :
    List Char :=
  fixed 4 year ++ ('-' :: (fixed 2 month ++ ('-' :: (fixed 2 day ++ (sep :: (fixed 2 hour ++
    (':' :: (fixed 2 minute ++ (':' :: (fixed 2 second ++ ('.' :: fraction)))))))))))

/-- The widths of the fields, and what stands behind each. -/
def datetimeLayout : List (Nat × List Char) :=
  [(4, ['-']), (2, ['-']), (2, [' ']), (2, [':']), (2, [':']), (2, ['.']), (3, [])]

theorem kst_in_range {d : Int} (hd : InDatetimeRange d) :
    timeClip (d + KST_OFFSET_MS) = some (d + KST_OFFSET_MS) ∧ timeClip d = some d := by
  obtain ⟨hlow, hhigh⟩ := hd
  have hbegin := (yearOfDay_spec (day (d + KST_OFFSET_MS))).1
  have hend := (yearOfDay_spec (day (d + KST_OFFSET_MS))).2
  have hfirst := dayFromYear_mono hlow
  have hlast := dayFromYear_mono (Int.add_le_add_right hhigh 1)
  have h1000 : dayFromYear 1000 = -354285 := by decide
  have h10000 : dayFromYear (9999 + 1) = 2932897 := by decide
  rw [kstYear, yearFromTime] at hfirst hlast
  rw [day, msPerDay] at hbegin hend hfirst hlast
  rw [timeClip, timeClip, maxTime, KST_OFFSET_MS]
  rw [KST_OFFSET_MS] at hbegin hend hfirst hlast
  exact ⟨if_neg (by omega), if_neg (by omega)⟩

theorem fits_fields {t : Int} (hyear : yearFromTime t ≤ 9999) : Fits datetimeLayout (fields t) := by
  have hmonth := (monthFromTime_spec t).1
  have hdate := dateFromTime_le t
  have hhour := hourFromTime_lt t
  have hmin := minFromTime_lt t
  have hsec := secFromTime_lt t
  have hms := msFromTime_lt t
  refine .cons ?_ (.cons ?_ (.cons ?_ (.cons ?_ (.cons ?_ (.cons ?_ (.cons ?_ .nil))))))
  all_goals
    dsimp only
    omega

theorem pad_eq {w n : Nat} (hw : 0 < w) (h : n < 10 ^ w) : pad n w = String.ofList (fixed w n) := by
  rw [pad, Nat.toList_repr, zeroPad_toDigits hw h]

theorem toString_year {y : Int} (hlow : 1000 ≤ y) (hhigh : y ≤ 9999) :
    toString y = String.ofList (fixed 4 y.toNat) := by
  obtain ⟨n, rfl⟩ := Int.eq_ofNat_of_zero_le (show 0 ≤ y by omega)
  have hdigits : Nat.toDigits 10 n = fixed (3 + 1) n :=
    toDigits_eq_fixed (by omega) (by omega)
  have hrepr : toString (n : Int) = Nat.repr n := rfl
  rw [hrepr, Int.toNat_natCast, Nat.repr_eq_ofList_toDigits, hdigits]

theorem formatKstDatetime_eq {d : Int} (hd : InDatetimeRange d) :
    formatKstDatetime d = String.ofList (render datetimeLayout (fields (d + KST_OFFSET_MS))) := by
  obtain ⟨hlow, hhigh⟩ := hd
  rw [formatKstDatetime, (kst_in_range ⟨hlow, hhigh⟩).1]
  rw [kstYear] at hlow hhigh
  generalize d + KST_OFFSET_MS = kst at hlow hhigh
  have hmonth := (monthFromTime_spec kst).1
  have hdate := dateFromTime_le kst
  have hhour := hourFromTime_lt kst
  have hmin := minFromTime_lt kst
  have hsec := secFromTime_lt kst
  have hms := msFromTime_lt kst
  dsimp only
  rw [toString_year hlow hhigh, pad_eq (by decide) (by omega), pad_eq (by decide) (by omega),
    pad_eq (by decide) (by omega), pad_eq (by decide) (by omega), pad_eq (by decide) (by omega),
    pad_eq (by decide) (by omega)]
  rw [← String.toList_inj]
  simp [render, datetimeLayout, fields]

theorem render_fields (t : Int) :
    render datetimeLayout (fields t) =
      datetimeChars ' ' (fixed 3 (msFromTime t)) (yearFromTime t).toNat (monthFromTime t + 1)
        (dateFromTime t) (hourFromTime t) (minFromTime t) (secFromTime t) := by
  simp [render, datetimeLayout, fields, datetimeChars]

/-! ## Reading a text -/

section Chars

variable {sep : Char} {fraction : List Char} {year month date hour minute second : Nat}

theorem captures_field (g w n : Nat) (rest : List Char) :
    Captures (group g (times w digit)) (fixed w n) rest [(g, String.ofList (fixed w n))] := by
  have hdigits : ∀ c ∈ fixed w n, Text.isDigit c = true := fun c hc => isDigit_of_mem_fixed hc
  have htakes := takes_times hdigits rest
  rw [length_fixed] at htakes
  exact htakes.captures.group g

/-- The fields of a datetime up to the second, with what follows them. -/
def fieldChars (sep : Char) (tail : List Char) (year month day hour minute second : Nat) :
    List Char :=
  fixed 4 year ++ ('-' :: (fixed 2 month ++ ('-' :: (fixed 2 day ++ (sep :: (fixed 2 hour ++
    (':' :: (fixed 2 minute ++ (':' :: (fixed 2 second ++ tail))))))))))

theorem find_fieldChars (hsep : sep = ' ' ∨ sep = 'T') {tail : List Char}
    {gs : List (Nat × String)}
    (htail : Captures (opt (seq (char '.') (group 7 (between 1 6 digit)))) tail [] gs) :
    find kstDatetimePattern
        (String.ofList (fieldChars sep tail year month date hour minute second)) =
      some ⟨gs ++ [(6, String.ofList (fixed 2 second)), (5, String.ofList (fixed 2 minute)),
        (4, String.ofList (fixed 2 hour)), (3, String.ofList (fixed 2 date)),
        (2, String.ofList (fixed 2 month)), (1, String.ofList (fixed 4 year))], []⟩ := by
  have hblank (rest : List Char) : Takes (cls fun c => c == ' ' || c == 'T') [sep] rest := by
    rcases hsep with rfl | rfl
    · exact takes_cls (by decide) rest
    · exact takes_cls (by decide) rest
  have hend := htail.seq captures_eol
  rw [List.append_nil, List.nil_append] at hend
  have hline := find_bol ((captures_field 1 4 year _).seq ((takes_char '-' _).captures.seq
    ((captures_field 2 2 month _).seq ((takes_char '-' _).captures.seq
      ((captures_field 3 2 date _).seq ((hblank _).captures.seq
        ((captures_field 4 2 hour _).seq ((takes_char ':' _).captures.seq
          ((captures_field 5 2 minute _).seq ((takes_char ':' _).captures.seq
            ((captures_field 6 2 second _).seq hend)))))))))))
  simp only [List.append_nil, List.append_assoc, List.singleton_append] at hline
  exact hline

theorem find_datetimeChars (hsep : sep = ' ' ∨ sep = 'T')
    (hdigits : ∀ c ∈ fraction, Text.isDigit c = true) (hpos : 1 ≤ fraction.length)
    (hlen : fraction.length ≤ 6) :
    find kstDatetimePattern
        (String.ofList (datetimeChars sep fraction year month date hour minute second)) =
      some ⟨[(7, String.ofList fraction), (6, String.ofList (fixed 2 second)),
        (5, String.ofList (fixed 2 minute)), (4, String.ofList (fixed 2 hour)),
        (3, String.ofList (fixed 2 date)), (2, String.ofList (fixed 2 month)),
        (1, String.ofList (fixed 4 year))], []⟩ := by
  have hfraction : Captures (opt (seq (char '.') (group 7 (between 1 6 digit))))
      ('.' :: fraction) [] [(7, String.ofList fraction)] :=
    ((takes_char '.' _).captures.seq
      ((takes_between hdigits (by intro c hc; cases hc) hpos hlen).captures.group 7)).opt
  exact find_fieldChars hsep hfraction

theorem trim_fieldChars {tail : List Char} (hdigits : ∀ c ∈ tail.getLast?, Text.isDigit c = true) :
    JsString.trim (String.ofList (fieldChars sep tail year month date hour minute second)) =
      String.ofList (fieldChars sep tail year month date hour minute second) := by
  have hfilled (w n : Nat) : fixed (w + 1) n ≠ [] := by
    rw [ne_eq, ← List.length_eq_zero_iff, length_fixed]
    omega
  obtain ⟨front, hfront⟩ : ∃ front, fieldChars sep tail year month date hour minute second =
      front ++ (fixed 2 second ++ tail) :=
    ⟨fixed 4 year ++ ('-' :: (fixed 2 month ++ ('-' :: (fixed 2 date ++ (sep ::
      (fixed 2 hour ++ (':' :: (fixed 2 minute ++ [':'])))))))), by simp [fieldChars]⟩
  refine JsString.trim_eq_self ?_ ?_
  · intro c hc
    rw [fieldChars, List.head?_append_of_ne_nil _ (hfilled 3 year)] at hc
    exact JsString.isWhiteSpace_of_isDigit (isDigit_of_mem_fixed (List.mem_of_mem_head? hc))
  · intro c hc
    rw [hfront, List.getLast?_append_of_ne_nil _ (List.append_ne_nil_of_left_ne_nil
      (hfilled 1 second) tail)] at hc
    cases htail : tail with
    | nil =>
        rw [htail, List.append_nil] at hc
        exact JsString.isWhiteSpace_of_isDigit (isDigit_of_mem_fixed (List.mem_of_mem_getLast? hc))
    | cons d ds =>
        rw [List.getLast?_append_of_ne_nil _ (by rw [htail]; exact List.cons_ne_nil d ds)] at hc
        exact JsString.isWhiteSpace_of_isDigit (hdigits c hc)

theorem trim_datetimeChars (hdigits : ∀ c ∈ fraction, Text.isDigit c = true)
    (hne : fraction ≠ []) :
    JsString.trim (String.ofList (datetimeChars sep fraction year month date hour minute second)) =
      String.ofList (datetimeChars sep fraction year month date hour minute second) := by
  refine trim_fieldChars fun c hc => hdigits c ?_
  rw [← List.singleton_append, List.getLast?_append_of_ne_nil _ hne] at hc
  exact List.mem_of_mem_getLast? hc

theorem number_fixed {w n : Nat} (hw : 0 < w) (h : n < 10 ^ w) :
    JsString.number (String.ofList (fixed w n)) = some n := by
  have hdigits : ∀ c ∈ fixed w n, Text.isDigit c = true := fun c hc => isDigit_of_mem_fixed hc
  have hne : fixed w n ≠ [] := by
    rw [ne_eq, ← List.length_eq_zero_iff, length_fixed]
    omega
  have htrim : JsString.trim (String.ofList (fixed w n)) = String.ofList (fixed w n) :=
    JsString.trim_of_digits (by rwa [String.toList_ofList])
  have hfilled : String.ofList (fixed w n) ≠ "" := by
    intro hempty
    rw [← String.toList_inj, String.toList_ofList] at hempty
    exact hne hempty
  rw [JsString.number, htrim, if_neg hfilled, String.toList_ofList, Text.digitsValue.eq_def]
  split
  next hnil => exact absurd hnil hne
  next => rw [if_pos (List.all_eq_true.mpr hdigits), ofDigitChars_fixed h]

theorem millisecondsText_eq (ms : Nat) (zeros : List Char) :
    millisecondsText (String.ofList (fixed 3 ms ++ zeros)) = String.ofList (fixed 3 ms) := by
  rw [millisecondsText, String.toList_ofList, List.append_assoc,
    List.take_left' (length_fixed 3 ms)]

end Chars

/-- What is read from the fields of a time value, with zeros behind its fraction. -/
theorem parse_fields {t : Int} (hyear : 1000 ≤ yearFromTime t ∧ yearFromTime t ≤ 9999)
    (hclip : timeClip t = some t) {sep : Char} (hsep : sep = ' ' ∨ sep = 'T') {zeros : List Char}
    (hzeros : ∀ c ∈ zeros, Text.isDigit c = true) (hlen : zeros.length ≤ 3) :
    parseKstDatetime (String.ofList (datetimeChars sep (fixed 3 (msFromTime t) ++ zeros)
      (yearFromTime t).toNat (monthFromTime t + 1) (dateFromTime t) (hourFromTime t)
      (minFromTime t) (secFromTime t))) = .ok (timeClip (t - KST_OFFSET_MS)) := by
  have hdigits : ∀ c ∈ fixed 3 (msFromTime t) ++ zeros, Text.isDigit c = true := by
    intro c hc
    rcases List.mem_append.mp hc with hc | hc
    · exact isDigit_of_mem_fixed hc
    · exact hzeros c hc
  have hfraction : (fixed 3 (msFromTime t) ++ zeros).length = 3 + zeros.length := by
    rw [List.length_append, length_fixed]
  have hne : fixed 3 (msFromTime t) ++ zeros ≠ [] := by
    rw [ne_eq, ← List.length_eq_zero_iff, hfraction]
    omega
  have hmonth := (monthFromTime_spec t).1
  have hdate := dateFromTime_le t
  have hhour := hourFromTime_lt t
  have hmin := minFromTime_lt t
  have hsec := secFromTime_lt t
  have hms := msFromTime_lt t
  have hsplit : ¬ (t < -maxTime ∨ maxTime < t) := by
    intro hout
    rw [timeClip, if_pos hout] at hclip
    cases hclip
  have hutc := utc_fields (show 99 < yearFromTime t by omega) (by omega) (by omega)
  have hnat : (((yearFromTime t).toNat : Nat) : Int) = yearFromTime t :=
    Int.toNat_of_nonneg (by omega)
  have htwo (n : Nat) (h : n < 100) : JsString.number (String.ofList (fixed 2 n)) = some n :=
    number_fixed (by decide) h
  have hyears : JsString.number (String.ofList (fixed 4 (yearFromTime t).toNat)) =
      some (yearFromTime t).toNat := number_fixed (by decide) (by omega)
  have hmss : JsString.number (millisecondsText (String.ofList (fixed 3 (msFromTime t) ++ zeros))) =
      some (msFromTime t) := by
    rw [millisecondsText_eq]
    exact number_fixed (by decide) (by omega)
  rw [parseKstDatetime, trim_datetimeChars hdigits hne,
    find_datetimeChars hsep hdigits (by omega) (by omega)]
  dsimp only
  simp [-String.ofList_append, Match.group, List.lookup_cons, hyears, hmss, hnat, hutc,
    htwo (monthFromTime t + 1) (by omega), htwo (dateFromTime t) (by omega),
    htwo (hourFromTime t) (by omega), htwo (minFromTime t) (by omega),
    htwo (secFromTime t) (by omega)]

theorem map_separator {cs : List Char} (h : ∀ c ∈ cs, Text.isDigit c = true) :
    cs.map (fun c => if c = ' ' then 'T' else c) = cs := by
  have hsame : ∀ c ∈ cs, (if c = ' ' then 'T' else c) = c := by
    intro c hc
    refine if_neg fun hblank => ?_
    have hdigit := h c hc
    rw [hblank] at hdigit
    exact absurd hdigit (by decide)
  rw [List.map_congr_left hsame, List.map_id']

theorem separateByT_datetimeChars {fraction : List Char}
    (hdigits : ∀ c ∈ fraction, Text.isDigit c = true) (year month date hour minute second : Nat) :
    separateByT (String.ofList (datetimeChars ' ' fraction year month date hour minute second)) =
      String.ofList (datetimeChars 'T' fraction year month date hour minute second) := by
  have hfixed (w n : Nat) : (fixed w n).map (fun c => if c = ' ' then 'T' else c) = fixed w n :=
    map_separator fun c hc => isDigit_of_mem_fixed hc
  rw [separateByT, String.toList_ofList]
  simp [datetimeChars, hfixed, map_separator hdigits]

theorem padFraction_datetimeChars (sep : Char) (fraction : List Char)
    (year month date hour minute second : Nat) :
    padFraction (String.ofList (datetimeChars sep fraction year month date hour minute second)) =
      String.ofList
        (datetimeChars sep (fraction ++ ['0', '0', '0']) year month date hour minute second) := by
  rw [padFraction, ← String.toList_inj]
  simp [datetimeChars]

/-- A stored date is read back in each form, and later dates have greater texts. -/
theorem kstDatetime_round_trip {d : Int} (hd : InDatetimeRange d) :
    (∀ stored ∈ storedForms (formatKstDatetime d), parseKstDatetime stored = .ok (some d)) ∧
      ∀ e, InDatetimeRange e → d < e → formatKstDatetime d < formatKstDatetime e := by
  constructor
  · have hdigits : ∀ c ∈ fixed 3 (msFromTime (d + KST_OFFSET_MS)), Text.isDigit c = true :=
      fun c hc => isDigit_of_mem_fixed hc
    have hzeros : ∀ c ∈ ['0', '0', '0'], Text.isDigit c = true := by simp [Text.isDigit]
    obtain ⟨hclip, hback⟩ := kst_in_range hd
    have hread {sep : Char} (hsep : sep = ' ' ∨ sep = 'T') (zeros : List Char)
        (hzeros : ∀ c ∈ zeros, Text.isDigit c = true) (hlen : zeros.length ≤ 3) :=
      parse_fields hd hclip hsep hzeros hlen
    rw [Int.add_sub_cancel, hback] at hread
    have hshort {sep : Char} (hsep : sep = ' ' ∨ sep = 'T') :=
      hread hsep [] (by simp) (by decide)
    rw [List.append_nil] at hshort
    intro stored hstored
    rw [formatKstDatetime_eq hd, render_fields] at hstored
    simp only [storedForms, separateByT_datetimeChars hdigits, padFraction_datetimeChars,
      List.mem_cons, List.not_mem_nil, or_false] at hstored
    rcases hstored with rfl | rfl | rfl | rfl
    · exact hshort (Or.inl rfl)
    · exact hread (Or.inl rfl) _ hzeros (by decide)
    · exact hshort (Or.inr rfl)
    · exact hread (Or.inr rfl) _ hzeros (by decide)
  · intro e he h
    rw [formatKstDatetime_eq hd, formatKstDatetime_eq he, String.lt_iff_toList_lt,
      String.toList_ofList, String.toList_ofList]
    refine render_lt (fits_fields hd.2) (fits_fields he.2) (fields_lt ?_ ?_)
    · have hyear := hd.1
      rw [kstYear] at hyear
      omega
    · omega

theorem kstDatetime_round_trip_sample :
    (∀ stored ∈ storedForms (formatKstDatetime 951782399999),
        parseKstDatetime stored = .ok (some 951782399999)) ∧
      formatKstDatetime 951782399999 < formatKstDatetime 951782400000 := by
  obtain ⟨hread, hless⟩ := kstDatetime_round_trip (d := 951782399999) ⟨by decide, by decide⟩
  exact ⟨hread, hless 951782400000 ⟨by decide, by decide⟩ (by decide)⟩

end NestGateway.Auth
