import NestGateway.Auth.KstDatetime

/-! # Datetimes that no calendar has

`parseKstDatetime` checks the layout of a text and leaves its numbers to
`Date.UTC`, which takes any number of months, days and so on, and reads a year
below 100 as one of the twentieth century. The texts of the layout are a
structure here, and a date comes back with the fields of its text exactly when
they are those of a day with a clock, in a year from 100 on.
-/

namespace NestGateway.Auth

open Regex Re JsDate FixedWidth

/-- A text with the layout of a datetime; an empty fraction is one that is left out. -/
structure Written where
  year : Nat
  month : Nat
  day : Nat
  hour : Nat
  minute : Nat
  second : Nat
  sep : Char
  fraction : List Char
  year_lt : year < 10000
  month_lt : month < 100
  day_lt : day < 100
  hour_lt : hour < 100
  minute_lt : minute < 100
  second_lt : second < 100
  sep_eq : sep = ' ' ∨ sep = 'T'
  fraction_digits : ∀ c ∈ fraction, Text.isDigit c = true
  fraction_length : fraction.length ≤ 6

namespace Written

variable (w : Written)

def tail : List Char := if w.fraction = [] then [] else '.' :: w.fraction

def text : String :=
  String.ofList (fieldChars w.sep w.tail w.year w.month w.day w.hour w.minute w.second)

/-- The fraction cut to three digits. -/
def millisecond : Nat :=
  Nat.ofDigitChars 10 ((w.fraction ++ List.replicate (3 - w.fraction.length) '0').take 3) 0

/-- The fields are those of a day of the calendar and a clock. -/
structure Possible : Prop where
  year : 100 ≤ w.year
  month : 1 ≤ w.month ∧ w.month ≤ 12
  day : 1 ≤ w.day ∧ (w.day : Int) ≤ daysInMonth w.year (w.month - 1)
  hour : w.hour < 24
  minute : w.minute < 60
  second : w.second < 60

structure Names (value : Int) : Prop where
  year : kstYear value = w.year
  month : monthFromTime (value + KST_OFFSET_MS) + 1 = w.month
  day : dateFromTime (value + KST_OFFSET_MS) = w.day
  hour : hourFromTime (value + KST_OFFSET_MS) = w.hour
  minute : minFromTime (value + KST_OFFSET_MS) = w.minute
  second : secFromTime (value + KST_OFFSET_MS) = w.second
  millisecond : msFromTime (value + KST_OFFSET_MS) = w.millisecond

end Written

theorem exists_fixed_of_length {w : Nat} {cs : List Char} (hlen : cs.length = w)
    (h : ∀ c ∈ cs, Text.isDigit c = true) : ∃ n < 10 ^ w, cs = fixed w n := by
  rw [← hlen]
  exact exists_fixed h

theorem exists_fraction {s : State} {m : Match}
    (h : (seq (opt (seq (char '.') (group 7 (between 1 6 digit)))) eol).run s State.toMatch =
      some m) :
    ∃ fraction : List Char, fraction.length ≤ 6 ∧ (∀ c ∈ fraction, Text.isDigit c = true) ∧
      s.rest = if fraction = [] then [] else '.' :: fraction := by
  have hend : ∀ {t : State}, eol.run t State.toMatch = some m → t.rest = [] :=
    fun ht => (exists_of_run_eol ht).1
  rcases Option.or_eq_some_iff.mp h with hsome | ⟨_, hnone⟩
  · obtain ⟨c, rest, hrest, hc, hmore⟩ := exists_of_run_cons hsome
    obtain ⟨xs, ys, f, hxs, hxlen, hxall, hmore⟩ := exists_of_run_times hmore
    obtain ⟨zs, us, f', hzs, hzlen, hzall, hdone⟩ := exists_of_run_upTo hmore
    have hus : us = [] := hend hdone
    have hline : rest = xs ++ (zs ++ us) := by
      rw [← show ys = zs ++ us from hzs]
      exact hxs
    rw [hus, List.append_nil] at hline
    refine ⟨xs ++ zs, ?_, ?_, ?_⟩
    · rw [List.length_append]
      omega
    · intro d hd
      rcases List.mem_append.mp hd with hd | hd
      · exact hxall d hd
      · exact hzall d hd
    · have hne : xs ++ zs ≠ [] := by
        intro hnil
        rw [(List.append_eq_nil_iff.mp hnil).1] at hxlen
        cases hxlen
      rw [hrest, hline, if_neg hne, beq_iff_eq.mp hc]
  · exact ⟨[], Nat.zero_le 6, fun c hc => absurd hc List.not_mem_nil, hend hnone⟩

/-- Every text that the pattern matches has the layout. -/
theorem exists_written {s : String} {m : Match} (h : find kstDatetimePattern s = some m) :
    ∃ w : Written, s = w.text := by
  have hrun := run_of_find_bol h
  obtain ⟨ys, r₁, _, h₁, hyearlen, hys, hrun⟩ := exists_of_run_field hrun
  obtain ⟨_, r₂, h₂, hc₂, hrun⟩ := exists_of_run_cons hrun
  obtain ⟨ms, r₃, _, h₃, hmonthlen, hms, hrun⟩ := exists_of_run_field hrun
  obtain ⟨_, r₄, h₄, hc₄, hrun⟩ := exists_of_run_cons hrun
  obtain ⟨ds, r₅, _, h₅, hdaylen, hds, hrun⟩ := exists_of_run_field hrun
  obtain ⟨sep, r₆, h₆, hsep, hrun⟩ := exists_of_run_cons hrun
  obtain ⟨hs, r₇, _, h₇, hhourlen, hhs, hrun⟩ := exists_of_run_field hrun
  obtain ⟨_, r₈, h₈, hc₈, hrun⟩ := exists_of_run_cons hrun
  obtain ⟨is, r₉, _, h₉, hminutelen, his, hrun⟩ := exists_of_run_field hrun
  obtain ⟨_, r₁₀, h₁₀, hc₁₀, hrun⟩ := exists_of_run_cons hrun
  obtain ⟨ss, r₁₁, _, h₁₁, hsecondlen, hss, hrun⟩ := exists_of_run_field hrun
  obtain ⟨fraction, hlen, hdigits, h₁₂⟩ := exists_fraction hrun
  obtain ⟨year, hyear, rfl⟩ := exists_fixed_of_length hyearlen hys
  obtain ⟨month, hmonth, rfl⟩ := exists_fixed_of_length hmonthlen hms
  obtain ⟨day, hday, rfl⟩ := exists_fixed_of_length hdaylen hds
  obtain ⟨hour, hhour, rfl⟩ := exists_fixed_of_length hhourlen hhs
  obtain ⟨minute, hminute, rfl⟩ := exists_fixed_of_length hminutelen his
  obtain ⟨second, hsecond, rfl⟩ := exists_fixed_of_length hsecondlen hss
  obtain rfl := beq_iff_eq.mp hc₂
  obtain rfl := beq_iff_eq.mp hc₄
  obtain rfl := beq_iff_eq.mp hc₈
  obtain rfl := beq_iff_eq.mp hc₁₀
  dsimp only at h₁ h₂ h₃ h₄ h₅ h₆ h₇ h₈ h₉ h₁₀ h₁₁ h₁₂
  refine ⟨⟨year, month, day, hour, minute, second, sep, fraction, hyear, hmonth, hday, hhour,
    hminute, hsecond, ?_, hdigits, hlen⟩, ?_⟩
  · simpa using hsep
  · rw [Written.text, Written.tail, ← String.toList_inj, String.toList_ofList, fieldChars, ← h₁₂,
      ← h₁₁, ← h₁₀, ← h₉, ← h₈, ← h₇, ← h₆, ← h₅, ← h₄, ← h₃, ← h₂]
    exact h₁

/-! ## What is read -/

namespace Written

variable (w : Written)

theorem captures_tail : ∃ gs,
    Captures (opt (seq (char '.') (group 7 (between 1 6 digit)))) w.tail [] gs ∧
    gs = if w.fraction = [] then [] else [(7, String.ofList w.fraction)] := by
  refine ⟨_, ?_, rfl⟩
  rw [tail]
  by_cases hnone : w.fraction = []
  · rw [if_pos hnone, if_pos hnone]
    exact (takes_opt_nil (Fails.seq (fails_cls noHead_nil))).captures
  · rw [if_neg hnone, if_neg hnone]
    have hpos : 1 ≤ w.fraction.length := List.length_pos_iff.mpr hnone
    exact ((takes_char '.' _).captures.seq ((takes_between w.fraction_digits
      noHead_nil hpos w.fraction_length).captures.group 7)).opt

theorem length_milliseconds :
    ((w.fraction ++ List.replicate (3 - w.fraction.length) '0').take 3).length = 3 := by
  rw [List.length_take, List.length_append, List.length_replicate]
  omega

theorem exists_millisecond : ∃ ms < 1000,
    (w.fraction ++ List.replicate (3 - w.fraction.length) '0').take 3 = fixed 3 ms := by
  refine exists_fixed_of_length w.length_milliseconds fun c hc => ?_
  rcases List.mem_append.mp (List.mem_of_mem_take hc) with hc | hc
  · exact w.fraction_digits c hc
  · rw [List.eq_of_mem_replicate hc]
    decide

theorem millisecond_lt : w.millisecond < 1000 := by
  obtain ⟨ms, hms, heq⟩ := w.exists_millisecond
  rw [millisecond, heq, ofDigitChars_fixed hms]
  exact hms

theorem number_milliseconds :
    JsString.number (millisecondsText (String.ofList w.fraction)) = some w.millisecond := by
  obtain ⟨ms, hms, heq⟩ := w.exists_millisecond
  rw [millisecondsText, String.length_ofList, String.toList_ofList, millisecond, heq,
    ofDigitChars_fixed hms, number_fixed (by decide) hms]

theorem parse_text {value : String} (h : JsString.trim value = w.text) :
    parseKstDatetime value = .ok ((utc w.year ((w.month : Int) - 1) w.day w.hour w.minute w.second
      w.millisecond).bind fun time => timeClip (time - KST_OFFSET_MS)) := by
  obtain ⟨gs, hcaptures, hgs⟩ := w.captures_tail
  have hfraction : (gs.lookup 7).getD "" = String.ofList w.fraction := by
    rw [hgs]
    split
    next hnone => rw [hnone]; rfl
    next => rfl
  have hlookup (n : Nat) (hn : n < 7) : gs.lookup n = none := by
    rw [hgs]
    split
    · rfl
    · rw [List.lookup_cons, beq_eq_false_iff_ne.mpr (by omega)]
      rfl
  have htwo {n : Nat} (hn : n < 100) : JsString.number (String.ofList (fixed 2 n)) = some n :=
    number_fixed (by decide) hn
  have hyears : JsString.number (String.ofList (fixed 4 w.year)) = some w.year :=
    number_fixed (by decide) w.year_lt
  rw [parseKstDatetime, h, text, find_fieldChars w.sep_eq hcaptures]
  simp [Match.group, List.lookup_append, List.lookup_cons, hlookup, hfraction, hyears,
    htwo w.month_lt, htwo w.day_lt, htwo w.hour_lt, htwo w.minute_lt, htwo w.second_lt,
    number_milliseconds]

/-- The time value that `Date.UTC` makes of the fields. -/
def time : Int :=
  makeDate (makeDay (makeFullYear w.year) ((w.month : Int) - 1) w.day)
    (makeTime w.hour w.minute w.second w.millisecond)

theorem parse_ok {value : String} (h : JsString.trim value = w.text) {d : Int}
    (hparse : parseKstDatetime value = .ok (some d)) : d + KST_OFFSET_MS = w.time := by
  rw [w.parse_text h] at hparse
  obtain ⟨made, hmade, hclip⟩ := Option.bind_eq_some_iff.mp (Except.ok.inj hparse)
  have hmade : w.time = made := by
    rw [utc, timeClip] at hmade
    split at hmade
    · cases hmade
    · exact Option.some.inj hmade
  rw [timeClip] at hclip
  split at hclip
  · cases hclip
  · rw [hmade, ← Option.some.inj hclip]
    omega

/-- A year below 100 is read as one of the twentieth century. -/
theorem year_of_time (h : w.year < 100) : 1898 ≤ yearFromTime w.time := by
  have hyear : makeFullYear w.year = 1900 + w.year := if_pos (by omega)
  have hmillisecond := w.millisecond_lt
  have hleap := leapDays_eq (1900 + w.year + ((w.month : Int) - 1) / 12)
  have hbefore := daysBefore_mono hleap (Nat.zero_le (((w.month : Int) - 1) % 12).toNat)
  have hnone : ∀ leap, daysBefore leap 0 = 0 := fun _ => rfl
  have hyears := dayFromYear_mono (show 1899 ≤ 1900 + (w.year : Int) + ((w.month : Int) - 1) / 12 by
    omega)
  have h1898 : dayFromYear 1898 = -26297 := by decide
  have h1899 : dayFromYear 1899 = -25932 := by decide
  have hday : dayFromYear 1898 ≤ JsDate.day w.time := by
    rw [hnone] at hbefore
    rw [JsDate.day, msPerDay, time, makeDate, makeTime, msPerDay, msPerHour, msPerMinute,
      msPerSecond, makeDay, hyear]
    omega
  by_contra hlt
  have hspec := (yearOfDay_spec (JsDate.day w.time)).2
  have hmono := dayFromYear_mono (show yearFromTime w.time + 1 ≤ 1898 by omega)
  rw [yearFromTime] at hmono
  omega

theorem possible_of_names {d : Int} (hd : d + KST_OFFSET_MS = w.time) (h : w.Names d) :
    w.Possible := by
  obtain ⟨hyear, hmonth, hday, hhour, hminute, hsecond, -⟩ := h
  have hmonths := (monthFromTime_spec (d + KST_OFFSET_MS)).1
  have hdays := dateFromTime_spec (d + KST_OFFSET_MS)
  have hhours := hourFromTime_lt (d + KST_OFFSET_MS)
  have hminutes := minFromTime_lt (d + KST_OFFSET_MS)
  have hseconds := secFromTime_lt (d + KST_OFFSET_MS)
  rw [kstYear] at hyear
  have hindex : w.month - 1 = monthFromTime (d + KST_OFFSET_MS) := by omega
  constructor
  · by_contra hlow
    have htime := w.year_of_time (not_le.mp hlow)
    rw [← hd, hyear] at htime
    omega
  · omega
  · rw [← hday, hindex, ← hyear]
    exact hdays
  · omega
  · omega
  · omega

theorem makeFullYear_of_possible (h : w.Possible) : makeFullYear w.year = w.year := by
  have hyear := h.year
  exact if_neg (by omega)

theorem time_of_possible (h : w.Possible) :
    w.time = makeDate (makeDay w.year (w.month - 1 : Nat) w.day)
      (makeTime w.hour w.minute w.second w.millisecond) := by
  have hmonth := h.month
  rw [time, w.makeFullYear_of_possible h, Int.ofNat_sub hmonth.1]
  rfl

theorem time_in_range (h : w.Possible) : -maxTime + KST_OFFSET_MS ≤ w.time ∧ w.time ≤ maxTime := by
  have hmonth := h.month
  obtain ⟨hbegin, hend⟩ := makeDay_in_year (show w.month - 1 ≤ 11 by omega) h.day.1 h.day.2
  obtain ⟨hclock, hclock'⟩ := makeTime_in_day h.hour h.minute h.second w.millisecond_lt
  have hyear := h.year
  have hyears := w.year_lt
  have hfirst := dayFromYear_mono (show 100 ≤ (w.year : Int) by omega)
  have hlast := dayFromYear_mono (show (w.year : Int) + 1 ≤ 10000 by omega)
  have h100 : dayFromYear 100 = -683003 := by decide
  have h10000 : dayFromYear 10000 = 2932897 := by decide
  rw [w.time_of_possible h, makeDate, maxTime, KST_OFFSET_MS]
  rw [msPerDay] at hclock' ⊢
  omega

theorem possible_of_text_eq {v : Written} (htext : w.text = v.text) (h : v.Possible) :
    w.Possible := by
  have hfixed {n x y : Nat} {xs ys : List Char} (hx : x < 10 ^ n) (hy : y < 10 ^ n)
      (heq : fixed n x ++ xs = fixed n y ++ ys) : x = y ∧ xs = ys := by
    obtain ⟨hfields, hrest⟩ := List.append_inj heq (by rw [length_fixed, length_fixed])
    have hnumbers := congrArg (fun cs => Nat.ofDigitChars 10 cs 0) hfields
    rw [ofDigitChars_fixed hx, ofDigitChars_fixed hy] at hnumbers
    exact ⟨hnumbers, hrest⟩
  have hchars := congrArg String.toList htext
  rw [text, text, String.toList_ofList, String.toList_ofList, fieldChars, fieldChars] at hchars
  obtain ⟨hyear, hrest⟩ := hfixed w.year_lt v.year_lt hchars
  obtain ⟨hmonth, hrest⟩ := hfixed w.month_lt v.month_lt (List.cons.inj hrest).2
  obtain ⟨hday, hrest⟩ := hfixed w.day_lt v.day_lt (List.cons.inj hrest).2
  obtain ⟨hhour, hrest⟩ := hfixed w.hour_lt v.hour_lt (List.cons.inj hrest).2
  obtain ⟨hminute, hrest⟩ := hfixed w.minute_lt v.minute_lt (List.cons.inj hrest).2
  obtain ⟨hsecond, -⟩ := hfixed w.second_lt v.second_lt (List.cons.inj hrest).2
  constructor
  · rw [hyear]
    exact h.year
  · rw [hmonth]
    exact h.month
  · rw [hyear, hmonth, hday]
    exact h.day
  · rw [hhour]
    exact h.hour
  · rw [hminute]
    exact h.minute
  · rw [hsecond]
    exact h.second

theorem names_of_possible (h : w.Possible) : w.Names (w.time - KST_OFFSET_MS) := by
  have hmonth := h.month
  obtain ⟨hyear, hmonths, hday⟩ := date_made (show w.month - 1 ≤ 11 by omega) h.day.1 h.day.2
    h.hour h.minute h.second w.millisecond_lt
  obtain ⟨hhour, hminute, hsecond, hms⟩ := clock_made h.hour h.minute h.second w.millisecond_lt
    (makeDay w.year (w.month - 1 : Nat) w.day)
  rw [← w.time_of_possible h] at hyear hmonths hday hhour hminute hsecond hms
  constructor
  · rwa [kstYear, Int.sub_add_cancel]
  · rw [Int.sub_add_cancel, hmonths]
    omega
  all_goals rwa [Int.sub_add_cancel]

theorem parse_of_possible {value : String} (htext : JsString.trim value = w.text)
    (h : w.Possible) : parseKstDatetime value = .ok (some (w.time - KST_OFFSET_MS)) := by
  obtain ⟨hlow, hhigh⟩ := w.time_in_range h
  rw [KST_OFFSET_MS] at hlow
  have hmade : utc w.year ((w.month : Int) - 1) w.day w.hour w.minute w.second w.millisecond =
      some w.time := by
    rw [utc]
    show timeClip w.time = some w.time
    rw [timeClip, if_neg (by omega)]
  rw [w.parse_text htext, hmade, Option.bind_some, timeClip, if_neg (by rw [KST_OFFSET_MS]; omega)]

end Written

/-- A text is refused, or read as a date with its fields, if and only if the fields are those of a
day of the calendar and a clock in a year from 100 on, or the text has another layout. -/
theorem parseKstDatetime_exact_iff (value : String) :
    (∀ date, parseKstDatetime value = .ok date →
      ∃ w : Written, JsString.trim value = w.text ∧ ∃ d, date = some d ∧ w.Names d) ↔
      ∀ w : Written, JsString.trim value = w.text → w.Possible := by
  constructor
  · intro hexact w htext
    obtain ⟨w', htext', d, hdate, hnames⟩ := hexact _ (w.parse_text htext)
    have hd := w'.parse_ok htext' ((w.parse_text htext).trans (congrArg Except.ok hdate))
    exact w.possible_of_text_eq (htext.symm.trans htext') (w'.possible_of_names hd hnames)
  · intro hpossible date hparse
    cases hfind : find kstDatetimePattern (JsString.trim value) with
    | none =>
        rw [parseKstDatetime, hfind] at hparse
        cases hparse
    | some m =>
        obtain ⟨w, htext⟩ := exists_written hfind
        have h := hpossible w htext
        rw [w.parse_of_possible htext h] at hparse
        exact ⟨w, htext, _, (Except.ok.inj hparse).symm, w.names_of_possible h⟩

def zeroDate : Written where
  year := 0
  month := 0
  day := 0
  hour := 0
  minute := 0
  second := 0
  sep := ' '
  fraction := []
  year_lt := by decide
  month_lt := by decide
  day_lt := by decide
  hour_lt := by decide
  minute_lt := by decide
  second_lt := by decide
  sep_eq := Or.inl rfl
  fraction_digits := fun _ hc => absurd hc List.not_mem_nil
  fraction_length := Nat.zero_le 6

/-- The zero date is read as the 30th of November 1899. -/
theorem parseKstDatetime_zeroDate :
    parseKstDatetime "0000-00-00 00:00:00" = .ok (some (-2211786000000)) ∧
      ¬ ∀ value date, parseKstDatetime value = .ok date →
        ∃ w : Written, JsString.trim value = w.text ∧ ∃ d, date = some d ∧ w.Names d := by
  have htext : JsString.trim "0000-00-00 00:00:00" = zeroDate.text := by decide
  have hparse : parseKstDatetime "0000-00-00 00:00:00" = .ok (some (-2211786000000)) := by
    rw [zeroDate.parse_text htext]
    decide
  refine ⟨hparse, fun h => ?_⟩
  obtain ⟨w, hw, d, hd, hnames⟩ := h _ _ hparse
  obtain rfl := Option.some.inj hd
  have hpossible := w.possible_of_names (w.parse_ok hw hparse) hnames
  exact absurd (zeroDate.possible_of_text_eq (htext.symm.trans hw) hpossible).year (by decide)

end NestGateway.Auth
