import OpenJobSpec.Retry.DurationGrammar

/-! # The two parsers of durations

One reads the intervals of local retries, the other one those of requests. They
are written with one pattern, and used through different matching functions; and
only one of them reads numbers with `int`, which has a limit of digits.
-/
namespace OpenJobSpec.Retry
open Grpc ExceptRules

/-- A `ValueError`. -/
def Rejects {α : Type} (x : Except Exn α) : Prop :=
  ∃ message, x = .error (.builtin .valueError message)

variable {digit : Char → Option ℕ}

theorem newline_not_mem (hdigit : AsciiDigits digit) {t : DurationText}
    (hall : t.All (IsDecimal digit)) : '\n' ∉ t.chars := by
  intro hmem
  rcases chars_of_all hall hmem with hletter | hdecimal
  · exact absurd hletter (by decide)
  · rw [IsDecimal, hdigit.digit_none (by decide) (by decide)] at hdecimal
    cases hdecimal

/-- `$` lets a line break follow. -/
theorem matchDuration_eq_some_iff (hdigit : AsciiDigits digit) {s : String} {d : IsoDuration} :
    matchDuration digit s = some d ↔
      ∃ (t : DurationText) (lineBreak : List Char), s.toList = t.chars ++ lineBreak ∧
        (lineBreak = [] ∨ lineBreak = ['\n']) ∧ t.All (IsDecimal digit) ∧
        d = t.duration digit := by
  rw [matchDuration, parse_eq_some_iff hdigit, withoutFinalNewline]
  by_cases hlast : s.toList.getLast? = some '\n'
  · obtain ⟨init, hinit⟩ := List.getLast?_eq_some_iff.mp hlast
    rw [if_pos hlast, hinit, List.dropLast_concat, String.toList_ofList]
    constructor
    · rintro ⟨t, ht, hall, hd⟩
      exact ⟨t, ['\n'], by rw [ht], .inr rfl, hall, hd⟩
    · rintro ⟨t, lineBreak, ht, rfl | rfl, hall, hd⟩
      · have hmem : '\n' ∈ t.chars := by
          rw [List.append_nil] at ht
          rw [← ht]
          exact List.mem_append_right _ List.mem_cons_self
        exact absurd hmem (newline_not_mem hdigit hall)
      · exact ⟨t, List.append_cancel_right ht, hall, hd⟩
  · rw [if_neg hlast]
    constructor
    · rintro ⟨t, ht, hall, hd⟩
      exact ⟨t, [], by rw [ht, List.append_nil], .inl rfl, hall, hd⟩
    · rintro ⟨t, lineBreak, ht, rfl | rfl, hall, hd⟩
      · exact ⟨t, by rw [ht, List.append_nil], hall, hd⟩
      · rw [ht, List.getLast?_concat] at hlast
        exact absurd rfl hlast

theorem toList_withoutFinalNewline (hdigit : AsciiDigits digit) {s : String} {t : DurationText}
    {lineBreak : List Char} (hs : s.toList = t.chars ++ lineBreak)
    (hbreak : lineBreak = [] ∨ lineBreak = ['\n']) (hall : t.All (IsDecimal digit)) :
    (withoutFinalNewline s).toList = t.chars := by
  rw [withoutFinalNewline]
  rcases hbreak with rfl | rfl
  · rw [List.append_nil] at hs
    rw [if_neg, hs]
    intro hlast
    rw [hs] at hlast
    exact newline_not_mem hdigit hall (List.mem_of_getLast? hlast)
  · rw [if_pos (by rw [hs, List.getLast?_concat]), hs, List.dropLast_concat, String.toList_ofList]

/-- A text is read with `int` when none of its runs is long. -/
theorem intDigits_iff (hdigit : AsciiDigits digit) {s : String} {t : DurationText}
    {lineBreak : List Char} (hs : s.toList = t.chars ++ lineBreak)
    (hbreak : lineBreak = [] ∨ lineBreak = ['\n']) (hall : t.All (IsDecimal digit)) :
    IntDigits digit s ↔ ¬ t.Long := by
  unfold IntDigits DurationText.Long
  rw [groupLengths_chars hdigit hall (toList_withoutFinalNewline hdigit hs hbreak hall)]
  push Not
  rfl

theorem rejects_local_iff {s : String} :
    Rejects (parseIso8601Duration digit s) ↔
      matchDuration digit s = none ∨ ¬ IntDigits digit s := by
  cases hmatch : matchDuration digit s with
  | none =>
    refine iff_of_true ⟨"Invalid ISO 8601 duration: " ++ Text.repr s, ?_⟩ (.inl rfl)
    rw [parseIso8601Duration, hmatch]
  | some d =>
    by_cases hdigits : IntDigits digit s
    · refine iff_of_false ?_ ?_
      · rintro ⟨message, h⟩
        by_cases hsmall : wholeSeconds d < Number.floatLimit
        · rw [(parse_cases hmatch hdigits).1 hsmall] at h
          cases h
        · rw [(parse_cases hmatch hdigits).2 hsmall] at h
          cases h
      · rintro (hnone | hlong)
        · cases hnone
        · exact hlong hdigits
    · exact iff_of_true (parse_of_long hmatch hdigits) (.inr hdigits)

theorem rejects_request_iff {s : String} :
    Rejects (isoDurationToProtobuf digit s) ↔ parseIsoDuration digit s = none := by
  rw [isoDurationToProtobuf]
  cases parseIsoDuration digit s with
  | none => exact iff_of_true ⟨_, rfl⟩ rfl
  | some d =>
    refine iff_of_false ?_ (Option.some_ne_none d)
    rintro ⟨message, h⟩
    cases h

/-- What the two parsers should have in common on a text. -/
structure ParsersAgree (digit : Char → Option ℕ) (s : String) : Prop where
  both : Rejects (parseIso8601Duration digit s) ↔ Rejects (isoDurationToProtobuf digit s)
  grammar : ¬ Rejects (parseIso8601Duration digit s) ↔ DurationGrammar s
  /-- one number of seconds, when no arithmetic overflows or rounds -/
  seconds : ¬ Rejects (parseIso8601Duration digit s) → ∃ (d : IsoDuration) (seconds : ℚ),
    parseIsoDuration digit s = some d ∧ d.exact = seconds ∧
      (∀ q, parseIso8601Duration digit s = .ok q → q = seconds) ∧
      (∀ text, isoDurationToProtobuf digit s = .ok text → d.Unrounded →
        ∃ total : Decimal, text = decimalDuration total ∧ total.value = seconds)

/-- A text that is read as a duration. It has a run that is too long, and no line break at its end;
or it has no such run, but a line break at its end, a digit that is no ASCII digit, no component at
all, or no component after its `T`. -/
def OddDuration (digit : Char → Option ℕ) (s : String) : Prop :=
  ∃ (t : DurationText) (lineBreak : List Char), s.toList = t.chars ++ lineBreak ∧
    (lineBreak = [] ∨ lineBreak = ['\n']) ∧ t.All (IsDecimal digit) ∧
    (t.Long ∧ lineBreak = [] ∨
      ¬ t.Long ∧ (lineBreak = ['\n'] ∨ ¬ t.All (fun c => c.isDigit) ∨ ¬ t.Filled))

theorem decimal_of_ascii (hdigit : AsciiDigits digit) {t : DurationText}
    (h : t.All (fun c => c.isDigit)) : t.All (IsDecimal digit) := by
  apply h.imp
  intro c _ hc
  rw [IsDecimal, hdigit.digit_some hc]
  rfl

/-- One text has one reading, as far as the grammar is concerned. -/
theorem regular_of_grammar (hdigit : AsciiDigits digit) {s : String} (h : DurationGrammar s)
    {t : DurationText} {lineBreak : List Char} (hs : s.toList = t.chars ++ lineBreak)
    (hbreak : lineBreak = [] ∨ lineBreak = ['\n']) (hall : t.All (IsDecimal digit)) :
    lineBreak = [] ∧ t.All (fun c => c.isDigit) ∧ t.Filled := by
  obtain ⟨t', hs', hascii, hfilled⟩ := h
  have hnone : lineBreak = [] := by
    rcases hbreak with hnone | rfl
    · exact hnone
    · have hmem : '\n' ∈ t'.chars := by
        rw [← hs', hs]
        exact List.mem_append_right _ List.mem_cons_self
      exact absurd hmem (newline_not_mem hdigit (decimal_of_ascii hdigit hascii))
  rw [hnone, List.append_nil] at hs
  have hsame : t.chars = t'.chars := hs.symm.trans hs'
  refine ⟨hnone, ?_, ?_⟩
  · -- a decimal digit of the text is one of the other reading, so an ASCII digit
    apply hall.imp
    intro c hc hdecimal
    rw [hsame] at hc
    rcases chars_of_all hascii hc with hletter | hc
    · have hnot := List.all_eq_true.mp letters_no_digit c hletter
      rw [Bool.and_eq_true, decide_eq_true_eq, Bool.not_eq_true'] at hnot
      rw [IsDecimal, hdigit.digit_none hnot.1 hnot.2] at hdecimal
      cases hdecimal
    · exact hc
  · rw [filled_iff_last, hsame, ← filled_iff_last]
    exact hfilled

theorem inSeconds_eq (d : IsoDuration) : inSeconds d = d.exact := by
  rw [inSeconds, wholeSeconds, IsoDuration.exact]
  push_cast
  rfl

theorem not_agree_of_odd (hdigit : AsciiDigits digit) {s : String} (hodd : OddDuration digit s) :
    ¬ ParsersAgree digit s := by
  rintro ⟨hboth, hgrammar, -⟩
  obtain ⟨t, lineBreak, hs, hbreak, hall, ⟨hlong, rfl⟩ | ⟨hshort, hodd⟩⟩ := hodd
  · have hlocal : Rejects (parseIso8601Duration digit s) :=
      rejects_local_iff.mpr (.inr fun h => (intDigits_iff hdigit hs hbreak hall).mp h hlong)
    have hnone := rejects_request_iff.mp (hboth.mp hlocal)
    rw [List.append_nil] at hs
    rw [parse_chars hdigit hall hs] at hnone
    cases hnone
  have hmatch := (matchDuration_eq_some_iff hdigit).mpr ⟨t, lineBreak, hs, hbreak, hall, rfl⟩
  have haccepted : ¬ Rejects (parseIso8601Duration digit s) := by
    rw [rejects_local_iff, hmatch]
    rintro (hnone | hlong)
    · cases hnone
    · exact hlong ((intDigits_iff hdigit hs hbreak hall).mpr hshort)
  obtain ⟨hnone, hascii, hfilled⟩ :=
    regular_of_grammar hdigit (hgrammar.mp haccepted) hs hbreak hall
  rcases hodd with hline | hforeign | hempty
  · rw [hnone] at hline
    cases hline
  · exact hforeign hascii
  · exact hempty hfilled

theorem agree_of_rejected (hdigit : AsciiDigits digit) {s : String}
    (hlocal : Rejects (parseIso8601Duration digit s)) (hparse : parseIsoDuration digit s = none) :
    ParsersAgree digit s := by
  refine ⟨iff_of_true hlocal (rejects_request_iff.mpr hparse), ?_, absurd hlocal⟩
  refine iff_of_false (not_not.mpr hlocal) ?_
  rintro ⟨t, hs, hascii, -⟩
  have hsome := (parse_eq_some_iff hdigit).mpr ⟨t, hs, decimal_of_ascii hdigit hascii, rfl⟩
  rw [hparse] at hsome
  cases hsome

theorem agree_of_unmatched (hdigit : AsciiDigits digit) {s : String}
    (hmatch : matchDuration digit s = none) : ParsersAgree digit s := by
  apply agree_of_rejected hdigit (rejects_local_iff.mpr (.inl hmatch))
  rw [Option.eq_none_iff_forall_ne_some]
  intro d hd
  obtain ⟨t, hs, hall, rfl⟩ := (parse_eq_some_iff hdigit).mp hd
  have hsome := (matchDuration_eq_some_iff hdigit).mpr
    ⟨t, [], by rw [hs, List.append_nil], .inl rfl, hall, rfl⟩
  rw [hmatch] at hsome
  cases hsome

/-- A run that is too long for one parser, before a line break that the other does not read. -/
theorem agree_of_long (hdigit : AsciiDigits digit) {s : String} {t : DurationText}
    (hs : s.toList = t.chars ++ ['\n']) (hall : t.All (IsDecimal digit)) (hlong : t.Long) :
    ParsersAgree digit s := by
  apply agree_of_rejected hdigit
  · exact rejects_local_iff.mpr
      (.inr fun h => (intDigits_iff hdigit hs (.inr rfl) hall).mp h hlong)
  · rw [Option.eq_none_iff_forall_ne_some]
    intro d hd
    obtain ⟨t', hs', hall', -⟩ := (parse_eq_some_iff hdigit).mp hd
    have hmem : '\n' ∈ t'.chars := by
      rw [← hs', hs]
      exact List.mem_append_right _ List.mem_cons_self
    exact newline_not_mem hdigit hall' hmem

theorem agree_of_grammar (hdigit : AsciiDigits digit) {s : String} {t : DurationText}
    (hs : s.toList = t.chars) (hascii : t.All (fun c => c.isDigit)) (hfilled : t.Filled)
    (hshort : ¬ t.Long) : ParsersAgree digit s := by
  have hall := decimal_of_ascii hdigit hascii
  have hdigits : IntDigits digit s :=
    (intDigits_iff hdigit (hs.trans (List.append_nil _).symm) (.inl rfl) hall).mpr hshort
  have hparse := (parse_eq_some_iff hdigit).mpr ⟨t, hs, hall, rfl⟩
  have hmatch := (matchDuration_eq_some_iff hdigit).mpr
    ⟨t, [], by rw [hs, List.append_nil], .inl rfl, hall, rfl⟩
  have hlocal : ¬ Rejects (parseIso8601Duration digit s) := by
    rw [rejects_local_iff, hmatch]
    rintro (hnone | hlong)
    · cases hnone
    · exact hlong hdigits
  have hrequest : ¬ Rejects (isoDurationToProtobuf digit s) := by
    rw [rejects_request_iff, hparse]
    nofun
  refine ⟨iff_of_false hlocal hrequest, iff_of_true hlocal ⟨t, hs, hascii, hfilled⟩,
    fun _ => ⟨t.duration digit, _, hparse, rfl, ?_, ?_⟩⟩
  · intro q hq
    by_cases hsmall : wholeSeconds (t.duration digit) < Number.floatLimit
    · rw [(parse_cases hmatch hdigits).1 hsmall] at hq
      rw [← Except.ok.inj hq, inSeconds_eq]
    · rw [(parse_cases hmatch hdigits).2 hsmall] at hq
      cases hq
  · intro text htext hunrounded
    rw [isoDurationToProtobuf, hparse] at htext
    exact ⟨_, (Except.ok.inj htext).symm, IsoDuration.total_value hunrounded⟩

/-- The two parsers are one on every text that is not odd, and on no odd one. -/
theorem parsers_agree_iff (hdigit : AsciiDigits digit) (s : String) :
    ParsersAgree digit s ↔ ¬ OddDuration digit s := by
  constructor
  · exact fun hagree hodd => not_agree_of_odd hdigit hodd hagree
  · intro hregular
    cases hmatch : matchDuration digit s with
    | none => exact agree_of_unmatched hdigit hmatch
    | some d =>
      obtain ⟨t, lineBreak, hs, hbreak, hall, -⟩ := (matchDuration_eq_some_iff hdigit).mp hmatch
      by_cases hlong : t.Long
      · rcases hbreak with hnone | rfl
        · exact absurd ⟨t, lineBreak, hs, .inl hnone, hall, .inl ⟨hlong, hnone⟩⟩ hregular
        · exact agree_of_long hdigit hs hall hlong
      have hnone : lineBreak = [] := by
        rcases hbreak with hnone | hline
        · exact hnone
        · exact absurd ⟨t, lineBreak, hs, .inr hline, hall, .inr ⟨hlong, .inl hline⟩⟩ hregular
      have hascii : t.All (fun c => c.isDigit) := by
        by_contra hforeign
        exact hregular ⟨t, lineBreak, hs, hbreak, hall, .inr ⟨hlong, .inr (.inl hforeign)⟩⟩
      have hfilled : t.Filled := by
        by_contra hempty
        exact hregular ⟨t, lineBreak, hs, hbreak, hall, .inr ⟨hlong, .inr (.inr hempty)⟩⟩
      rw [hnone, List.append_nil] at hs
      exact agree_of_grammar hdigit hs hascii hfilled hlong

theorem half_days_agree :
    ParsersAgree asciiDigit "P1DT12H" ↔ ¬ OddDuration asciiDigit "P1DT12H" :=
  parsers_agree_iff asciiDigits "P1DT12H"

/-- The ASCII digits, and the ten digits of the Arabic script. -/
def arabicDigit (c : Char) : Option ℕ :=
  if c.isDigit then some (c.toNat - 48)
  else if 1632 ≤ c.toNat ∧ c.toNat ≤ 1641 then some (c.toNat - 1632) else none

theorem asciiDigits_arabicDigit : AsciiDigits arabicDigit := by
  intro c hc
  rw [arabicDigit, if_neg (by omega : ¬ (1632 ≤ c.toNat ∧ c.toNat ≤ 1641))]

/-- A text with one run of digits, in the seconds. -/
def oneSecond (c : Char) : DurationText := ⟨none, some ⟨none, none, some (⟨[c], nofun⟩, none)⟩⟩

theorem oneSecond_all {p : Char → Prop} {c : Char} (h : p c) : (oneSecond c).All p := by
  refine ⟨nofun, ?_⟩
  rintro _ ⟨⟩
  refine ⟨nofun, nofun, ?_⟩
  rintro _ ⟨⟩
  exact ⟨List.forall_mem_singleton.mpr h, nofun⟩

theorem oneSecond_short (c : Char) : ¬ (oneSecond c).Long := by
  rintro ⟨n, hn, hlong⟩
  have hzero : n = 0 := by simpa [DurationText.lengths, oneSecond, runLength] using hn
  omega

/-- A day, written with zeros before it. -/
def paddedDay (zeros : ℕ) : DurationText :=
  ⟨some ⟨List.replicate zeros '0' ++ ['1'], by simp⟩, none⟩

/-- As many zeros as `int` reads make a day odd. -/
theorem paddedDay_odd {zeros : ℕ} (h : maxStrDigits ≤ zeros) :
    OddDuration asciiDigit (String.ofList ('P' :: List.replicate zeros '0' ++ ['1', 'D'])) := by
  refine ⟨paddedDay zeros, [], ?_, .inl rfl, ⟨?_, nofun⟩, .inl ⟨⟨zeros + 1, ?_, ?_⟩, rfl⟩⟩
  · simp [paddedDay, DurationText.chars, componentChars, timeChars]
  · rintro _ ⟨⟩ c hc
    rcases List.mem_append.mp hc with hzero | hone
    · rw [List.eq_of_mem_replicate hzero]
      rfl
    · rw [List.mem_singleton.mp hone]
      rfl
  · simp [paddedDay, DurationText.lengths, runLength]
  · omega

theorem odd_durations_disagree :
    ¬ ParsersAgree asciiDigit "PT1S\n" ∧ ¬ ParsersAgree arabicDigit "PT١S" ∧
      ¬ ParsersAgree asciiDigit "P" ∧ ¬ ParsersAgree asciiDigit "P1DT" ∧
      ¬ ParsersAgree asciiDigit (String.ofList ('P' :: List.replicate 4300 '0' ++ ['1', 'D'])) := by
  refine ⟨not_agree_of_odd asciiDigits ?_, not_agree_of_odd asciiDigits_arabicDigit ?_,
    not_agree_of_odd asciiDigits ?_, not_agree_of_odd asciiDigits ?_,
    not_agree_of_odd asciiDigits ?_⟩
  · exact ⟨oneSecond '1', ['\n'], by decide, .inr rfl, oneSecond_all rfl,
      .inr ⟨oneSecond_short '1', .inl rfl⟩⟩
  · refine ⟨oneSecond '١', [], by decide, .inl rfl, oneSecond_all rfl,
      .inr ⟨oneSecond_short '١', .inr (.inl ?_)⟩⟩
    intro hascii
    cases ((hascii.time _ rfl).seconds _ rfl).1 '١' (by decide)
  · refine ⟨⟨none, none⟩, [], by decide, .inl rfl, ⟨?_, ?_⟩, .inr ⟨?_, .inr (.inr ?_)⟩⟩
    · rintro _ ⟨⟩
    · rintro _ ⟨⟩
    · rintro ⟨n, hn, hlong⟩
      have hzero : n = 0 := by simpa [DurationText.lengths, runLength] using hn
      omega
    · rw [filled_iff_last]
      decide
  · refine ⟨⟨some ⟨['1'], List.cons_ne_nil _ _⟩, some ⟨none, none, none⟩⟩, [], by decide, .inl rfl,
      ⟨?_, ?_⟩, .inr ⟨?_, .inr (.inr ?_)⟩⟩
    · rintro _ ⟨⟩
      exact List.forall_mem_singleton.mpr rfl
    · rintro _ ⟨⟩
      refine ⟨?_, ?_, ?_⟩ <;> rintro _ ⟨⟩
    · rintro ⟨n, hn, hlong⟩
      have hone : n = 1 ∨ n = 0 := by simpa [DurationText.lengths, runLength] using hn
      unfold maxStrDigits at hlong
      omega
    · rw [filled_iff_last]
      decide
  · exact paddedDay_odd (le_refl maxStrDigits)

end OpenJobSpec.Retry
