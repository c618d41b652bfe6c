import OpenJobSpec.Grpc.DurationMapping

/-! # The grammar of durations

A text of a duration is made of runs of digits, each with its letter. The two
patterns read the same texts, but for a line break that only one of them allows
at the end, and both read more than the grammar has.
-/
namespace OpenJobSpec.Retry
open Grpc

/-- `\d+` -/
structure DigitRun where
  chars : List Char
  nonempty : chars ≠ []

structure TimeText where
  hours : Option DigitRun
  minutes : Option DigitRun
  seconds : Option (DigitRun × Option DigitRun)

structure DurationText where
  days : Option DigitRun
  time : Option TimeText

/-- A component with its letter, when it is there. -/
def componentChars (unit : Char) : Option DigitRun → List Char
  | none => []
  | some run => run.chars ++ [unit]

def secondsChars : Option (DigitRun × Option DigitRun) → List Char
  | none => []
  | some (whole, none) => whole.chars ++ ['S']
  | some (whole, some fraction) => whole.chars ++ '.' :: (fraction.chars ++ ['S'])

def TimeText.chars (t : TimeText) : List Char :=
  componentChars 'H' t.hours ++ (componentChars 'M' t.minutes ++ secondsChars t.seconds)

def timeChars : Option TimeText → List Char
  | none => []
  | some t => 'T' :: t.chars

def DurationText.chars (t : DurationText) : List Char :=
  'P' :: (componentChars 'D' t.days ++ timeChars t.time)

/-- Every character of a run is of a kind. -/
def DigitRun.All (p : Char → Prop) (run : DigitRun) : Prop := ∀ c ∈ run.chars, p c

structure TimeText.All (p : Char → Prop) (t : TimeText) : Prop where
  hours : ∀ run ∈ t.hours, run.All p
  minutes : ∀ run ∈ t.minutes, run.All p
  seconds : ∀ s ∈ t.seconds, s.1.All p ∧ ∀ run ∈ s.2, run.All p

structure DurationText.All (p : Char → Prop) (t : DurationText) : Prop where
  days : ∀ run ∈ t.days, run.All p
  time : ∀ time ∈ t.time, time.All p

/-- There is a component, and a component of time after a `T`. -/
structure DurationText.Filled (t : DurationText) : Prop where
  component : t.days.isSome ∨ t.time.isSome
  time : ∀ time ∈ t.time, time.hours.isSome ∨ time.minutes.isSome ∨ time.seconds.isSome

/-- The durations of the wire format: `PnDTnHnMnS`. -/
def DurationGrammar (s : String) : Prop :=
  ∃ t : DurationText, s.toList = t.chars ∧ t.All (fun c => c.isDigit) ∧ t.Filled

variable (digit : Char → Option ℕ)

def IsDecimal (c : Char) : Prop := (digit c).isSome

def runValue : Option DigitRun → ℕ
  | none => 0
  | some run => numeral (run.chars.filterMap digit)

def secondsValue : Option (DigitRun × Option DigitRun) → Decimal
  | none => ⟨0, 0⟩
  | some (whole, none) => ⟨numeral (whole.chars.filterMap digit), 0⟩
  | some (whole, some fraction) =>
    ⟨numeral (whole.chars.filterMap digit ++ fraction.chars.filterMap digit),
      -((fraction.chars.filterMap digit).length : ℤ)⟩

/-- What the groups of a match stand for. -/
def DurationText.duration (t : DurationText) : IsoDuration :=
  match t.time with
  | none => ⟨runValue digit t.days, 0, 0, ⟨0, 0⟩⟩
  | some time => ⟨runValue digit t.days, runValue digit time.hours, runValue digit time.minutes,
      secondsValue digit time.seconds⟩

def runLength : Option DigitRun → ℕ
  | none => 0
  | some run => run.chars.length

/-- The lengths of the runs of days, hours and minutes. -/
def DurationText.lengths (t : DurationText) : List ℕ :=
  [runLength t.days, runLength (t.time.bind TimeText.hours),
    runLength (t.time.bind TimeText.minutes)]

/-- A run of days, hours or minutes is longer than what `int` reads. -/
def DurationText.Long (t : DurationText) : Prop := ∃ n ∈ t.lengths, maxStrDigits < n

variable {digit}

/-! ## Runs of digits -/

theorem spanDigits_run {run rest : List Char} (hrun : ∀ c ∈ run, IsDecimal digit c)
    (hrest : ∀ c ∈ rest.head?, digit c = none) :
    spanDigits digit (run ++ rest) = (run.filterMap digit, rest) := by
  induction run with
  | nil =>
    cases rest with
    | nil => rfl
    | cons c rest =>
      rw [List.nil_append, spanDigits, hrest c rfl]
      rfl
  | cons c run ih =>
    rw [List.forall_mem_cons] at hrun
    obtain ⟨n, hn⟩ := Option.isSome_iff_exists.mp hrun.1
    rw [List.cons_append, spanDigits, hn, ih hrun.2, List.filterMap_cons_some hn]

variable (digit) in
/-- A text is the run of digits that is taken from it, and what is left. -/
theorem spanDigits_split (text : List Char) :
    ∃ run : List Char, (∀ c ∈ run, IsDecimal digit c) ∧
      text = run ++ (spanDigits digit text).2 ∧
      (spanDigits digit text).1 = run.filterMap digit := by
  induction text with
  | nil => exact ⟨[], List.forall_mem_nil _, rfl, rfl⟩
  | cons c text ih =>
    cases hc : digit c with
    | none =>
      refine ⟨[], List.forall_mem_nil _, ?_, ?_⟩
      · rw [spanDigits, hc]
        rfl
      · rw [spanDigits, hc]
        rfl
    | some n =>
      obtain ⟨run, hrun, htext, hdigits⟩ := ih
      refine ⟨c :: run, List.forall_mem_cons.mpr ⟨?_, hrun⟩, ?_, ?_⟩
      · rw [IsDecimal, hc]
        rfl
      · rw [spanDigits, hc]
        exact congrArg (c :: ·) htext
      · rw [spanDigits, hc, List.filterMap_cons_some hc]
        exact congrArg (n :: ·) hdigits

/-- When digits are taken, the run is not empty. -/
theorem spanDigits_cons {text : List Char} {n : ℕ} {ns : List ℕ} {rest : List Char}
    (h : spanDigits digit text = (n :: ns, rest)) :
    ∃ run : DigitRun, run.All (IsDecimal digit) ∧ text = run.chars ++ rest ∧
      n :: ns = run.chars.filterMap digit := by
  obtain ⟨run, hrun, htext, hdigits⟩ := spanDigits_split digit text
  rw [h] at htext hdigits
  refine ⟨⟨run, ?_⟩, hrun, htext, hdigits⟩
  rintro rfl
  cases hdigits

/-! ## What is read -/

variable (digit) in
theorem component_spec (unit : Char) (text : List Char) :
    ∃ run : Option DigitRun, (∀ r ∈ run, r.All (IsDecimal digit)) ∧
      text = componentChars unit run ++ (component digit unit text).2 ∧
      (component digit unit text).1 = runValue digit run := by
  have hskip : ∃ run : Option DigitRun, (∀ r ∈ run, r.All (IsDecimal digit)) ∧
      text = componentChars unit run ++ (0, text).2 ∧ ((0, text) : ℕ × List Char).1 =
        runValue digit run := ⟨none, nofun, rfl, rfl⟩
  unfold component
  split
  next d ds c rest hspan =>
    by_cases hc : c = unit
    · rw [if_pos hc]
      obtain ⟨run, hall, htext, hdigits⟩ := spanDigits_cons hspan
      refine ⟨some run, ?_, ?_, ?_⟩
      · rintro _ ⟨⟩
        exact hall
      · rw [htext, componentChars, List.append_assoc, hc]
        rfl
      · rw [runValue, ← hdigits]
    · rw [if_neg hc]
      exact hskip
  next => exact hskip

variable (digit) in
theorem secondsComponent_spec (text : List Char) :
    ∃ seconds : Option (DigitRun × Option DigitRun),
      (∀ s ∈ seconds, s.1.All (IsDecimal digit) ∧ ∀ run ∈ s.2, run.All (IsDecimal digit)) ∧
      text = secondsChars seconds ++ (secondsComponent digit text).2 ∧
      (secondsComponent digit text).1 = secondsValue digit seconds := by
  have hskip : ∃ seconds : Option (DigitRun × Option DigitRun),
      (∀ s ∈ seconds, s.1.All (IsDecimal digit) ∧ ∀ run ∈ s.2, run.All (IsDecimal digit)) ∧
      text = secondsChars seconds ++ ((⟨0, 0⟩, text) : Decimal × List Char).2 ∧
      ((⟨0, 0⟩, text) : Decimal × List Char).1 = secondsValue digit seconds :=
    ⟨none, nofun, rfl, rfl⟩
  unfold secondsComponent
  split
  next d ds rest hspan =>
    obtain ⟨whole, hall, htext, hdigits⟩ := spanDigits_cons hspan
    refine ⟨some (whole, none), ?_, ?_, ?_⟩
    · rintro _ ⟨⟩
      exact ⟨hall, nofun⟩
    · rw [htext, secondsChars, List.append_assoc]
      rfl
    · rw [secondsValue, ← hdigits]
  next d ds fraction hspan =>
    obtain ⟨whole, hall, htext, hdigits⟩ := spanDigits_cons hspan
    split
    next f fs rest hspan' =>
      obtain ⟨run, hall', htext', hdigits'⟩ := spanDigits_cons hspan'
      refine ⟨some (whole, some run), ?_, ?_, ?_⟩
      · rintro _ ⟨⟩
        refine ⟨hall, ?_⟩
        rintro _ ⟨⟩
        exact hall'
      · rw [htext, htext', secondsChars]
        simp
      · rw [secondsValue, ← hdigits, ← hdigits']
    next => exact hskip
  next => exact hskip

/-- A text that is accepted is one of a duration, whose groups are read. -/
theorem text_of_parse {s : String} {d : IsoDuration} (h : parseIsoDuration digit s = some d) :
    ∃ t : DurationText, s.toList = t.chars ∧ t.All (IsDecimal digit) ∧ d = t.duration digit := by
  unfold parseIsoDuration at h
  split at h
  next afterP hs =>
    obtain ⟨days, hdays, hafter, hvalue⟩ := component_spec digit 'D' afterP
    dsimp only at h
    rw [hs]
    split at h
    next hrest =>
      cases h
      refine ⟨⟨days, none⟩, ?_, ⟨hdays, nofun⟩, ?_⟩
      · rw [hafter, hrest]
        rfl
      · rw [hvalue]
        rfl
    next time hrest =>
      obtain ⟨hours, hhours, htime, hhoursValue⟩ := component_spec digit 'H' time
      obtain ⟨minutes, hminutes, htime', hminutesValue⟩ :=
        component_spec digit 'M' (component digit 'H' time).2
      obtain ⟨seconds, hseconds, htime'', hsecondsValue⟩ := secondsComponent_spec digit
        (component digit 'M' (component digit 'H' time).2).2
      split at h
      next hend =>
        cases h
        refine ⟨⟨days, some ⟨hours, minutes, seconds⟩⟩, ?_, ⟨hdays, ?_⟩, ?_⟩
        · rw [hend, List.append_nil] at htime''
          rw [hafter, hrest, htime, htime', htime'']
          rfl
        · rintro _ ⟨⟩
          exact ⟨hhours, hminutes, hseconds⟩
        · rw [hvalue, hhoursValue, hminutesValue, hsecondsValue]
          rfl
      next => cases h
    next => cases h
  next => cases h

/-! ## What a text is read as -/

theorem numeral_run {run : DigitRun} (hall : run.All (IsDecimal digit)) {rest : List Char}
    (hrest : ∀ c ∈ rest.head?, digit c = none) :
    ∃ n ns, spanDigits digit (run.chars ++ rest) = (n :: ns, rest) ∧
      n :: ns = run.chars.filterMap digit := by
  have hspan := spanDigits_run hall hrest
  cases hdigits : run.chars.filterMap digit with
  | nil =>
    obtain ⟨c, hc⟩ := List.exists_mem_of_ne_nil _ run.nonempty
    have hnone := List.filterMap_eq_nil_iff.mp hdigits c hc
    have hsome := hall c hc
    rw [IsDecimal, hnone] at hsome
    cases hsome
  | cons n ns =>
    rw [hdigits] at hspan
    exact ⟨n, ns, hspan, rfl⟩

theorem component_some {unit : Char} (hunit : digit unit = none) {run : DigitRun}
    (hall : run.All (IsDecimal digit)) (rest : List Char) :
    component digit unit (componentChars unit (some run) ++ rest) =
      (runValue digit (some run), rest) := by
  have htext : componentChars unit (some run) ++ rest = run.chars ++ unit :: rest := by
    rw [componentChars, List.append_assoc]
    rfl
  have hhead : ∀ c ∈ (unit :: rest).head?, digit c = none := by
    rintro _ ⟨⟩
    exact hunit
  obtain ⟨n, ns, hspan, hdigits⟩ := numeral_run hall hhead
  rw [htext, component, hspan]
  dsimp only
  rw [if_pos rfl, runValue, ← hdigits]

/-- Another letter, or none, after the digits: the component is not there. -/
theorem component_none {unit : Char} {text : List Char}
    (h : (spanDigits digit text).2.head? ≠ some unit) : component digit unit text = (0, text) := by
  unfold component
  split
  next d ds c rest hspan =>
    rw [hspan] at h
    exact if_neg fun hc => h (congrArg some hc)
  next => rfl

/-- The letter after the digits of a text that begins with a component, or has none. -/
theorem span_componentChars {unit : Char} (hunit : digit unit = none) {run : Option DigitRun}
    (hall : ∀ r ∈ run, r.All (IsDecimal digit)) (rest : List Char) :
    (run = none ∧ componentChars unit run ++ rest = rest) ∨
      (spanDigits digit (componentChars unit run ++ rest)).2.head? = some unit := by
  cases run with
  | none => exact .inl ⟨rfl, rfl⟩
  | some run =>
    right
    have hhead : ∀ c ∈ (unit :: rest).head?, digit c = none := by
      rintro _ ⟨⟩
      exact hunit
    rw [componentChars, List.append_assoc]
    change (spanDigits digit (run.chars ++ unit :: rest)).2.head? = some unit
    rw [spanDigits_run (hall run rfl) hhead]
    rfl

theorem span_secondsChars (hdigit : AsciiDigits digit)
    {seconds : Option (DigitRun × Option DigitRun)}
    (hall : ∀ s ∈ seconds, s.1.All (IsDecimal digit) ∧ ∀ run ∈ s.2, run.All (IsDecimal digit)) :
    (spanDigits digit (secondsChars seconds)).2.head? ∈ [none, some 'S', some '.'] := by
  rcases seconds with _ | ⟨whole, _ | fraction⟩
  · exact List.mem_cons_self
  · have hends := hdigit.head_none (c := 'S') (by decide) (by decide) []
    rw [secondsChars, spanDigits_run (hall _ rfl).1 hends]
    exact List.mem_cons_of_mem _ List.mem_cons_self
  · have hpoint := hdigit.head_none (c := '.') (by decide) (by decide) (fraction.chars ++ ['S'])
    rw [secondsChars, spanDigits_run (hall _ rfl).1 hpoint]
    exact List.mem_cons_of_mem _ (List.mem_cons_of_mem _ List.mem_cons_self)

theorem secondsComponent_chars (hdigit : AsciiDigits digit)
    {seconds : Option (DigitRun × Option DigitRun)}
    (hall : ∀ s ∈ seconds, s.1.All (IsDecimal digit) ∧ ∀ run ∈ s.2, run.All (IsDecimal digit)) :
    secondsComponent digit (secondsChars seconds) = (secondsValue digit seconds, []) := by
  have hends := hdigit.head_none (c := 'S') (by decide) (by decide) []
  rcases seconds with _ | ⟨whole, _ | fraction⟩
  · rfl
  · have hwhole : whole.All (IsDecimal digit) := (hall _ rfl).1
    obtain ⟨n, ns, hspan, hdigits⟩ := numeral_run hwhole hends
    rw [secondsChars, secondsComponent, hspan, secondsValue, ← hdigits]
    rfl
  · have hwhole : whole.All (IsDecimal digit) := (hall _ rfl).1
    have hfraction : fraction.All (IsDecimal digit) := (hall _ rfl).2 _ rfl
    have hpoint := hdigit.head_none (c := '.') (by decide) (by decide) (fraction.chars ++ ['S'])
    obtain ⟨n, ns, hspan, hdigits⟩ := numeral_run hwhole hpoint
    obtain ⟨f, fs, hspan', hdigits'⟩ := numeral_run hfraction hends
    rw [secondsChars, secondsComponent, hspan, secondsValue, ← hdigits, ← hdigits']
    simp only [hspan']

/-- A component that is there or not, before a text with another letter after its digits. -/
theorem component_chars {unit : Char} (hunit : digit unit = none) {run : Option DigitRun}
    (hrun : ∀ r ∈ run, r.All (IsDecimal digit)) {rest : List Char}
    (hrest : (spanDigits digit rest).2.head? ≠ some unit) :
    component digit unit (componentChars unit run ++ rest) = (runValue digit run, rest) := by
  cases run with
  | none => exact component_none hrest
  | some run => exact component_some hunit (hrun run rfl) rest

/-- What each component takes of a text. -/
structure Components (digit : Char → Option ℕ) (t : DurationText) : Prop where
  days : component digit 'D' (componentChars 'D' t.days ++ timeChars t.time) =
    (runValue digit t.days, timeChars t.time)
  hours : ∀ time ∈ t.time, component digit 'H' time.chars =
    (runValue digit time.hours, componentChars 'M' time.minutes ++ secondsChars time.seconds)
  minutes : ∀ time ∈ t.time,
    component digit 'M' (componentChars 'M' time.minutes ++ secondsChars time.seconds) =
      (runValue digit time.minutes, secondsChars time.seconds)

theorem components_chars (hdigit : AsciiDigits digit) {t : DurationText}
    (hall : t.All (IsDecimal digit)) : Components digit t := by
  have hletter : ∀ c : Char, c.toNat < 128 → c.isDigit = false → digit c = none :=
    fun _ => hdigit.digit_none
  have hunitM := hletter 'M' (by decide) (by decide)
  have hother : ∀ time ∈ t.time, ∀ unit : Char, some unit ∉ [none, some 'S', some '.'] →
      (spanDigits digit (secondsChars time.seconds)).2.head? ≠ some unit :=
    fun time htime unit hunit heq =>
      hunit (heq ▸ span_secondsChars hdigit (hall.time time htime).seconds)
  refine ⟨?_, fun time htime => ?_, fun time htime => ?_⟩
  · apply component_chars (hletter 'D' (by decide) (by decide)) hall.days
    cases t.time with
    | none => nofun
    | some time =>
      rw [timeChars, spanDigits, hletter 'T' (by decide) (by decide)]
      change some 'T' ≠ some 'D'
      decide
  · apply component_chars (hletter 'H' (by decide) (by decide)) (hall.time time htime).hours
    rcases span_componentChars hunitM (hall.time time htime).minutes (secondsChars time.seconds)
      with ⟨-, hnone⟩ | hsome
    · rw [hnone]
      exact hother time htime 'H' (by decide)
    · rw [hsome]
      decide
  · exact component_chars hunitM (hall.time time htime).minutes (hother time htime 'M' (by decide))

theorem parse_chars (hdigit : AsciiDigits digit) {t : DurationText} (hall : t.All (IsDecimal digit))
    {s : String} (hs : s.toList = t.chars) :
    parseIsoDuration digit s = some (t.duration digit) := by
  have hparts := components_chars hdigit hall
  rw [parseIsoDuration, hs]
  simp only [DurationText.chars, hparts.days]
  obtain ⟨days, time⟩ := t
  cases time with
  | none => rfl
  | some time =>
    have hsecond := secondsComponent_chars hdigit (hall.time time rfl).seconds
    simp only [timeChars, hparts.hours time rfl, hparts.minutes time rfl, hsecond, if_true]
    rfl

theorem length_componentChars (unit : Char) (run : Option DigitRun) (rest : List Char) :
    (componentChars unit run ++ rest).length - rest.length - 1 = runLength run := by
  cases run with
  | none =>
    change rest.length - rest.length - 1 = 0
    omega
  | some run =>
    rw [componentChars, List.length_append, List.length_append, List.length_singleton, runLength]
    omega

/-- The groups of a text are its runs. -/
theorem groupLengths_chars (hdigit : AsciiDigits digit) {t : DurationText}
    (hall : t.All (IsDecimal digit)) {s : String} (hs : s.toList = t.chars) :
    groupLengths digit s = t.lengths := by
  have hparts := components_chars hdigit hall
  rw [groupLengths, hs]
  simp only [DurationText.chars, hparts.days, length_componentChars, DurationText.lengths]
  obtain ⟨days, time⟩ := t
  cases time with
  | none => rfl
  | some time =>
    have htime : time.chars =
        componentChars 'H' time.hours ++ (componentChars 'M' time.minutes ++
          secondsChars time.seconds) := rfl
    simp only [timeChars, List.tail_cons, hparts.hours time rfl, hparts.minutes time rfl]
    rw [htime, length_componentChars, length_componentChars]
    rfl

/-- The texts that are accepted, and what they are read as. -/
theorem parse_eq_some_iff (hdigit : AsciiDigits digit) {s : String} {d : IsoDuration} :
    parseIsoDuration digit s = some d ↔
      ∃ t : DurationText, s.toList = t.chars ∧ t.All (IsDecimal digit) ∧ d = t.duration digit := by
  constructor
  · exact text_of_parse
  · rintro ⟨t, hs, hall, rfl⟩
    exact parse_chars hdigit hall hs

/-! ## The characters of a text -/

theorem mem_componentChars {unit c : Char} {run : Option DigitRun} :
    c ∈ componentChars unit run ↔ ∃ r ∈ run, c ∈ r.chars ∨ c = unit := by
  cases run with
  | none => simp [componentChars]
  | some run => simp [componentChars]

theorem mem_secondsChars {c : Char} {seconds : Option (DigitRun × Option DigitRun)} :
    c ∈ secondsChars seconds ↔ ∃ s ∈ seconds, c ∈ s.1.chars ∨ c = 'S' ∨
      ∃ run ∈ s.2, c = '.' ∨ c ∈ run.chars := by
  rcases seconds with _ | ⟨whole, _ | fraction⟩
  · simp [secondsChars]
  · simp [secondsChars]
  · simp only [secondsChars, List.mem_append, List.mem_cons, Option.mem_some_iff,
      exists_eq_left', List.not_mem_nil, or_false]
    tauto

theorem mem_chars {c : Char} {t : DurationText} :
    c ∈ t.chars ↔ c = 'P' ∨ c ∈ componentChars 'D' t.days ∨ ∃ time ∈ t.time, c = 'T' ∨
      c ∈ componentChars 'H' time.hours ∨ c ∈ componentChars 'M' time.minutes ∨
      c ∈ secondsChars time.seconds := by
  rcases t with ⟨days, _ | time⟩
  · simp [DurationText.chars, timeChars]
  · simp [DurationText.chars, timeChars, TimeText.chars]

/-- The letters of a duration, and the point. -/
def letters : List Char := ['P', 'T', 'D', 'H', 'M', 'S', '.']

theorem letters_no_digit :
    letters.all (fun c => decide (c.toNat < 128) && !c.isDigit) = true := by
  decide

theorem chars_of_all {p : Char → Prop} {t : DurationText} (hall : t.All p) {c : Char}
    (hc : c ∈ t.chars) : c ∈ letters ∨ p c := by
  have hcomponent : ∀ (unit : Char) (run : Option DigitRun), unit ∈ letters →
      (∀ r ∈ run, r.All p) → c ∈ componentChars unit run → c ∈ letters ∨ p c := by
    intro unit run hunit hrun hmem
    obtain ⟨r, hr, hdigit | rfl⟩ := mem_componentChars.mp hmem
    · exact .inr (hrun r hr c hdigit)
    · exact .inl hunit
  rcases mem_chars.mp hc with rfl | hday | ⟨time, htime, rfl | hhour | hminute | hsecond⟩
  · exact .inl (by decide)
  · exact hcomponent 'D' t.days (by decide) hall.days hday
  · exact .inl (by decide)
  · exact hcomponent 'H' time.hours (by decide) (hall.time time htime).hours hhour
  · exact hcomponent 'M' time.minutes (by decide) (hall.time time htime).minutes hminute
  · have hseconds := (hall.time time htime).seconds
    obtain ⟨s, hs, hwhole | rfl | ⟨run, hrun, rfl | hfraction⟩⟩ := mem_secondsChars.mp hsecond
    · exact .inr ((hseconds s hs).1 c hwhole)
    · exact .inl (by decide)
    · exact .inl (by decide)
    · exact .inr ((hseconds s hs).2 run hrun c hfraction)

theorem DurationText.All.imp {p q : Char → Prop} {t : DurationText} (hall : t.All p)
    (h : ∀ c ∈ t.chars, p c → q c) : t.All q := by
  refine ⟨fun run hrun c hc => ?_, fun time htime => ?_⟩
  · have hmem : c ∈ componentChars 'D' t.days := mem_componentChars.mpr ⟨run, hrun, .inl hc⟩
    exact h c (mem_chars.mpr (.inr (.inl hmem))) (hall.days run hrun c hc)
  · have hmem : ∀ c, c ∈ componentChars 'H' time.hours ∨ c ∈ componentChars 'M' time.minutes ∨
        c ∈ secondsChars time.seconds → c ∈ t.chars := fun c hc =>
      mem_chars.mpr (.inr (.inr ⟨time, htime, .inr hc⟩))
    obtain ⟨hhours, hminutes, hseconds⟩ := hall.time time htime
    refine ⟨fun run hrun c hc => ?_, fun run hrun c hc => ?_, fun s hs => ⟨fun c hc => ?_,
      fun run hrun c hc => ?_⟩⟩
    · exact h c (hmem c (.inl (mem_componentChars.mpr ⟨run, hrun, .inl hc⟩))) (hhours run hrun c hc)
    · exact h c (hmem c (.inr (.inl (mem_componentChars.mpr ⟨run, hrun, .inl hc⟩))))
        (hminutes run hrun c hc)
    · exact h c (hmem c (.inr (.inr (mem_secondsChars.mpr ⟨s, hs, .inl hc⟩))))
        ((hseconds s hs).1 c hc)
    · exact h c (hmem c (.inr (.inr (mem_secondsChars.mpr
        ⟨s, hs, .inr (.inr ⟨run, hrun, .inr hc⟩)⟩)))) ((hseconds s hs).2 run hrun c hc)

theorem getLast_componentChars (unit : Char) (run : DigitRun) :
    (componentChars unit (some run)).getLast? = some unit := by
  simp [componentChars]

theorem getLast_secondsChars (s : DigitRun × Option DigitRun) :
    (secondsChars (some s)).getLast? = some 'S' := by
  obtain ⟨whole, _ | fraction⟩ := s
  · exact List.getLast?_concat
  · have htext : secondsChars (some (whole, some fraction)) =
        (whole.chars ++ '.' :: fraction.chars) ++ ['S'] := by simp [secondsChars]
    rw [htext, List.getLast?_concat]

theorem getLast_timeText (time : TimeText) : time.chars.getLast? =
    (secondsChars time.seconds).getLast?.or ((componentChars 'M' time.minutes).getLast?.or
      (componentChars 'H' time.hours).getLast?) := by
  rw [TimeText.chars, List.getLast?_append, List.getLast?_append, Option.or_assoc]

/-- A filled text ends with a unit, any other one with the `P` or the `T`. -/
theorem filled_iff_last {t : DurationText} :
    t.Filled ↔ t.chars.getLast? ∈ [some 'D', some 'H', some 'M', some 'S'] := by
  obtain ⟨days, time⟩ := t
  rw [DurationText.chars, List.getLast?_cons, List.getLast?_append]
  cases time with
  | none =>
    cases days with
    | none =>
      refine iff_of_false ?_ (by simp [timeChars, componentChars])
      rintro ⟨h | h, -⟩ <;> cases h
    | some run =>
      refine iff_of_true ⟨.inl rfl, nofun⟩ ?_
      simp [timeChars, getLast_componentChars]
  | some time =>
    obtain ⟨hours, minutes, seconds⟩ := time
    rw [timeChars, List.getLast?_cons, getLast_timeText]
    rcases seconds with _ | s
    · rcases minutes with _ | m
      · rcases hours with _ | h
        · refine iff_of_false ?_ (by simp [secondsChars, componentChars])
          rintro ⟨-, h⟩
          rcases h _ rfl with h | h | h <;> cases h
        · refine iff_of_true ⟨.inr rfl, ?_⟩ (by simp [secondsChars, componentChars])
          rintro _ ⟨⟩
          exact .inl rfl
      · refine iff_of_true ⟨.inr rfl, ?_⟩ (by simp [secondsChars, getLast_componentChars])
        rintro _ ⟨⟩
        exact .inr (.inl rfl)
    · refine iff_of_true ⟨.inr rfl, ?_⟩ (by simp [getLast_secondsChars])
      rintro _ ⟨⟩
      exact .inr (.inr rfl)

end OpenJobSpec.Retry
