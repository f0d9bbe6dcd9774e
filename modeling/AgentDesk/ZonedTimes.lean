/-
# Times of a zone

An agent schedules with a timestamp that has no offset, and the runner reads it as wall-clock time of its zone:
`parseZonedToUtc` takes it for UTC, lets `Intl` say what the zone shows at that instant, makes an instant of that with
`Date.UTC`, and goes back by the difference.

`Intl` shows whole seconds and `Date.UTC` takes years below 100 for years of the twentieth century, so a fraction is
added once more and an early year is far off.

* `utc_wall`: an instant is made of what is shown at it, down to the second.
* `zoned_iff`: **when the conversion is exact**, for a zone with one offset; with an offset in the text it always is.
* `fraction_doubled`: half a second is one second late.
-/
import AgentDesk.Calendar
import AgentDesk.JsonObjects

namespace AgentDesk.ZonedTimes

open JsonText

/-! ### Dates of the language -/

def msPerDay : ℤ := 86400000

/-- The time value of a date and a time of day. -/
def utc (year : ℤ) (month day hour minute second ms : ℕ) : ℤ :=
  daysFromCivil year month day * msPerDay + (hour * 3600000 + minute * 60000 + second * 1000 + ms : ℕ)

/-- `Date.UTC`, of whole numbers that are not negative; a year below 100 is of the twentieth century. -/
def dateUTC (year month day hour minute second : ℕ) : ℤ :=
  utc (if year ≤ 99 then 1900 + year else year) month day hour minute second 0

/-- A time value, or none for an invalid date. -/
def timeClip (t : ℤ) : Option ℤ := if t.natAbs ≤ 8640000000000000 then some t else none

/-- `n` digits. -/
def takeDigits : ℕ → ℕ → Text → Option (ℕ × Text)
  | 0, value, t => some (value, t)
  | _ + 1, _, [] => none
  | n + 1, value, c :: t => (digit? c).bind fun d => takeDigits n (10 * value + d) t

def expect (c : Char) : Text → Option Text
  | [] => none
  | u :: t => if u = unit c then some t else none

/-- The milliseconds of a fraction; digits behind the third are dropped. -/
def millis (fraction : List ℕ) : ℕ := fraction.getD 0 0 * 100 + fraction.getD 1 0 * 10 + fraction.getD 2 0

/-- Seconds and milliseconds, where they are given. -/
def takeSeconds : Text → Option ((ℕ × ℕ) × Text)
  | [] => some ((0, 0), [])
  | u :: t =>
    if u = unit ':' then
      (takeDigits 2 0 t).bind fun (second, t) =>
      match t with
      | v :: t' =>
        if v = unit '.' then
          let digits := (t'.takeWhile fun c => (digit? c).isSome).filterMap digit?
          if digits = [] then none else some ((second, millis digits), t'.drop digits.length)
        else some ((second, 0), t)
      | [] => some ((second, 0), [])
    else some ((0, 0), u :: t)

/-- Minutes ahead of UTC, at the end of a text. -/
def takeOffset : Text → Option ℤ
  | [] => none
  | u :: t =>
    if u = unit 'Z' then if t = [] then some 0 else none
    else if u = unit '+' ∨ u = unit '-' then
      (takeDigits 2 0 t).bind fun (hours, t) =>
      (takeDigits 2 0 (if t.head? = some (unit ':') then t.tail else t)).bind fun (minutes, t) =>
      if t = [] ∧ hours ≤ 23 ∧ minutes ≤ 59 then
        some ((if u = unit '-' then -1 else 1) * ((hours * 60 + minutes : ℕ) : ℤ))
      else none
    else none

def daysInMonth (year : ℤ) (month : ℕ) : ℕ :=
  [31, 28, 31, 30, 31, 30, 31, 31, 30, 31, 30, 31].getD (month - 1) 0 + if month = 2 then leapDay year else 0

def ValidTime (year month day hour minute second ms : ℕ) : Prop :=
  1 ≤ month ∧ month ≤ 12 ∧ 1 ≤ day ∧ day ≤ daysInMonth year month ∧ minute ≤ 59 ∧ second ≤ 59 ∧
    (hour ≤ 23 ∨ hour = 24 ∧ minute = 0 ∧ second = 0 ∧ ms = 0)

instance (year month day hour minute second ms : ℕ) : Decidable (ValidTime year month day hour minute second ms) :=
  inferInstanceAs (Decidable (_ ∧ _))

/-- The time of a text in the date time string format with an offset; other texts are up to the engine. -/
def dateParse (t : Text) : Option ℤ := do
  let (year, t) ← takeDigits 4 0 t
  let t ← expect '-' t
  let (month, t) ← takeDigits 2 0 t
  let t ← expect '-' t
  let (day, t) ← takeDigits 2 0 t
  let t ← expect 'T' t
  let (hour, t) ← takeDigits 2 0 t
  let t ← expect ':' t
  let (minute, t) ← takeDigits 2 0 t
  let ((second, ms), t) ← takeSeconds t
  let offset ← takeOffset t
  if ValidTime year month day hour minute second ms then
    timeClip (utc year month day hour minute second ms - offset * 60000)
  else none

/-! ### Zones -/

structure Intl where
  isValidTimezone : Text → Bool
  /-- Minutes ahead of UTC, at an instant. -/
  offset : Text → ℤ → ℤ
  /-- Whether midnight is hour 24. -/
  midnight24 : Bool

structure Parts where
  year : ℕ
  month : ℕ
  day : ℕ
  hour : ℕ
  minute : ℕ
  second : ℕ

/-- What a clock with this time value shows; the year before 1 is year 1 of the other era. -/
def wallParts (midnight24 : Bool) (wall : ℤ) : Parts :=
  let (year, month, day) := civilFromDays (wall / msPerDay)
  let rest := (wall % msPerDay).toNat
  let hour := rest / 3600000
  { year := (if year ≤ 0 then 1 - year else year).toNat
    month
    day
    hour := if hour = 0 && midnight24 then 24 else hour
    minute := rest / 60000 % 60
    second := rest / 1000 % 60 }

def Intl.formatToParts (intl : Intl) (zone : Text) (t : ℤ) : Parts :=
  wallParts intl.midnight24 (t + intl.offset zone t * 60000)

def resolveTimezone (intl : Intl) (tz : Text) : Text := if intl.isValidTimezone tz then tz else ofString "UTC"

/-- `/Z$|[+-]\d{2}:?\d{2}$/`, of the units from the end. -/
def endsWithOffset (reversed : Text) : Bool :=
  match reversed with
  | c :: rest =>
    if c = unit 'Z' then true
    else match rest with
      | c' :: rest =>
        let hours := if rest.head? = some (unit ':') then rest.tail else rest
        match hours with
        | h :: h' :: sign :: _ =>
          [c, c', h, h'].all (fun d => (digit? d).isSome) && (sign = unit '+' || sign = unit '-')
        | _ => false
      | [] => false
  | [] => false

def hasOffset (input : Text) : Bool := endsWithOffset (trimText input).reverse

/-- `none` is an invalid date. -/
def parseZonedToUtc (intl : Intl) (input tz : Text) : Option ℤ :=
  if hasOffset input then dateParse input
  else
    let zone := resolveTimezone intl tz
    (dateParse (input ++ [unit 'Z'])).bind fun asIfUtc =>
    let parts := intl.formatToParts zone asIfUtc
    let hour := if parts.hour = 24 then 0 else parts.hour
    let zonedAsUtcMs := dateUTC parts.year parts.month parts.day hour parts.minute parts.second
    let offsetMs := zonedAsUtcMs - asIfUtc
    timeClip (asIfUtc - offsetMs)

/-! ### Timestamps -/

/-- `n` decimal digits. -/
def fixed : ℕ → ℕ → Text
  | 0, _ => []
  | n + 1, value => digitUnit (value / 10 ^ n % 10) :: fixed n value

/-- The digits of a fraction, where there is one. -/
def fractionText (fraction : List ℕ) : Text := if fraction = [] then [] else unit '.' :: fraction.map digitUnit

/-- A timestamp without an offset; seconds, and a fraction of them, may be left out. -/
structure NaiveStamp where
  year : ℕ
  month : ℕ
  day : ℕ
  hour : ℕ
  minute : ℕ
  seconds : Option (ℕ × List ℕ)
  yearDigits : year ≤ 9999
  fractionDigits : ∀ p ∈ seconds, ∀ d ∈ p.2, d < 10
  valid : ValidTime year month day hour minute ((seconds.map (·.1)).getD 0) (millis ((seconds.map (·.2)).getD []))

def NaiveStamp.second (s : NaiveStamp) : ℕ := (s.seconds.map (·.1)).getD 0

def NaiveStamp.ms (s : NaiveStamp) : ℕ := millis ((s.seconds.map (·.2)).getD [])

def NaiveStamp.dateText (s : NaiveStamp) : Text :=
  fixed 4 s.year ++ unit '-' :: (fixed 2 s.month ++ unit '-' :: fixed 2 s.day)

def secondsText : Option (ℕ × List ℕ) → Text
  | none => []
  | some (second, fraction) => unit ':' :: (fixed 2 second ++ fractionText fraction)

def NaiveStamp.clockText (s : NaiveStamp) : Text :=
  fixed 2 s.hour ++ unit ':' :: (fixed 2 s.minute ++ secondsText s.seconds)

def NaiveStamp.text (s : NaiveStamp) : Text := s.dateText ++ unit 'T' :: s.clockText

/-- The time value of what a clock in UTC would show. -/
def NaiveStamp.time (s : NaiveStamp) : ℤ := utc s.year s.month s.day s.hour s.minute s.second s.ms

inductive Offset where
  | utc
  | ahead (behind colon : Bool) (hours minutes : ℕ) (hhours : hours ≤ 23) (hminutes : minutes ≤ 59)

def Offset.text : Offset → Text
  | .utc => [unit 'Z']
  | .ahead behind colon hours minutes _ _ =>
    (if behind then unit '-' else unit '+') ::
      (fixed 2 hours ++ ((if colon then [unit ':'] else []) ++ fixed 2 minutes))

/-- Minutes ahead of UTC. -/
def Offset.minutes : Offset → ℤ
  | .utc => 0
  | .ahead behind _ hours minutes _ _ => (if behind then -1 else 1) * ((hours * 60 + minutes : ℕ) : ℤ)

/-! ### Reading a timestamp -/

theorem takeDigits_fixed (n value acc : ℕ) (t : Text) :
    takeDigits n acc (fixed n value ++ t) = some (acc * 10 ^ n + value % 10 ^ n, t) := by
  induction n generalizing acc with
  | zero => simp [takeDigits, fixed, Nat.mod_one]
  | succ n ih =>
    have hdigit : value / 10 ^ n % 10 < 10 := Nat.mod_lt _ (by decide)
    rw [fixed, List.cons_append, takeDigits, digit?_digitUnit _ hdigit, Option.bind_some, ih, Nat.mod_pow_succ]
    congr 2
    ring

theorem takeDigits_two {value : ℕ} (h : value < 100) (t : Text) :
    takeDigits 2 0 (fixed 2 value ++ t) = some (value, t) := by
  rw [takeDigits_fixed, Nat.mod_eq_of_lt (by omega), Nat.zero_mul, Nat.zero_add]

theorem takeDigits_four {value : ℕ} (h : value ≤ 9999) (t : Text) :
    takeDigits 4 0 (fixed 4 value ++ t) = some (value, t) := by
  rw [takeDigits_fixed, Nat.mod_eq_of_lt (by omega), Nat.zero_mul, Nat.zero_add]

theorem mem_fixed {n value : ℕ} {c : UInt16} (h : c ∈ fixed n value) : (digit? c).isSome = true := by
  induction n with
  | zero => cases h
  | succ n ih =>
    rcases List.mem_cons.mp h with rfl | h
    · rw [digit?_digitUnit _ (Nat.mod_lt _ (by decide))]
      rfl
    · exact ih h

theorem takeOffset_text (o : Offset) : takeOffset o.text = some o.minutes := by
  cases o with
  | utc => rfl
  | ahead behind colon hours minutes hhours hminutes =>
    have htail : takeDigits 2 0 (fixed 2 hours ++ ((if colon then [unit ':'] else []) ++ fixed 2 minutes)) =
        some (hours, (if colon then [unit ':'] else []) ++ fixed 2 minutes) := takeDigits_two (by omega) _
    have hcolon : (let t := (if colon then [unit ':'] else []) ++ fixed 2 minutes
        if t.head? = some (unit ':') then t.tail else t) = fixed 2 minutes := by
      cases colon with
      | true => rfl
      | false =>
        have hne : (fixed 2 minutes).head? ≠ some (unit ':') := by
          intro hhead
          exact absurd (mem_fixed (List.mem_of_head? hhead)) (by decide)
        simp [hne]
    have hminute : takeDigits 2 0 (fixed 2 minutes) = some (minutes, []) := by
      have htwo := @takeDigits_two minutes (by omega) []
      rwa [List.append_nil] at htwo
    dsimp only at hcolon
    cases behind with
    | true =>
      simp only [Offset.text, if_true, takeOffset, htail, Option.bind_some, hcolon, hminute]
      simp [hhours, hminutes, Offset.minutes, unit]
    | false =>
      simp only [Offset.text, Bool.false_eq_true, if_false, takeOffset, htail, Option.bind_some, hcolon, hminute]
      simp [hhours, hminutes, Offset.minutes, unit]

theorem offset_head (o : Offset) : ∃ u t, o.text = u :: t ∧ (u = unit 'Z' ∨ u = unit '+' ∨ u = unit '-') := by
  cases o with
  | utc => exact ⟨_, _, rfl, .inl rfl⟩
  | ahead behind colon hours minutes hhours hminutes =>
    cases behind with
    | true => exact ⟨_, _, rfl, .inr (.inr rfl)⟩
    | false => exact ⟨_, _, rfl, .inr (.inl rfl)⟩

theorem takeSeconds_text (seconds : Option (ℕ × List ℕ)) (hsecond : ∀ p ∈ seconds, p.1 ≤ 59)
    (hdigits : ∀ p ∈ seconds, ∀ d ∈ p.2, d < 10) (o : Offset) :
    takeSeconds (secondsText seconds ++ o.text) =
      some (((seconds.map (·.1)).getD 0, millis ((seconds.map (·.2)).getD [])), o.text) := by
  obtain ⟨u, t, ho, hu⟩ := offset_head o
  have hcolon : u ≠ unit ':' := by rcases hu with rfl | rfl | rfl <;> decide
  have hpoint : u ≠ unit '.' := by rcases hu with rfl | rfl | rfl <;> decide
  have hdigit : digit? u = none := by rcases hu with rfl | rfl | rfl <;> decide
  cases seconds with
  | none => simp [secondsText, ho, takeSeconds, hcolon, millis]
  | some p =>
    obtain ⟨second, fraction⟩ := p
    have hlt : second < 100 := by
      have hle := hsecond _ rfl
      dsimp only at hle
      omega
    have htake := takeDigits_two hlt (fractionText fraction ++ o.text)
    simp only [secondsText, List.cons_append, List.append_assoc, takeSeconds, if_true, htake, Option.bind_some]
    by_cases hnil : fraction = []
    · subst hnil
      simp [fractionText, ho, hpoint, millis]
    · have hfraction : ∀ d ∈ fraction, d < 10 := hdigits _ rfl
      have hunits : ∀ c ∈ fraction.map digitUnit, (digit? c).isSome = true := by
        intro c hc
        obtain ⟨d, hd, rfl⟩ := List.mem_map.mp hc
        rw [digit?_digitUnit d (hfraction d hd)]
        rfl
      have hwhile : (fraction.map digitUnit ++ o.text).takeWhile (fun c => (digit? c).isSome) =
          fraction.map digitUnit := by
        rw [List.takeWhile_append_of_pos hunits, ho, List.takeWhile_cons_of_neg (by simp [hdigit]), List.append_nil]
      have hread : (fraction.map digitUnit).filterMap digit? = fraction := by
        rw [List.filterMap_map]
        refine (List.filterMap_congr fun d hd => ?_).trans (List.filterMap_some)
        exact digit?_digitUnit d (hfraction d hd)
      have hrest : (fraction.map digitUnit ++ o.text).drop fraction.length = o.text := by
        have hlength : fraction.length = (fraction.map digitUnit).length := by rw [List.length_map]
        rw [hlength, List.drop_left]
      simp only [fractionText, if_neg hnil, List.cons_append, if_true, hwhile, hread, hrest, Option.map_some,
        Option.getD_some]

theorem daysInMonth_le (year : ℤ) {month : ℕ} (h : month ≤ 12) : daysInMonth year month ≤ 32 := by
  have hlisted : ∀ m ≤ 12, [31, 28, 31, 30, 31, 30, 31, 31, 30, 31, 30, 31].getD (m - 1) 0 ≤ 31 := by decide
  have hlength := hlisted month h
  have hleap : leapDay year ≤ 1 := by
    unfold leapDay
    split <;> omega
  unfold daysInMonth
  split <;> omega

/-- **A timestamp with an offset** is the time it denotes. -/
theorem dateParse_stamp (s : NaiveStamp) (o : Offset) :
    dateParse (s.text ++ o.text) = timeClip (s.time - o.minutes * 60000) := by
  have hvalid : ValidTime s.year s.month s.day s.hour s.minute s.second s.ms := s.valid
  obtain ⟨-, hmonth, -, hday, hminute, hsecond, hhour⟩ := hvalid
  have hday' : s.day < 100 := by
    have hle := daysInMonth_le s.year hmonth
    omega
  have hseconds : ∀ p ∈ s.seconds, p.1 ≤ 59 := by
    intro p hp
    have hp' : s.seconds = some p := hp
    simpa [NaiveStamp.second, hp'] using hsecond
  have hrest := takeSeconds_text s.seconds hseconds s.fractionDigits o
  have hyearText := takeDigits_four s.yearDigits (unit '-' :: (fixed 2 s.month ++ unit '-' :: (fixed 2 s.day ++
    unit 'T' :: (fixed 2 s.hour ++ unit ':' :: (fixed 2 s.minute ++ (secondsText s.seconds ++ o.text))))))
  have hmonthText := @takeDigits_two s.month (by omega) (unit '-' :: (fixed 2 s.day ++
    unit 'T' :: (fixed 2 s.hour ++ unit ':' :: (fixed 2 s.minute ++ (secondsText s.seconds ++ o.text)))))
  have hdayText := takeDigits_two hday' (unit 'T' :: (fixed 2 s.hour ++
    unit ':' :: (fixed 2 s.minute ++ (secondsText s.seconds ++ o.text))))
  have hhourText := @takeDigits_two s.hour (by omega) (unit ':' :: (fixed 2 s.minute ++
    (secondsText s.seconds ++ o.text)))
  have hminuteText := @takeDigits_two s.minute (by omega) (secondsText s.seconds ++ o.text)
  have htext : s.text ++ o.text = fixed 4 s.year ++ unit '-' :: (fixed 2 s.month ++ unit '-' :: (fixed 2 s.day ++
      unit 'T' :: (fixed 2 s.hour ++ unit ':' :: (fixed 2 s.minute ++ (secondsText s.seconds ++ o.text))))) := by
    simp only [NaiveStamp.text, NaiveStamp.dateText, NaiveStamp.clockText, List.append_assoc, List.cons_append]
  have hexpect : ∀ (c : Char) (t : Text), expect c (unit c :: t) = some t := fun c t => by simp [expect]
  simp only [dateParse, htext, hyearText, hmonthText, hdayText, hhourText, hminuteText, hexpect, hrest,
    takeOffset_text, Option.bind_eq_bind, Option.bind_some]
  exact if_pos s.valid

theorem dateParse_naive (s : NaiveStamp) : dateParse (s.text ++ [unit 'Z']) = timeClip s.time := by
  have hread := dateParse_stamp s .utc
  rwa [Offset.minutes, zero_mul, sub_zero] at hread

/-! ### Whether there is an offset -/

theorem endsWithOffset_split {t : Text} (h : endsWithOffset t.reverse = true) :
    t.getLast? = some (unit 'Z') ∨ ∃ pre sign tail, t = pre ++ sign :: tail ∧ (sign = unit '+' ∨ sign = unit '-') ∧
      unit 'T' ∉ tail := by
  have hdigit : ∀ {c : UInt16}, (digit? c).isSome = true → unit 'T' ≠ c := by
    rintro c hc rfl
    exact absurd hc (by decide)
  unfold endsWithOffset at h
  split at h
  · rename_i c rest hreverse
    split at h
    · rename_i hc
      refine .inl ?_
      rw [← List.head?_reverse, hreverse, hc]
      rfl
    · split at h
      · rename_i c' rest'
        dsimp only at h
        split at h
        · rename_i h₁ h₂ sign before hhours
          simp only [List.all_cons, List.all_nil, Bool.and_true, Bool.and_eq_true, Bool.or_eq_true,
            decide_eq_true_eq] at h
          obtain ⟨⟨hc, hc', hh₁, hh₂⟩, hsign⟩ := h
          have hrest : ∃ colon : Text, unit 'T' ∉ colon ∧ rest' = colon ++ (h₁ :: h₂ :: sign :: before) := by
            split at hhours
            · rename_i hhead
              refine ⟨[unit ':'], by decide, ?_⟩
              rw [← hhours]
              exact (List.cons_head?_tail hhead).symm
            · exact ⟨[], List.not_mem_nil, hhours⟩
          obtain ⟨colon, hcolon, rfl⟩ := hrest
          refine .inr ⟨before.reverse, sign, h₂ :: h₁ :: (colon.reverse ++ [c', c]), ?_, hsign, ?_⟩
          · rw [← List.reverse_reverse t, hreverse]
            simp
          · simp [hdigit hc, hdigit hc', hdigit hh₁, hdigit hh₂, hcolon]
        · cases h
      · cases h
  · cases h

/-- The units of a clock's time. -/
def ClockUnit (c : UInt16) : Prop := (digit? c).isSome = true ∨ c = unit ':' ∨ c = unit '.'

theorem clockUnit_fixed {n value : ℕ} : ∀ c ∈ fixed n value, ClockUnit c := fun _ hc => .inl (mem_fixed hc)

theorem clockUnit_text (s : NaiveStamp) : ∀ c ∈ s.clockText, ClockUnit c := by
  have hseconds : ∀ c ∈ secondsText s.seconds, ClockUnit c := by
    cases hs : s.seconds with
    | none => exact fun c hc => nomatch hc
    | some p =>
      obtain ⟨second, fraction⟩ := p
      have hfraction : ∀ c ∈ fractionText fraction, ClockUnit c := by
        unfold fractionText
        split
        · exact fun c hc => nomatch hc
        · refine List.forall_mem_cons.mpr ⟨.inr (.inr rfl), fun c hc => .inl ?_⟩
          obtain ⟨d, hd, rfl⟩ := List.mem_map.mp hc
          rw [digit?_digitUnit d (s.fractionDigits _ hs d hd)]
          rfl
      exact List.forall_mem_cons.mpr ⟨.inr (.inl rfl), List.forall_mem_append.mpr ⟨clockUnit_fixed, hfraction⟩⟩
  exact List.forall_mem_append.mpr ⟨clockUnit_fixed,
    List.forall_mem_cons.mpr ⟨.inr (.inl rfl), List.forall_mem_append.mpr ⟨clockUnit_fixed, hseconds⟩⟩⟩

theorem dateText_units (s : NaiveStamp) : ∀ c ∈ s.dateText, ClockUnit c ∨ c = unit '-' := by
  have hfixed : ∀ n value, ∀ c ∈ fixed n value, ClockUnit c ∨ c = unit '-' :=
    fun n value c hc => .inl (clockUnit_fixed c hc)
  exact List.forall_mem_append.mpr ⟨hfixed 4 _, List.forall_mem_cons.mpr ⟨.inr rfl,
    List.forall_mem_append.mpr ⟨hfixed 2 _, List.forall_mem_cons.mpr ⟨.inr rfl, hfixed 2 _⟩⟩⟩⟩

theorem text_units (s : NaiveStamp) : ∀ c ∈ s.text, ClockUnit c ∨ c = unit '-' ∨ c = unit 'T' := by
  refine List.forall_mem_append.mpr ⟨fun c hc => ?_, List.forall_mem_cons.mpr ⟨.inr (.inr rfl), fun c hc => ?_⟩⟩
  · rcases dateText_units s c hc with hclock | hdash
    · exact .inl hclock
    · exact .inr (.inl hdash)
  · exact .inl (clockUnit_text s c hc)

theorem offset_units (o : Offset) : ∀ c ∈ o.text, ClockUnit c ∨ c = unit 'Z' ∨ c = unit '+' ∨ c = unit '-' := by
  cases o with
  | utc => exact List.forall_mem_cons.mpr ⟨.inr (.inl rfl), fun c hc => nomatch hc⟩
  | ahead behind colon hours minutes hhours hminutes =>
    refine List.forall_mem_cons.mpr ⟨?_, fun c hc => .inl ?_⟩
    · cases behind with
      | true => exact .inr (.inr (.inr rfl))
      | false => exact .inr (.inr (.inl rfl))
    · rcases List.mem_append.mp hc with hc | hc
      · exact clockUnit_fixed c hc
      · rcases List.mem_append.mp hc with hc | hc
        · cases colon with
          | true => exact .inr (.inl (List.mem_singleton.mp hc))
          | false => cases hc
        · exact clockUnit_fixed c hc

theorem notSpace_of_digit {c : UInt16} (h : (digit? c).isSome = true) : isSpaceUnit c = false := by
  have hbounds : unit '0' ≤ c ∧ c ≤ unit '9' := by
    unfold digit? at h
    split at h
    · assumption
    · cases h
  have hlisted : ([0x09, 0x0a, 0x0b, 0x0c, 0x0d, 0x20, 0xa0, 0x1680, 0x2028, 0x2029, 0x202f, 0x205f, 0x3000, 0xfeff] :
      List UInt16).all (fun d => !(unit '0' ≤ d && d ≤ unit '9')) = true := by decide
  have hrange : ¬ 0x2000 ≤ c := fun hle => absurd (UInt16.le_trans hle hbounds.2) (by decide)
  unfold isSpaceUnit
  rw [Bool.or_eq_false_iff]
  refine ⟨decide_eq_false fun hmem => ?_, by simp [hrange]⟩
  have hnot := List.all_eq_true.mp hlisted c hmem
  simp [hbounds] at hnot

theorem notSpace_of_clockUnit {c : UInt16} (h : ClockUnit c) : isSpaceUnit c = false := by
  rcases h with hdigit | rfl | rfl
  · exact notSpace_of_digit hdigit
  · decide
  · decide

theorem trimText_of_noSpace {t : Text} (h : ∀ c ∈ t, isSpaceUnit c = false) : trimText t = t := by
  have hdrop : ∀ t : Text, (∀ c ∈ t, isSpaceUnit c = false) → t.dropWhile isSpaceUnit = t := by
    intro t ht
    cases t with
    | nil => rfl
    | cons c t => exact dropWhile_of_head (ht c List.mem_cons_self) t
  rw [trimText, hdrop t h, hdrop _ fun c hc => h c (List.mem_reverse.mp hc), List.reverse_reverse]

theorem hasOffset_naive (s : NaiveStamp) : hasOffset s.text = false := by
  have hspace : ∀ c ∈ s.text, isSpaceUnit c = false := by
    intro c hc
    rcases text_units s c hc with hclock | rfl | rfl
    · exact notSpace_of_clockUnit hclock
    · decide
    · decide
  have hzulu : unit 'Z' ∉ s.text := by
    intro hmem
    rcases text_units s _ hmem with hclock | hdash | htime
    · rcases hclock with hdigit | hcolon | hpoint
      · exact absurd hdigit (by decide)
      · exact absurd hcolon (by decide)
      · exact absurd hpoint (by decide)
    · exact absurd hdash (by decide)
    · exact absurd htime (by decide)
  rw [hasOffset, trimText_of_noSpace hspace]
  by_contra hends
  rcases endsWithOffset_split (by simpa using hends) with hlast | ⟨pre, sign, tail, htext, hsign, htail⟩
  · exact hzulu (List.mem_of_getLast? hlast)
  · -- the sign is behind the T, where there is none, or the T is behind the sign
    rcases List.append_eq_append_iff.mp htext with ⟨before, hpre, hclock⟩ | ⟨behind, hdate, hrest⟩
    · have hmem : sign ∈ unit 'T' :: s.clockText := by
        rw [hclock]
        simp
      rcases List.mem_cons.mp hmem with rfl | hmem
      · rcases hsign with hsign | hsign <;> exact absurd hsign (by decide)
      · rcases clockUnit_text s sign hmem with hdigit | rfl | rfl
        · rcases hsign with rfl | rfl <;> exact absurd hdigit (by decide)
        · rcases hsign with hsign | hsign <;> exact absurd hsign (by decide)
        · rcases hsign with hsign | hsign <;> exact absurd hsign (by decide)
    · have hmem : unit 'T' ∈ sign :: tail := by
        rw [hrest]
        simp
      rcases List.mem_cons.mp hmem with rfl | hmem
      · rcases hsign with hsign | hsign <;> exact absurd hsign (by decide)
      · exact htail hmem

theorem hasOffset_stamp (s : NaiveStamp) (o : Offset) : hasOffset (s.text ++ o.text) = true := by
  have hspace : ∀ c ∈ s.text ++ o.text, isSpaceUnit c = false := by
    intro c hc
    rcases List.mem_append.mp hc with hc | hc
    · rcases text_units s c hc with hclock | rfl | rfl
      · exact notSpace_of_clockUnit hclock
      · decide
      · decide
    · rcases offset_units o c hc with hclock | rfl | rfl | rfl
      · exact notSpace_of_clockUnit hclock
      · decide
      · decide
      · decide
  rw [hasOffset, trimText_of_noSpace hspace, List.reverse_append]
  cases o with
  | utc => rfl
  | ahead behind colon hours minutes hhours hminutes =>
    have hunit : ∀ n : ℕ, digitUnit (n % 10) ≠ unit 'Z' ∧ digitUnit (n % 10) ≠ unit ':' ∧
        (digit? (digitUnit (n % 10))).isSome = true := by
      have hall : ∀ d < 10, digitUnit d ≠ unit 'Z' ∧ digitUnit d ≠ unit ':' ∧ (digit? (digitUnit d)).isSome = true := by
        decide
      exact fun n => hall _ (Nat.mod_lt _ (by decide))
    have htwo : ∀ n : ℕ, fixed 2 n = [digitUnit (n / 10 % 10), digitUnit (n % 10)] := fun n => by simp [fixed]
    cases colon with
    | true =>
      cases behind <;>
        simp [Offset.text, htwo, endsWithOffset, hunit]
    | false =>
      cases behind <;>
        simp [Offset.text, htwo, endsWithOffset, hunit]

/-! ### What is shown -/

/-- The year a clock with this time value shows. -/
def wallYear (wall : ℤ) : ℤ := (civilFromDays (wall / msPerDay)).1

theorem utc_shown (midnight24 : Bool) (wall year : ℤ) :
    utc year (wallParts midnight24 wall).month (wallParts midnight24 wall).day
        (if (wallParts midnight24 wall).hour = 24 then 0 else (wallParts midnight24 wall).hour)
        (wallParts midnight24 wall).minute (wallParts midnight24 wall).second 0 =
      wall - wall % 1000 + msPerDay *
        (daysFromCivil year (wallParts midnight24 wall).month (wallParts midnight24 wall).day -
          daysFromCivil (wallYear wall) (wallParts midnight24 wall).month (wallParts midnight24 wall).day) := by
  have hdays : daysFromCivil (wallYear wall) (wallParts midnight24 wall).month (wallParts midnight24 wall).day =
      wall / msPerDay := daysFromCivil_civilFromDays _
  have hrest : (wall % msPerDay).toNat / 3600000 < 24 := by
    unfold msPerDay
    omega
  have hhour : (if (wallParts midnight24 wall).hour = 24 then 0 else (wallParts midnight24 wall).hour) =
      (wall % msPerDay).toNat / 3600000 := by
    have hshown : (wallParts midnight24 wall).hour = if (wall % msPerDay).toNat / 3600000 = 0 && midnight24 then 24
        else (wall % msPerDay).toNat / 3600000 := rfl
    by_cases hmidnight : ((wall % msPerDay).toNat / 3600000 = 0 && midnight24) = true
    · have hzero : (wall % msPerDay).toNat / 3600000 = 0 := by
        simp only [Bool.and_eq_true, decide_eq_true_eq] at hmidnight
        exact hmidnight.1
      rw [if_pos hmidnight] at hshown
      rw [if_pos hshown, hzero]
    · rw [if_neg hmidnight] at hshown
      rw [if_neg (by omega), hshown]
  have hminute : (wallParts midnight24 wall).minute = (wall % msPerDay).toNat / 60000 % 60 := rfl
  have hsecond : (wallParts midnight24 wall).second = (wall % msPerDay).toNat / 1000 % 60 := rfl
  rw [utc, hhour, hminute, hsecond, hdays]
  generalize daysFromCivil year (wallParts midnight24 wall).month (wallParts midnight24 wall).day = days
  unfold msPerDay at *
  omega

/-- **An instant is made of what is shown at it**, down to the second, from the year 100 on. -/
theorem dateUTC_shown (midnight24 : Bool) (wall : ℤ) :
    dateUTC (wallParts midnight24 wall).year (wallParts midnight24 wall).month (wallParts midnight24 wall).day
        (if (wallParts midnight24 wall).hour = 24 then 0 else (wallParts midnight24 wall).hour)
        (wallParts midnight24 wall).minute (wallParts midnight24 wall).second = wall ↔
      wall % 1000 = 0 ∧ 100 ≤ wallYear wall := by
  have hyear : (wallParts midnight24 wall).year =
      (if wallYear wall ≤ 0 then 1 - wallYear wall else wallYear wall).toNat := rfl
  rw [dateUTC, utc_shown]
  by_cases hlate : 100 ≤ wallYear wall
  · have hsame : (if (wallParts midnight24 wall).year ≤ 99 then 1900 + ((wallParts midnight24 wall).year : ℤ)
        else (wallParts midnight24 wall).year) = wallYear wall := by
      rw [hyear, if_neg (by omega), if_neg (by omega)]
      omega
    rw [hsame, sub_self, mul_zero, add_zero]
    constructor
    · intro h
      exact ⟨by omega, hlate⟩
    · intro h
      omega
  · have hother : wallYear wall < if (wallParts midnight24 wall).year ≤ 99 then
        1900 + ((wallParts midnight24 wall).year : ℤ) else (wallParts midnight24 wall).year := by
      rw [hyear]
      split <;> split <;> omega
    have hlater := daysFromCivil_lt hother (wallParts midnight24 wall).month (wallParts midnight24 wall).day
    refine iff_of_false (fun h => ?_) fun h => hlate h.2
    unfold msPerDay at h
    omega

/-! ### The conversion -/

theorem millis_lt {fraction : List ℕ} (h : ∀ d ∈ fraction, d < 10) : millis fraction < 1000 := by
  have hdigit : ∀ i, fraction.getD i 0 < 10 := by
    intro i
    cases hi : fraction[i]? with
    | none => simp [List.getD, hi]
    | some d => simpa [List.getD, hi] using h d (List.mem_of_getElem? hi)
  have hfirst := hdigit 0
  have hsecond := hdigit 1
  have hthird := hdigit 2
  unfold millis
  omega

theorem NaiveStamp.ms_lt (s : NaiveStamp) : s.ms < 1000 := by
  unfold NaiveStamp.ms
  cases hs : s.seconds with
  | none => exact millis_lt fun d hd => nomatch hd
  | some p => exact millis_lt (s.fractionDigits p hs)

theorem NaiveStamp.time_small (s : NaiveStamp) : s.time.natAbs ≤ 8000000000000000 := by
  have hvalid : ValidTime s.year s.month s.day s.hour s.minute s.second s.ms := s.valid
  obtain ⟨-, hmonth, -, hday, hminute, hsecond, hhour⟩ := hvalid
  have hyear := s.yearDigits
  have hdays := daysInMonth_le s.year hmonth
  have hbefore : daysBefore (leapYear s.year) s.month ≤ 335 := by
    have hall : ∀ leap : Bool, ∀ m ≤ 12, daysBefore leap m ≤ 335 := by decide
    exact hall _ _ hmonth
  have hms := s.ms_lt
  have hdate : (daysFromCivil s.year s.month s.day).natAbs ≤ 4000000 := by
    unfold daysFromCivil dayFromYear
    omega
  unfold NaiveStamp.time utc msPerDay
  omega

theorem NaiveStamp.time_mod (s : NaiveStamp) : s.time % 1000 = s.ms := by
  have hms := s.ms_lt
  unfold NaiveStamp.time utc msPerDay
  omega

theorem timeClip_of_le {t : ℤ} (h : t.natAbs ≤ 8640000000000000) : timeClip t = some t := if_pos h

theorem Offset.minutes_lt (o : Offset) : o.minutes.natAbs < 1440 := by
  cases o with
  | utc => decide
  | ahead behind colon hours minutes hhours hminutes =>
    cases behind with
    | true =>
      simp only [Offset.minutes, if_true]
      omega
    | false =>
      simp only [Offset.minutes, Bool.false_eq_true, if_false]
      omega

/-- **When the conversion is exact.** In a zone that is always `k` minutes ahead of UTC, a timestamp without an offset
is read as the instant at which the zone shows it exactly when it has no milliseconds and the zone shows a year from 100
on at the instant it would be in UTC; and one with an offset always as the instant it denotes. -/
theorem zoned_iff {intl : Intl} {tz : Text} {k : ℤ} (hconstant : ∀ t, intl.offset (resolveTimezone intl tz) t = k)
    (hday : k.natAbs < 1440) (s : NaiveStamp) :
    ((∃ t, parseZonedToUtc intl s.text tz = some t ∧ t + k * 60000 = s.time) ↔
      s.ms = 0 ∧ 100 ≤ wallYear (s.time + k * 60000)) ∧
    ∀ o : Offset, parseZonedToUtc intl (s.text ++ o.text) tz = some (s.time - o.minutes * 60000) := by
  have hsmall := s.time_small
  constructor
  · have hshown := dateUTC_shown intl.midnight24 (s.time + k * 60000)
    have hmod := s.time_mod
    have hparse : parseZonedToUtc intl s.text tz = timeClip (s.time - (dateUTC
        (wallParts intl.midnight24 (s.time + k * 60000)).year (wallParts intl.midnight24 (s.time + k * 60000)).month
        (wallParts intl.midnight24 (s.time + k * 60000)).day
        (if (wallParts intl.midnight24 (s.time + k * 60000)).hour = 24 then 0
          else (wallParts intl.midnight24 (s.time + k * 60000)).hour)
        (wallParts intl.midnight24 (s.time + k * 60000)).minute
        (wallParts intl.midnight24 (s.time + k * 60000)).second - s.time)) := by
      simp only [parseZonedToUtc, hasOffset_naive, Bool.false_eq_true, if_false, dateParse_naive,
        timeClip_of_le (by omega : s.time.natAbs ≤ 8640000000000000), Option.bind_some, Intl.formatToParts, hconstant]
    rw [hparse]
    generalize dateUTC _ _ _ _ _ _ = zonedAsUtcMs at hshown
    constructor
    · rintro ⟨t, ht, hwall⟩
      unfold timeClip at ht
      split at ht
      · have hexact : zonedAsUtcMs = s.time + k * 60000 := by
          have hvalue := Option.some.inj ht
          omega
        obtain ⟨hseconds, hyear⟩ := hshown.mp hexact
        exact ⟨by omega, hyear⟩
      · cases ht
    · rintro ⟨hms, hyear⟩
      have hexact := hshown.mpr ⟨by omega, hyear⟩
      exact ⟨_, timeClip_of_le (by omega), by omega⟩
  · intro o
    have hoffset := o.minutes_lt
    rw [parseZonedToUtc, hasOffset_stamp, if_pos rfl, dateParse_stamp]
    exact timeClip_of_le (by omega)

/-! ### Nine hours ahead -/

/-- A zone that is always nine hours ahead. -/
def nineAhead : Intl := ⟨fun _ => true, fun _ _ => 540, true⟩

/-- Nine o'clock, with seconds and a fraction. -/
def nineOClock (fraction : List ℕ) (h : ∀ d ∈ fraction, d < 10) : NaiveStamp where
  year := 2026
  month := 6
  day := 15
  hour := 9
  minute := 0
  seconds := some (0, fraction)
  yearDigits := by decide
  fractionDigits := by
    intro p hp
    obtain rfl := Option.some.inj hp
    exact h
  valid := ⟨by decide, by decide, by decide, by decide, by decide, Nat.zero_le _, .inl (by decide)⟩

theorem zoned_iff_nine : ∃ t,
    parseZonedToUtc nineAhead (nineOClock [] (by simp)).text (ofString "Asia/Tokyo") = some t ∧
      t + 540 * 60000 = (nineOClock [] (by simp)).time :=
  (zoned_iff (fun _ => rfl) (by decide) _).1.mpr ⟨rfl, by decide⟩

/-- **Half a second is one second late.** -/
theorem fraction_doubled : ¬ ∃ t,
    parseZonedToUtc nineAhead (nineOClock [5] (by simp)).text (ofString "Asia/Tokyo") = some t ∧
      t + 540 * 60000 = (nineOClock [5] (by simp)).time := by
  have hparse : parseZonedToUtc nineAhead (nineOClock [5] (by simp)).text (ofString "Asia/Tokyo") =
      some 1781481601000 := by decide +kernel
  rintro ⟨t, ht, hwall⟩
  obtain rfl := Option.some.inj (hparse.symm.trans ht)
  exact absurd hwall (by decide)

end AgentDesk.ZonedTimes
