/-
**Dates and moments of time as they are written.**

The Gregorian calendar is taken to hold for all years from 1 to 9999.

* `Date`, `Date.of?`: a year, a month and a day, if the calendar has them;
* `Date.iso`: the date as `2020-01-02`;
* `Date.dayNumber`: the days before the date, from the first day of year 1;
* `Timestamp`: a date with a time of day and, perhaps, the offset of its time zone;
* `Timestamp.text`: the moment with a given character between date and time;
* `Timestamp.listing`: the moment as a call with its parts;
* `Timestamp.alike`: two moments with offsets are alike when they are the same instant;
* `readWritten?`, `Written.moment?`: the numbers of a notation, and the moment that they denote.
-/

import RamlInterfaces.Number.Digits

namespace RamlInterfaces

/-! ### Dates -/

/-- A year is a leap year when four divides it, except for centuries that 400 does not divide. -/
def isLeapYear (year : Nat) : Bool := year % 4 == 0 && (year % 100 != 0 || year % 400 == 0)

/-- The number of days of a month. -/
def daysInMonth (year month : Nat) : Nat :=
  if month = 2 then if isLeapYear year then 29 else 28
  else if month = 4 ∨ month = 6 ∨ month = 9 ∨ month = 11 then 30
  else 31

/-- A date of the Gregorian calendar. -/
structure Date where
  year : Nat
  month : Nat
  day : Nat
deriving DecidableEq, Repr

namespace Date

/-- The calendar has a day of this number in this month of this year. -/
def Exists (year month day : Nat) : Prop :=
  1 ≤ year ∧ year ≤ 9999 ∧ 1 ≤ month ∧ month ≤ 12 ∧ 1 ≤ day ∧ day ≤ daysInMonth year month

instance (year month day : Nat) : Decidable (Exists year month day) := by
  unfold Exists
  infer_instance

/-- The date of the three numbers, if the calendar has it. -/
def of? (year month day : Nat) : Option Date :=
  if Exists year month day then some ⟨year, month, day⟩ else none

/-- The date in digits, from the year down. -/
def iso (d : Date) : List Char :=
  Number.padded 4 d.year ++ '-' :: Number.padded 2 d.month ++ '-' :: Number.padded 2 d.day

/-- The days of a year before a month begins. -/
def daysBeforeMonth (year month : Nat) : Nat :=
  (List.range (month - 1)).foldl (fun days earlier => days + daysInMonth year (earlier + 1)) 0

/-- The days from the first day of year 1 to the date. -/
def dayNumber (d : Date) : Nat :=
  let years := d.year - 1
  years * 365 + years / 4 - years / 100 + years / 400 + daysBeforeMonth d.year d.month +
    (d.day - 1)

end Date

/-! ### Moments -/

/-- A date with a time of day; `offset` is the lead of the time zone in seconds. -/
structure Timestamp where
  date : Date
  hour : Nat
  minute : Nat
  second : Nat
  microsecond : Nat
  offset : Option Int
deriving DecidableEq, Repr

namespace Timestamp

open Number

/-- The offset as a sign, hours and minutes, with seconds where they are not zero. -/
def offsetText (offset : Int) : List Char :=
  let size := offset.natAbs
  let seconds := size % 60
  (if offset < 0 then '-' else '+') :: padded 2 (size / 3600) ++ ':' :: padded 2 (size / 60 % 60) ++
    if seconds = 0 then [] else ':' :: padded 2 seconds

/-- The moment in digits, with the given character between date and time. -/
def text (separator : Char) (t : Timestamp) : List Char :=
  t.date.iso ++ separator :: padded 2 t.hour ++ ':' :: padded 2 t.minute ++ ':' ::
    padded 2 t.second ++
    (if t.microsecond = 0 then [] else '.' :: padded 6 t.microsecond) ++
    (t.offset.map offsetText).getD []

/-- The parts of a duration in days and seconds. -/
def durationListing (seconds : Int) : String :=
  let days := seconds / 86400
  let rest := seconds % 86400
  let parts :=
    (if days = 0 then [] else ["days=" ++ String.ofList (decimalInt days)]) ++
      (if rest = 0 then [] else ["seconds=" ++ String.ofList (decimalInt rest)])
  "datetime.timedelta(" ++ (if parts.isEmpty then "0" else ", ".intercalate parts) ++ ")"

/-- The parts of the moment between parentheses; a second and a microsecond of zero are left out
at the end. -/
def listing (t : Timestamp) : String :=
  let clock :=
    if t.microsecond ≠ 0 then [t.hour, t.minute, t.second, t.microsecond]
    else if t.second ≠ 0 then [t.hour, t.minute, t.second]
    else [t.hour, t.minute]
  let parts := ([t.date.year, t.date.month, t.date.day] ++ clock).map (String.ofList ∘ decimal)
  let zone := match t.offset with
    | none => []
    | some 0 => ["tzinfo=datetime.timezone.utc"]
    | some offset => ["tzinfo=datetime.timezone(" ++ durationListing offset ++ ")"]
  "datetime.datetime(" ++ ", ".intercalate (parts ++ zone) ++ ")"

/-- The seconds from the first instant of year 1 on the clock that the moment shows. -/
def clockSeconds (t : Timestamp) : Int :=
  (t.date.dayNumber * 86400 + t.hour * 3600 + t.minute * 60 + t.second : Nat)

/-- Two moments are alike when both show the same clock, or both have an offset and are the same
instant. -/
def alike (first second : Timestamp) : Bool :=
  match first.offset, second.offset with
  | none, none => first == second
  | some a, some b =>
    first.clockSeconds - a == second.clockSeconds - b && first.microsecond == second.microsecond
  | _, _ => false

@[simp] theorem alike_refl (t : Timestamp) : t.alike t = true := by
  cases offset : t.offset <;> simp [alike, offset]

end Timestamp

/-- A date as a call with its parts. -/
def Date.listing (d : Date) : String :=
  let parts := [d.year, d.month, d.day].map (String.ofList ∘ Number.decimal)
  "datetime.date(" ++ ", ".intercalate parts ++ ")"

namespace Timestamp

open Number

/-- The numbers written in the notation of a date or a moment. -/
structure Written where
  year : Nat
  month : Nat
  day : Nat
  clock : Option (Nat × Nat × Nat × Nat)
  offset : Option Int
deriving DecidableEq, Repr

/-- A number of at least `least` and at most `most` digits at the start of a text. -/
def takeNumber? (least most : Nat) (cs : List Char) : Option (Nat × List Char) :=
  let digits := (cs.take most).takeWhile Char.isDigit
  if digits.length < least then none
  else (ofDigits? 10 digits).map fun n => (n, cs.drop digits.length)

/-- The rest of a text after a character it must start with. -/
def afterChar? (c : Char) : List Char → Option (List Char)
  | first :: rest => if first = c then some rest else none
  | [] => none

/-- A space or a tab. -/
def isInlineBlank (c : Char) : Bool := c == ' ' || c == '\t'

/-- The microseconds of a decimal fraction, cut after six digits. -/
def microseconds (digits : List Char) : Nat :=
  let six := digits.take 6
  ((ofDigits? 10 (six ++ List.replicate (6 - six.length) '0')).getD 0)

/-- The offset at the end of a notation: nothing, `Z`, or a sign with hours and perhaps minutes. -/
def readOffset? (cs : List Char) : Option (Option Int) :=
  match cs with
  | [] => some none
  | ['Z'] => some (some 0)
  | sign :: rest =>
    if sign = '+' ∨ sign = '-' then
      match takeNumber? 1 2 rest with
      | none => none
      | some (hours, rest) =>
        let minutes := match rest with
          | [] => some 0
          | _ => ((afterChar? ':' rest).bind (takeNumber? 2 2)).bind fun (minutes, rest) =>
            if rest.isEmpty then some minutes else none
        minutes.map fun minutes =>
          let size : Int := (hours * 3600 + minutes * 60 : Nat)
          some (if sign = '-' then -size else size)
    else none

/-- The clock and the offset that follow the date in the notation of a moment. -/
def readClock? (cs : List Char) : Option ((Nat × Nat × Nat × Nat) × Option Int) := do
  let (hour, rest) ← takeNumber? 1 2 cs
  let (minute, rest) ← (afterChar? ':' rest).bind (takeNumber? 2 2)
  let (second, rest) ← (afterChar? ':' rest).bind (takeNumber? 2 2)
  let (fraction, rest) := match rest with
    | '.' :: rest => (rest.takeWhile Char.isDigit, rest.dropWhile Char.isDigit)
    | _ => ([], rest)
  let blanks := rest.takeWhile isInlineBlank
  let zone := rest.dropWhile isInlineBlank
  if zone.isEmpty && !blanks.isEmpty then none
  else
    let offset ← readOffset? zone
    pure ((hour, minute, second, microseconds fraction), offset)

/-- The numbers of a text in the notation of a date or a moment. -/
def readWritten? (cs : List Char) : Option Written := do
  let (year, rest) ← takeNumber? 4 4 cs
  let (month, rest) ← (afterChar? '-' rest).bind (takeNumber? 1 2)
  let (day, rest) ← (afterChar? '-' rest).bind (takeNumber? 1 2)
  match rest with
  | [] => pure ⟨year, month, day, none, none⟩
  | separator :: after =>
    let time ←
      if separator = 'T' ∨ separator = 't' then some after
      else if isInlineBlank separator then some (after.dropWhile isInlineBlank)
      else none
    let (clock, offset) ← readClock? time
    pure ⟨year, month, day, some clock, offset⟩

/-- The moment that the written numbers denote, if there is one. -/
def Written.moment? (w : Written) (clock : Nat × Nat × Nat × Nat) : Option Timestamp := do
  let date ← Date.of? w.year w.month w.day
  let (hour, minute, second, microsecond) := clock
  let zoned := match w.offset with
    | some offset => offset.natAbs < 86400
    | none => true
  if hour < 24 && minute < 60 && second < 60 && zoned then
    some ⟨date, hour, minute, second, microsecond, w.offset⟩
  else none

end Timestamp

end RamlInterfaces
