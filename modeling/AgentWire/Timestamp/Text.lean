import AgentWire.Timestamp.Basic
import AgentWire.Json.Record

/-!
# The text of a timestamp — `YYYY-MM-DDTHH:MM:SS.mmmZ`

Twenty-four ASCII characters, every part at its full width. Reading accepts exactly what writing
produces: any other form, a date that the calendar does not have and a time that no day has are
refused, and so is a leap second, which the form could name but a timestamp cannot hold.
-/

namespace AgentWire

/-- The parts of a timestamp's text. -/
structure TimeParts where
  date : Date
  hour : Nat
  minute : Nat
  second : Nat
  milli : Nat
deriving DecidableEq, Repr

namespace TimeParts

/-- The text of the parts. -/
def render (t : TimeParts) : List Char :=
  Numeral.padded 4 t.date.year.toNat ++ '-' :: Numeral.padded 2 t.date.month ++
    '-' :: Numeral.padded 2 t.date.day ++ 'T' :: Numeral.padded 2 t.hour ++
    ':' :: Numeral.padded 2 t.minute ++ ':' :: Numeral.padded 2 t.second ++
    '.' :: Numeral.padded 3 t.milli ++ ['Z']

/-- Reads a number of exactly `width` digits. -/
def readNumber? (width : Nat) (text : List Char) : Option (Nat × List Char) :=
  let digits := text.take width
  if digits.length = width ∧ digits.all Char.isDigit then
    some (Numeral.value digits, text.drop width)
  else none

/-- Reads one given character. -/
def readMark? (mark : Char) : List Char → Option (List Char)
  | c :: rest => if c = mark then some rest else none
  | [] => none

/-- The parts that a text has, if it is of the form. -/
def read? (text : List Char) : Option TimeParts := do
  let (year, text) ← readNumber? 4 text
  let text ← readMark? '-' text
  let (month, text) ← readNumber? 2 text
  let text ← readMark? '-' text
  let (day, text) ← readNumber? 2 text
  let text ← readMark? 'T' text
  let (hour, text) ← readNumber? 2 text
  let text ← readMark? ':' text
  let (minute, text) ← readNumber? 2 text
  let text ← readMark? ':' text
  let (second, text) ← readNumber? 2 text
  let text ← readMark? '.' text
  let (milli, text) ← readNumber? 3 text
  let text ← readMark? 'Z' text
  if text = [] then some ⟨⟨year, month, day⟩, hour, minute, second, milli⟩ else none

/-- There is such a date and such a time of day; a minute may have a leap second. -/
def IsPossible (t : TimeParts) : Prop :=
  t.date.IsValid ∧ t.hour ≤ 23 ∧ t.minute ≤ 59 ∧ t.second ≤ 60

instance (t : TimeParts) : Decidable t.IsPossible := by
  unfold IsPossible; infer_instance

/-- The instant that the parts name. -/
def instant (t : TimeParts) : Instant where
  seconds := t.date.toDay * Instant.secondsPerDay +
    (t.hour * 3600 + t.minute * 60 + min t.second 59 : Nat)
  nanos := t.milli * 1_000_000 + (if t.second = 60 then 1_000_000_000 else 0)

/-- The parts of an instant; inside a leap second the second is number 60. -/
def ofInstant (i : Instant) : TimeParts where
  date := i.date
  hour := i.secondOfDay / 3600
  minute := i.secondOfDay / 60 % 60
  second := i.secondOfDay % 60 + i.nanos / 1_000_000_000
  milli := i.nanos / 1_000_000 % 1000

end TimeParts

-- ── The long form of an instant ───────────────────────────────────────────────────

/-- The year in a long form: four digits, or a sign and at least four digits outside the years
    0000 to 9999. -/
def longYear (year : Int) : List Char :=
  if 0 ≤ year ∧ year ≤ 9999 then Numeral.padded 4 year.toNat
  else Numeral.signedPadded true 4 year

/-- The fraction of a second in a long form: none, or three, six or nine digits. -/
def longFraction (nanos : Nat) : List Char :=
  if nanos = 0 then []
  else if nanos % 1_000_000 = 0 then '.' :: Numeral.padded 3 (nanos / 1_000_000)
  else if nanos % 1_000 = 0 then '.' :: Numeral.padded 6 (nanos / 1_000)
  else '.' :: Numeral.padded 9 nanos

/-- An instant in the form a diagnostic shows, which has room for every year, every nanosecond
    and leap seconds. -/
def Instant.longText (i : Instant) : String :=
  let t := TimeParts.ofInstant i
  String.ofList <|
    longYear t.date.year ++ '-' :: Numeral.padded 2 t.date.month ++
      '-' :: Numeral.padded 2 t.date.day ++ 'T' :: Numeral.padded 2 t.hour ++
      ':' :: Numeral.padded 2 t.minute ++ ':' :: Numeral.padded 2 t.second ++
      longFraction (i.nanos % 1_000_000_000) ++ ['+', '0', '0', ':', '0', '0']

namespace Timestamp

/-- The instant at which a timestamp stands. -/
def instant (t : Timestamp) : Instant where
  seconds := t.millis / 1000
  nanos := (t.millis % 1000).toNat * 1_000_000

/-- The text of a timestamp. -/
def text (t : Timestamp) : String :=
  String.ofList (TimeParts.ofInstant t.instant).render

/-- The timestamp that a text names, or why it names none. -/
def parseChars (text : List Char) : Except TimestampFault Timestamp :=
  match TimeParts.read? text with
  | none => .error .form
  | some parts =>
    if parts.IsPossible then
      match parts.instant.timestamp with
      | .ok t => .ok t
      | .error _ => .error .notRepresentable
    else .error .impossible

/-- The timestamp that a text names. -/
def parse (text : String) : Except Fault Timestamp :=
  (parseChars text.toList).mapError (.invalidTimestamp text)

/-- The timestamp of an instant. -/
def ofInstant (i : Instant) : Except Fault Timestamp :=
  i.timestamp.mapError (.invalidTimestamp i.longText)

/-- The milliseconds since 1970 for which there is an instant at all: those of the years −262143
    to 262142. -/
def HasInstant (millis : Int) : Prop :=
  -8334601228800000 ≤ millis ∧ millis ≤ 8210266876799999

instance (millis : Int) : Decidable (HasInstant millis) := by
  unfold HasInstant; infer_instance

/-- The timestamp so many milliseconds after 1970. -/
def ofMillis (millis : Int) : Except Fault Timestamp :=
  if HasInstant millis then ofInstant ⟨millis / 1000, (millis % 1000).toNat * 1_000_000⟩
  else .error (.invalidTimestamp (String.ofList (Numeral.ofInt millis)) .millisRange)

/-- A timestamp as a value: its text. -/
def toJson (t : Timestamp) : Json :=
  .string t.text

/-- Reads a timestamp from a string that is its text. -/
def decoder : Json.Decoder Timestamp :=
  Json.Decoder.text.checked fun text =>
    (parse text).mapError fun fault => .refused fault.message

end Timestamp

end AgentWire
