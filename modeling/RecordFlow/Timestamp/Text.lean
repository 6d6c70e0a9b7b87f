import RecordFlow.Binary64.Basic
import RecordFlow.Text.Blank
import RecordFlow.Timestamp.Basic

/-!
# Timestamps as text

`Timestamp.text` writes the ISO 8601 form, `2021-03-04T05:06:07.250` with a fraction of three, six
or nine digits where it is needed. Three readers go the other way. `readStored` takes the written
form back. `parseIso?` takes what people write: a date, a date and a time with or without seconds,
or a date and a time with an offset, which is normalized away. The lenient forms are described by
lists of `PatternItem`s; the one with an offset has fields of a fixed width.
-/

namespace RecordFlow.Timestamp

/-! ### Writing -/

def padded (width n : Nat) : List Char :=
  let digits := Nat.toDigits 10 n
  List.replicate (width - digits.length) '0' ++ digits

/-- A year with at least four digits; only years of exactly four digits go without a sign. -/
def yearText (year : Int) : List Char :=
  if 0 ≤ year && year ≤ 9999 then padded 4 year.toNat
  else (if year < 0 then '-' else '+') :: padded 4 year.natAbs

/-- The part of a second below the point, in as few groups of three digits as it needs. -/
def fractionText (nanosecond : Nat) : List Char :=
  if nanosecond = 0 then []
  else if nanosecond % 1000000 = 0 then '.' :: padded 3 (nanosecond / 1000000)
  else if nanosecond % 1000 = 0 then '.' :: padded 6 (nanosecond / 1000)
  else '.' :: padded 9 nanosecond

/-- The ISO 8601 form. A leap second is written as the second behind its own: as second sixty at the
end of a minute, and inside a minute like the next second. -/
def chars (t : Timestamp) : List Char :=
  let leap := 1000000000 ≤ t.time.nanosecond
  yearText t.date.year ++ '-' :: padded 2 t.date.month ++ '-' :: padded 2 t.date.day ++
    'T' :: padded 2 t.time.hour ++ ':' :: padded 2 t.time.minute ++
    ':' :: padded 2 (if leap then t.time.second + 1 else t.time.second) ++
    fractionText (t.time.nanosecond % 1000000000)

def text (t : Timestamp) : String :=
  String.ofList t.chars

/-! ### Numbers -/

/-- The number in front of a text, of at most `most` digits, and the rest. -/
def takeNumber (most : Nat) (cs : List Char) : Option (Nat × List Char) :=
  let digits := (cs.take most).takeWhile Char.isDigit
  if digits.isEmpty then none
  else some (Nat.ofDigitChars 10 digits 0, cs.drop digits.length)

/-- The number of exactly `width` digits in front of a text, and the rest. -/
def takeFixed (width : Nat) (cs : List Char) : Option (Nat × List Char) :=
  let digits := (cs.take width).takeWhile Char.isDigit
  if digits.length = width then some (Nat.ofDigitChars 10 digits 0, cs.drop width) else none

/-- The fraction of a second in front of a text, in nanoseconds, and the rest. Nine digits count,
further ones are passed over. -/
def takeFraction (cs : List Char) : Option (Nat × List Char) :=
  let digits := (cs.take 9).takeWhile Char.isDigit
  if digits.isEmpty then none
  else some (Nat.ofDigitChars 10 digits 0 * 10 ^ (9 - digits.length), cs.dropWhile Char.isDigit)

/-- One character, and the rest. -/
def takeChar (c : Char) : List Char → Option (List Char)
  | [] => none
  | d :: rest => if c = d then some rest else none

/-! ### Patterns -/

/-- The fields that a text fills in. What it leaves out is zero. -/
structure Fields where
  year : Int := 0
  month : Nat := 0
  day : Nat := 0
  hour : Nat := 0
  minute : Nat := 0
  second : Nat := 0
  nanosecond : Nat := 0

/-- The timestamp with these fields, if there is one. -/
def Fields.timestamp? (f : Fields) : Option Timestamp :=
  ofFields? f.year f.month f.day f.hour f.minute f.second f.nanosecond

/-- A part of a lenient form. -/
inductive PatternItem where
  /-- The year: up to four digits, or any number of digits behind a sign. -/
  | year
  /-- A field of up to two digits. -/
  | field (set : Fields → Nat → Fields)
  /-- A point and the fraction of a second; both may be missing. -/
  | fraction
  /-- One given character. -/
  | literal (c : Char)
  /-- Any white space, also none. -/
  | blanks

/-- Reads one part; a number may stand behind white space. -/
def PatternItem.read (f : Fields) (cs : List Char) : PatternItem → Option (Fields × List Char)
  | .year =>
    match Text.trimStart cs with
    | '-' :: rest =>
      (takeNumber rest.length rest).map fun (n, rest) => ({ f with year := -n }, rest)
    | '+' :: rest => (takeNumber rest.length rest).map fun (n, rest) => ({ f with year := n }, rest)
    | rest => (takeNumber 4 rest).map fun (n, rest) => ({ f with year := n }, rest)
  | .field set => (takeNumber 2 (Text.trimStart cs)).map fun (n, rest) => (set f n, rest)
  | .fraction =>
    match cs with
    | '.' :: rest => (takeFraction rest).map fun (n, rest) => ({ f with nanosecond := n }, rest)
    | _ => some (f, cs)
  | .literal c => (takeChar c cs).map fun rest => (f, rest)
  | .blanks => some (f, Text.trimStart cs)

/-- Reads a whole text part by part; nothing may be left over. -/
def readPattern : List PatternItem → Fields → List Char → Option Fields
  | [], f, cs => if cs.isEmpty then some f else none
  | item :: items, f, cs => do
    let (f, rest) ← item.read f cs
    readPattern items f rest

/-- The timestamp that a text of some form stands for. -/
def ofPattern? (items : List PatternItem) (cs : List Char) : Option Timestamp :=
  (readPattern items {} cs).bind Fields.timestamp?

namespace PatternItem

def month : PatternItem := .field fun f n => { f with month := n }
def day : PatternItem := .field fun f n => { f with day := n }
def hour : PatternItem := .field fun f n => { f with hour := n }
def minute : PatternItem := .field fun f n => { f with minute := n }
def second : PatternItem := .field fun f n => { f with second := n }

end PatternItem

/-- A date: `2021-03-04`. -/
def datePattern : List PatternItem :=
  [.year, .literal '-', .month, .literal '-', .day]

/-- The hour and the minute: `05:06`. -/
def minutePattern : List PatternItem :=
  [.hour, .literal ':', .minute]

/-- A full time: `05:06:07.25`. -/
def secondPattern : List PatternItem :=
  minutePattern ++ [.literal ':', .second, .fraction]

/-- The forms of a date and a time without an offset, in the order in which they are tried. -/
def dateTimePatterns : List (List PatternItem) :=
  [datePattern ++ .literal 'T' :: secondPattern,
    datePattern ++ .blanks :: secondPattern,
    datePattern ++ .literal 'T' :: minutePattern,
    datePattern ++ .blanks :: minutePattern]

/-- The stored form: that of `chars`, with white space allowed around its parts. -/
def storedPattern : List PatternItem :=
  [.year, .blanks, .literal '-', .month, .blanks, .literal '-', .day, .blanks, .literal 'T',
    .hour, .blanks, .literal ':', .minute, .blanks, .literal ':', .second, .fraction, .blanks]

def readStored (cs : List Char) : Option Timestamp :=
  ofPattern? storedPattern cs

/-! ### Offsets -/

/-- The offset at the end of a text, in minutes: `Z`, or a sign with two digits of hours, a colon
and two digits of minutes. -/
def readOffset (cs : List Char) : Option Int :=
  match cs with
  | [] => none
  | c :: rest =>
    if c = 'Z' || c = 'z' then (if rest.isEmpty then some 0 else none)
    else if c = '+' || c = '-' || c.toNat = 0x2212 then do
      let (hours, rest) ← takeFixed 2 rest
      let rest ← takeChar ':' rest
      let (minutes, rest) ← takeFixed 2 rest
      if 23 < hours || 59 < minutes || !rest.isEmpty then none
      else some (if c = '+' then (hours * 60 + minutes : Int) else -(hours * 60 + minutes : Int))
    else none

/-- A date and a time with an offset, every field at its full width; the offset is taken off. -/
def readWithOffset (cs : List Char) : Option Timestamp := do
  let (year, cs) ← takeFixed 4 cs
  let cs ← takeChar '-' cs
  let (month, cs) ← takeFixed 2 cs
  let cs ← takeChar '-' cs
  let (day, cs) ← takeFixed 2 cs
  let cs ← takeChar 'T' cs <|> takeChar 't' cs <|> takeChar ' ' cs
  let (hour, cs) ← takeFixed 2 cs
  let cs ← takeChar ':' cs
  let (minute, cs) ← takeFixed 2 cs
  let cs ← takeChar ':' cs
  let (second, cs) ← takeFixed 2 cs
  let (nanosecond, cs) ← match cs with
    | '.' :: rest => takeFraction rest
    | _ => some (0, cs)
  let offset ← readOffset cs
  (← ofFields? year month day hour minute second nanosecond).minusMinutes? offset

/-! ### ISO 8601 -/

/-- The timestamp that an ISO 8601 date or date-time stands for. A text of ten bytes is a date;
a longer one is tried in every form with a time. -/
def parseIsoChars? (cs : List Char) : Option Timestamp :=
  let cs := Text.trim cs
  let size := (String.ofList cs).utf8ByteSize
  if size < 10 || !(cs.take 4).all Char.isDigit then none
  else if size = 10 then ofPattern? datePattern cs
  else dateTimePatterns.findSome? (ofPattern? · cs) <|> readWithOffset cs

/-- The timestamp that an ISO 8601 text stands for. -/
def parseIso? (s : String) : Option Timestamp :=
  parseIsoChars? s.toList

end RecordFlow.Timestamp
