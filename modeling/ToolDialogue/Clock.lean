namespace ToolDialogue

-- Nanoseconds since the start of 1970, UTC.
abbrev Instant := Int

abbrev Span := Nat

def second : Nat := 1000000000

-- The first instant of the calendar: the start of the year -262143.
def earliest : Instant := -8334601315200 * second

def longestSpan : Nat := 9223372036854775

def Span.ofSeconds? (seconds : Nat) : Option Span :=
  if seconds ≤ longestSpan then some (seconds * second) else none

def cutoff? (now : Instant) (span : Span) : Option Instant :=
  if earliest ≤ now - span then some (now - span) else none

structure Date where
  year : Int
  month : Nat
  day : Nat
  deriving DecidableEq, Repr

def Date.ofDays (days : Int) : Date :=
  let shifted := days + 719468
  let era := shifted.fdiv 146097
  let dayOfEra := (shifted.fmod 146097).toNat
  let yearOfEra := (dayOfEra - dayOfEra / 1460 + dayOfEra / 36524 - dayOfEra / 146096) / 365
  let dayOfYear := dayOfEra - (365*yearOfEra + yearOfEra/4 - yearOfEra/100)
  let shiftedMonth := (5*dayOfYear + 2) / 153
  let month := if shiftedMonth < 10 then shiftedMonth + 3 else shiftedMonth - 9
  let year : Int := yearOfEra + era*400
  ⟨if month ≤ 2 then year + 1 else year,month,dayOfYear - (153*shiftedMonth + 2)/5 + 1⟩

def padded (width n : Nat) : String :=
  let digits := toString n
  String.ofList (List.replicate (width - digits.length) '0') ++ digits

def fractionOf (nanos : Nat) : String :=
  if nanos = 0 then ""
  else if nanos % 1000000 = 0 then "." ++ padded 3 (nanos / 1000000)
  else if nanos % 1000 = 0 then "." ++ padded 6 (nanos / 1000)
  else "." ++ padded 9 nanos

def timestamp (zone : String) (instant : Instant) : String :=
  let seconds := instant.fdiv second
  let nanos := (instant.fmod second).toNat
  let date := Date.ofDays (seconds.fdiv 86400)
  let rest := (seconds.fmod 86400).toNat
  padded 4 date.year.toNat ++ "-" ++ padded 2 date.month ++ "-" ++ padded 2 date.day ++ "T" ++
    padded 2 (rest / 3600) ++ ":" ++ padded 2 (rest / 60 % 60) ++ ":" ++ padded 2 (rest % 60) ++
    fractionOf nanos ++ zone

def utcOffset : String := "+00:00"

end ToolDialogue
