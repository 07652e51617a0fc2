import CelShell.Toml.Basic

/-!
# Numbers, dates and times of configuration data

Digits may be grouped by single underscores. Integers have 64 bits; a float may not round to
positive infinity, which is written `inf`.
-/

namespace CelShell.Toml.Reader

/-- Digits after the first: each may follow an underscore. -/
def moreDigits (isDigit : Char → Bool) : List Char → Except Fault (List Char × List Char)
  | '_' :: c :: rest =>
    if isDigit c then (moreDigits isDigit rest).map fun (ds, cs) => (c :: ds, cs)
    else .error (.expected "a digit")
  | c :: rest =>
    if isDigit c then (moreDigits isDigit rest).map fun (ds, cs) => (c :: ds, cs)
    -- An underscore that is the last character separates nothing.
    else if c = '_' then .error (.expected "a digit")
    else .ok ([], c :: rest)
  | [] => .ok ([], [])

/-- At least one digit. -/
def digits (isDigit : Char → Bool) : Reader (List Char) := do
  match ← get with
  | c :: rest =>
    if isDigit c then
      set rest
      return c :: (← moreDigits isDigit)
    else expected "a digit"
  | [] => expected "a digit"

/-- An integer, if it has 64 bits. -/
def integerOf (n : Int) : Reader Toml :=
  match Number.int64? n with
  | some _ => return .integer n
  | none => throw .outOfRange

/-- An integer in another base, after the letter of the base. -/
def inBase (base : Nat) : Reader Toml := do
  let isDigit := fun c => Number.isHexDigit c && Number.digitValue c < base
  integerOf (Number.ofDigits base (← digits isDigit))

/-- The digits before a point: no zero stands before another digit. -/
def wholePart : Reader (List Char) := do
  match ← get with
  | '0' :: rest =>
    set rest
    return ['0']
  | _ => digits Number.isDigit

/-- An exponent, if one comes next. -/
def exponent : Reader (List Char) := do
  if (← accept 'e') || (← accept 'E') then
    let sign ← if ← accept '-' then pure ['-'] else do
      -- A plus sign does not change the number.
      discard (accept '+')
      pure []
    return 'e' :: sign ++ (← digits Number.isDigit)
  else return []

/-- The float of a sign and a numeral. -/
def floatOf (sign numeral : List Char) : Reader Toml :=
  match Double.read? (sign ++ numeral) with
  -- A finite numeral that rounds to infinity is out of range; only the positive one is refused.
  | some d => if d = .infinity false then throw .outOfRange else return .float d
  | none => expected "a number"

/-- A number without a base, after its sign. -/
def decimal (sign : List Char) : Reader Toml := do
  let whole ← wholePart
  let fraction ← if ← accept '.' then pure ('.' :: (← digits Number.isDigit)) else pure []
  let power ← exponent
  if fraction.isEmpty && power.isEmpty then
    let n : Int := Number.ofDigits 10 whole
    integerOf (if sign = ['-'] then -n else n)
  else floatOf sign (whole ++ fraction ++ power)

/-- A number. -/
def number : Reader Toml := do
  -- A number in another base has no sign.
  if ← acceptText "0x" then inBase 16
  else if ← acceptText "0o" then inBase 8
  else if ← acceptText "0b" then inBase 2
  else
    let sign ← if ← accept '-' then pure ['-'] else do
      if ← accept '+' then pure ['+'] else pure []
    if ← acceptText "inf" then return .float (.infinity (sign = ['-']))
    else if ← acceptText "nan" then return .float (.nan (sign = ['-']))
    else decimal sign

/-! ## Dates and times -/

/-- A number of exactly two digits within bounds. -/
def twoDigits (least greatest : Nat) : Reader Unit := do
  match ← get with
  | a :: b :: rest =>
    match Number.natural? [a, b] with
    | some n =>
      if least ≤ n ∧ n ≤ greatest then set rest else throw .noSuchTime
    | none => expected "two digits"
  | _ => expected "two digits"

/-- How many days a month has. -/
def daysIn (year month : Nat) : Nat :=
  let leap := year % 4 = 0 ∧ (year % 100 ≠ 0 ∨ year % 400 = 0)
  if month = 2 then if leap then 29 else 28
  else if month ∈ [4, 6, 9, 11] then 30 else 31

/-- Whether a date comes next, as far as its year and a hyphen show. -/
def startsDate : List Char → Bool
  | a :: b :: c :: d :: '-' :: _ => [a, b, c, d].all Number.isDigit
  | _ => false

/-- Whether a time comes next, as far as its hour and a colon show. -/
def startsTime : List Char → Bool
  | a :: b :: ':' :: _ => (Number.natural? [a, b]).any fun hour => hour < 24
  | _ => false

/-- The hour, minute and second of a time, the second perhaps with a fraction. -/
def time : Reader Unit := do
  twoDigits 0 23
  expect ':'
  twoDigits 0 59
  expect ':'
  twoDigits 0 60
  match ← get with
  | '.' :: c :: rest => if Number.isDigit c then set (rest.dropWhile Number.isDigit)
  | _ => return

/-- A date after which a time with an offset may follow. -/
def date : Reader Unit := do
  let cs ← get
  let year := Number.ofDigits 10 (cs.take 4)
  set (cs.drop 5)
  -- The month is read ahead, for it bounds the day.
  let month := Number.ofDigits 10 ((← get).take 2)
  twoDigits 1 12
  expect '-'
  twoDigits 1 (daysIn year month)

/-- The offset of a time, if one comes next. -/
def offset : Reader Unit := do
  if (← accept 'Z') || (← accept 'z') then return
  if (← accept '+') || (← accept '-') then
    twoDigits 0 23
    expect ':'
    twoDigits 0 59

/-- The time that follows a date after a letter or a space, if one comes next. -/
def timeOfDate : Reader Unit := do
  match ← get with
  | c :: rest =>
    -- A space belongs to the date only before a time.
    if (c == 'T' || c == 't' || c == ' ') && startsTime rest then
      set rest
      time
      offset
  | [] => return

/-- A number, a date or a time. -/
def numberOrTime : Reader Toml := do
  let cs ← get
  if startsDate cs then
    date
    timeOfDate
  else if startsTime cs then time
  else return ← number
  -- Dates and times are kept as they are written.
  return .datetime (String.ofList (cs.take (cs.length - (← get).length)))

end CelShell.Toml.Reader
