import ChatLoad.Toml.Scan

/-! Dates and times. They are kept as text, in one spelling: `T` between date and time, `Z` or a
signed offset, seconds only if written, and no zeros at the end of a fraction. -/

namespace ChatLoad.Toml

def padded (width n : Nat) : String :=
  let digits := toString n
  String.ofList (List.replicate (width - digits.length) '0') ++ digits

def isLeapYear (year : Nat) : Bool :=
  (year % 4 == 0 && year % 100 != 0) || year % 400 == 0

def daysIn (year month : Nat) : Nat :=
  if month = 2 then (if isLeapYear year then 29 else 28)
  else if month = 4 ∨ month = 6 ∨ month = 9 ∨ month = 11 then 30
  else 31

def character (c : Char) : Parser Unit
  | d :: rest => if d == c then some ((), rest) else none
  | [] => none

def date : Parser String := fun text => do
  let (year, rest) ← digits? 10 4 text
  let ((), rest) ← character '-' rest
  let (month, rest) ← digits? 10 2 rest
  let ((), rest) ← character '-' rest
  let (day, rest) ← digits? 10 2 rest
  if 1 ≤ month ∧ month ≤ 12 ∧ 1 ≤ day ∧ day ≤ daysIn year month then
    some (padded 4 year ++ "-" ++ padded 2 month ++ "-" ++ padded 2 day, rest)
  else none

/-- At most nine digits of a fraction count. -/
def fraction : Parser String
  | '.' :: rest =>
      let digits := rest.takeWhile isDigit
      let kept := ((digits.take 9).reverse.dropWhile (· == '0')).reverse
      if digits.isEmpty then none
      else some ("." ++ (if kept.isEmpty then "0" else String.ofList kept), rest.drop digits.length)
  | text => some ("", text)

def seconds : Parser String
  | ':' :: rest => do
      let (second, rest) ← digits? 10 2 rest
      let (part, rest) ← fraction rest
      if second ≤ 60 then some (":" ++ padded 2 second ++ part, rest) else none
  | text => some ("", text)

def hourMinute : Parser String := fun text => do
  let (hour, rest) ← digits? 10 2 text
  let ((), rest) ← character ':' rest
  let (minute, rest) ← digits? 10 2 rest
  if hour ≤ 23 ∧ minute ≤ 59 then some (padded 2 hour ++ ":" ++ padded 2 minute, rest) else none

def time : Parser String := fun text => do
  let (front, rest) ← hourMinute text
  let (back, rest) ← seconds rest
  some (front ++ back, rest)

/-- An offset of nothing has the sign plus. -/
def offset : Parser String
  | 'Z' :: rest | 'z' :: rest => some ("Z", rest)
  | '+' :: rest => (hourMinute rest).map fun (t, rest) => ("+" ++ t, rest)
  | '-' :: rest =>
      (hourMinute rest).map fun (t, rest) => ((if t == "00:00" then "+" else "-") ++ t, rest)
  | text => some ("", text)

def isTimeMark (c : Char) : Bool :=
  c == 'T' || c == 't' || c == ' '

/-- A date, a time, or both with or without an offset. -/
def moment? (text : List Char) : Option String :=
  match date text with
  | some (day, []) => some day
  | some (day, mark :: rest) =>
      if isTimeMark mark then
        match (do let (t, rest) ← time rest; let (o, rest) ← offset rest; some (t ++ o, rest)) with
        | some (t, []) => some (day ++ "T" ++ t)
        | _ => none
      else none
  | none =>
      match time text with
      | some (t, []) => some t
      | _ => none

end ChatLoad.Toml
