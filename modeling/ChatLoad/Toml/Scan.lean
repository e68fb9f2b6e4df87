/-! Walking over the text of a TOML document. A parser takes a thing off the front of the text and
returns what follows it, or fails. -/

namespace ChatLoad.Toml

abbrev Parser (α : Type) := List Char → Option (α × List Char)

def isBlank (c : Char) : Bool :=
  c == ' ' || c == '\t'

/-- No control characters but the tab. -/
def isPrintable (c : Char) : Bool :=
  c == '\t' || (' ' ≤ c && c != '\x7f')

def isDigit (c : Char) : Bool :=
  '0' ≤ c && c ≤ '9'

def isLetter (c : Char) : Bool :=
  ('a' ≤ c && c ≤ 'z') || ('A' ≤ c && c ≤ 'Z')

def skipBlanks (text : List Char) : List Char :=
  text.dropWhile isBlank

def skipComment : List Char → List Char
  | '#' :: rest => rest.dropWhile isPrintable
  | text => text

def newline? : List Char → Option (List Char)
  | '\n' :: rest => some rest
  | '\r' :: '\n' :: rest => some rest
  | _ => none

/-- What follows the line, if nothing but blanks and a comment is left on it. -/
def endLine? (text : List Char) : Option (List Char) :=
  match skipComment (skipBlanks text) with
  | [] => some []
  | rest => newline? rest

def skipVoid (text : List Char) : List Char :=
  go false text
where
  go (comment : Bool) : List Char → List Char
    | [] => []
    | c :: rest =>
        if comment && isPrintable c then go true rest
        else if c == '\n' || (c == '\r' && rest.head? == some '\n') then go false rest
        else if comment then c :: rest
        else if isBlank c then go false rest
        else if c == '#' then go true rest
        else c :: rest

/-- Takes off pieces until `stop` matches, at most as many as there are characters. -/
def collect (stop : Parser (List Char)) (piece : Parser (List Char)) :
    Nat → List Char → Option (List Char × List Char)
  | 0, _ => none
  | rounds + 1, text =>
      match stop text with
      | some found => some found
      | none => do
          let (front, rest) ← piece text
          let (back, rest) ← collect stop piece rounds rest
          some (front ++ back, rest)

def digitValue? (c : Char) : Option Nat :=
  if isDigit c then some (c.toNat - '0'.toNat)
  else if 'a' ≤ c && c ≤ 'f' then some (c.toNat - 'a'.toNat + 10)
  else if 'A' ≤ c && c ≤ 'F' then some (c.toNat - 'A'.toNat + 10)
  else none

def number? (base : Nat) (digits : List Char) : Option Nat :=
  digits.foldlM
    (fun sum c =>
      match digitValue? c with
      | some d => if d < base then some (sum * base + d) else none
      | none => none)
    0

/-- The number in the next `count` digits. -/
def digits? (base count : Nat) : Parser Nat := fun text =>
  let (front, rest) := text.splitAt count
  if front.length = count then (number? base front).map (·, rest) else none

end ChatLoad.Toml
