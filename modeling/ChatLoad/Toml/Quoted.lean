import ChatLoad.Toml.Scan

/-! Strings: basic ones with escapes, literal ones without, each on one line or, between triple
quotes, on several. -/

namespace ChatLoad.Toml

/-- The character with a code, unless the code belongs to none. -/
def scalar? (code : Nat) : Option Char :=
  if code.isValidChar then some (Char.ofNat code) else none

def escape : Parser Char
  | 'b' :: rest => some ('\x08', rest)
  | 't' :: rest => some ('\t', rest)
  | 'n' :: rest => some ('\n', rest)
  | 'f' :: rest => some ('\x0c', rest)
  | 'r' :: rest => some ('\r', rest)
  | 'e' :: rest => some ('\x1b', rest)
  | '"' :: rest => some ('"', rest)
  | '\\' :: rest => some ('\\', rest)
  | 'x' :: rest => code 2 rest
  | 'u' :: rest => code 4 rest
  | 'U' :: rest => code 8 rest
  | _ => none
where
  code (count : Nat) : Parser Char := fun text => do
    let (n, rest) ← digits? 16 count text
    some (← scalar? n, rest)

def lineChar (escapes : Bool) (quote : Char) : Parser (List Char)
  | [] => none
  | c :: rest =>
      if escapes && c == '\\' then (escape rest).map fun (d, rest) => ([d], rest)
      else if c != quote && isPrintable c then some ([c], rest)
      else none

/-- A backslash at the end of a line takes the blanks and newlines after it away. -/
def foldedLine? (text : List Char) : Option (List Char) :=
  (newline? (skipBlanks text)).map fun rest =>
    rest.dropWhile fun c => isBlank c || c == '\n' || c == '\r'

/-- One character of a string on several lines; quotes are counted elsewhere. -/
def blockChar (escapes : Bool) (quote : Char) : Parser (List Char)
  | [] => none
  | c :: rest =>
      match newline? (c :: rest) with
      | some rest => some (['\n'], rest)
      | none =>
          if escapes && c == '\\' then
            match foldedLine? rest with
            | some rest => some ([], rest)
            | none => (escape rest).map fun (d, rest) => ([d], rest)
          else if c == quote || isPrintable c then some ([c], rest)
          else none

/-- The closing triple quotes, and up to two quotes in front of them that belong to the string. -/
def blockEnd (quote : Char) : Parser (List Char) := fun text =>
  let quotes := (text.takeWhile (· == quote)).length
  if quotes < 3 then none
  else
    let kept := min (quotes - 3) 2
    some (List.replicate kept quote, text.drop (kept + 3))

def lineEnd (quote : Char) : Parser (List Char)
  | [] => none
  | c :: rest => if c == quote then some ([], rest) else none

def lineString (escapes : Bool) (quote : Char) : Parser String := fun text => do
  let (content, rest) ← collect (lineEnd quote) (lineChar escapes quote) (text.length + 1) text
  some (String.ofList content, rest)

/-- A string on several lines, behind its opening quotes. A newline right there does not count. -/
def blockString (escapes : Bool) (quote : Char) : Parser String := fun text => do
  let text := (newline? text).getD text
  let (content, rest) ← collect (blockEnd quote) (blockChar escapes quote) (text.length + 1) text
  some (String.ofList content, rest)

def quoted : Parser String
  | '"' :: rest => lineString true '"' rest
  | '\'' :: rest => lineString false '\'' rest
  | _ => none

def string : Parser String
  | '"' :: '"' :: '"' :: rest => blockString true '"' rest
  | '\'' :: '\'' :: '\'' :: rest => blockString false '\'' rest
  | text => quoted text

end ChatLoad.Toml
