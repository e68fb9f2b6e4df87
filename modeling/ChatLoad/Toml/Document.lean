import ChatLoad.Toml.Quoted
import ChatLoad.Toml.Tree

/-! Documents: lines with key and value or with the header of a table. -/

namespace ChatLoad.Toml

/-! ### Keys -/

def isBareKeyChar (c : Char) : Bool :=
  isDigit c || isLetter c || c == '_' || c == '-'

def simpleKey : Parser String := fun text =>
  match quoted text with
  | some found => some found
  | none =>
      let key := text.takeWhile isBareKeyChar
      if key.isEmpty then none else some (String.ofList key, text.drop key.length)

/-- A key with the blanks around it, and the keys that follow it behind dots. -/
def dottedKey : Nat → Parser (List String)
  | 0, _ => none
  | rounds + 1, text => do
      let (key, rest) ← simpleKey (skipBlanks text)
      match skipBlanks rest with
      | '.' :: rest => do
          let (keys, rest) ← dottedKey rounds rest
          some (key :: keys, rest)
      | rest => some ([key], rest)

def key : Parser (List String) := fun text =>
  dottedKey text.length text

/-! ### Values -/

/-- The elements of an array or an inline table up to the closing character, with commas between
them and maybe after the last. -/
def elements {α : Type} (close : Char) (element : Parser α) : Nat → Parser (List α)
  | 0, _ => none
  | rounds + 1, text =>
      match skipVoid text with
      | [] => none
      | c :: rest =>
          if c == close then some ([], rest)
          else do
            let (first, rest) ← element (c :: rest)
            match skipVoid rest with
            | ',' :: rest => do
                let (others, rest) ← elements close element rounds rest
                some (first :: others, rest)
            | c :: rest => if c == close then some ([first], rest) else none
            | [] => none

def pair (value : Parser Value) : Parser (List String × Value) := fun text => do
  let (path, rest) ← key text
  match rest with
  | '=' :: rest => do
      let (v, rest) ← value (skipBlanks rest)
      some ((path, v), rest)
  | _ => none

/-- A value in which arrays and inline tables nest at most `depth` deep. -/
def value : Nat → Parser Value
  | _, [] => none
  | depth, '[' :: rest =>
      match depth with
      | 0 => none
      | depth + 1 => do
          let (items, rest) ← elements ']' (value depth) rest.length rest
          some (.array items, rest)
  | depth, '\x7b' :: rest =>
      match depth with
      | 0 => none
      | depth + 1 => do
          let (pairs, rest) ← elements '\x7d' (pair (value depth)) rest.length rest
          let entries ← pairs.foldlM (fun entries (path, v) => Tree.assign path v entries) []
          some (.inlineTable entries, rest)
  | _, c :: rest =>
      if c == '"' || c == '\'' then (string (c :: rest)).map fun (s, rest) => (.string s, rest)
      else word (c :: rest)

def maxDepth : Nat := 80

/-! ### Lines -/

/-- What has been read so far: the document, and the path of the table that keys go to. -/
structure Draft where
  entries : Entries := []
  path : List String := []

def headerLine (tables : Bool) (draft : Draft) (text : List Char) : Option (Draft × List Char) := do
  let (path, rest) ← key text
  let last ← path.getLast?
  let enter := if tables then Tree.appendTable last else Tree.openTable last
  let entries ← Tree.within path.dropLast enter draft.entries
  match tables, rest with
  | true, ']' :: ']' :: rest => some ({ entries, path }, rest)
  | false, ']' :: rest => some ({ entries, path }, rest)
  | _, _ => none

def pairLine (draft : Draft) (text : List Char) : Option (Draft × List Char) := do
  let ((path, v), rest) ← pair (value maxDepth) text
  some ({ draft with entries := ← Tree.within draft.path (Tree.assign path v) draft.entries }, rest)

def line (draft : Draft) (text : List Char) : Option (Draft × List Char) :=
  match text with
  | [] => some (draft, [])
  | '#' :: _ => some (draft, text)
  | '\n' :: _ => some (draft, text)
  | '\r' :: _ => some (draft, text)
  | '[' :: '[' :: rest => headerLine true draft rest
  | '[' :: rest => headerLine false draft rest
  | _ => pairLine draft text

/-- Reads line after line, at most as many as there are characters. -/
def lines : Nat → Draft → List Char → Option Entries
  | 0, _, _ => none
  | rounds + 1, draft, text => do
      let (draft, rest) ← line draft (skipBlanks text)
      match ← endLine? rest with
      | [] => some draft.entries
      | rest => lines rounds draft rest

/-- The tables of a document. A byte order mark in front of it does not count. -/
def parse? (document : String) : Option Entries :=
  let text := match document.toList with
    | '\ufeff' :: rest => rest
    | text => text
  lines (text.length + 1) {} text

end ChatLoad.Toml
