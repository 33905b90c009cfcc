/-
  JSON texts.

  `readJson?` takes the whole of a text, strictly: no comments, no comma before a closing bracket,
  no zero in front of a number.  A `JsonTerm` keeps what a reader of settings has to know: the
  digits of a number, fields that come twice, and whether a text is proper Unicode (an escaped half
  of a surrogate pair is none).
-/
import PocketSql.Number.Integer

namespace PocketSql

/-- A JSON document as it is written. -/
inductive JsonTerm
  | null
  | bool (b : Bool)
  | number (text : List Char)
  /-- A text, unless it is not proper Unicode. -/
  | text (value : Option String)
  | list (items : List JsonTerm)
  | object (fields : List (Option String × JsonTerm))

/-! ## Texts in quotes -/

/-- A part of a text in quotes: a character, or a 16-bit unit given by its number. -/
inductive TextUnit
  | char (c : Char)
  | code (n : Nat)
deriving DecidableEq, Repr

/-- The number that a hexadecimal digit stands for. -/
def hexValue? (c : Char) : Option Nat :=
  if c.isDigit then some (c.toNat - '0'.toNat)
  else if 'a' ≤ c && c ≤ 'f' then some (c.toNat - 'a'.toNat + 10)
  else if 'A' ≤ c && c ≤ 'F' then some (c.toNat - 'A'.toNat + 10)
  else none

/-- The number that hexadecimal digits spell. -/
def hexNumber? (cs : List Char) : Option Nat :=
  cs.foldl (fun n c => do
    let n ← n
    let d ← hexValue? c
    some (16 * n + d)) (some 0)

/-- The character of a short escape. -/
def shortEscape? : Char → Option Char
  | '"' => some '"'
  | '\\' => some '\\'
  | '/' => some '/'
  | 'b' => some '\x08'
  | 'f' => some '\x0C'
  | 'n' => some '\n'
  | 'r' => some '\r'
  | 't' => some '\t'
  | _ => none

/-- The parts of a text up to its closing quote, and what follows. -/
def readUnits : List Char → Option (List TextUnit × List Char)
  | [] => none
  | '"' :: rest => some ([], rest)
  | '\\' :: 'u' :: a :: b :: c :: d :: rest => do
    let n ← hexNumber? [a, b, c, d]
    let (units, rest) ← readUnits rest
    some (.code n :: units, rest)
  | '\\' :: e :: rest => do
    let c ← shortEscape? e
    let (units, rest) ← readUnits rest
    some (.char c :: units, rest)
  | c :: rest =>
    if c.toNat < 0x20 || c = '\\' then none
    else do
      let (units, rest) ← readUnits rest
      some (.char c :: units, rest)

/-- The first half of a surrogate pair. -/
def isHighHalf (n : Nat) : Bool :=
  decide (0xD800 ≤ n) && decide (n ≤ 0xDBFF)

/-- The second half of a surrogate pair. -/
def isLowHalf (n : Nat) : Bool :=
  decide (0xDC00 ≤ n) && decide (n ≤ 0xDFFF)

/-- The characters of parts; the halves of surrogate pairs have to stand together. -/
def unitChars? : List TextUnit → Option (List Char)
  | [] => some []
  | .char c :: units => (unitChars? units).map (c :: ·)
  | .code high :: .code low :: units =>
    if isHighHalf high then
      if isLowHalf low then
        (unitChars? units).map
          (Char.ofNat (0x10000 + (high - 0xD800) * 0x400 + (low - 0xDC00)) :: ·)
      else none
    else if isLowHalf high then none
    else (unitChars? (.code low :: units)).map (Char.ofNat high :: ·)
  | .code n :: units =>
    if isHighHalf n || isLowHalf n then none else (unitChars? units).map (Char.ofNat n :: ·)

/-- A text after its opening quote. -/
def readQuoted (cs : List Char) : Option (Option String × List Char) :=
  (readUnits cs).map fun (units, rest) => ((unitChars? units).map String.ofList, rest)

/-! ## Numbers -/

/-- The digits before the point: a zero alone, or digits that begin with another one. -/
def spanWhole : List Char → Option (List Char × List Char)
  | '0' :: rest => if (rest.head?.map Char.isDigit).getD false then none else some (['0'], rest)
  | cs =>
    let digits := cs.takeWhile Char.isDigit
    if digits.isEmpty then none else some (digits, cs.dropWhile Char.isDigit)

/-- Digits after a mark, which has one digit at least after it. -/
def spanDigitsAfter (mark : List Char) (cs : List Char) : Option (List Char × List Char) :=
  let digits := cs.takeWhile Char.isDigit
  if digits.isEmpty then none else some (mark ++ digits, cs.dropWhile Char.isDigit)

/-- The fraction of a number, if there is one. -/
def spanDecimals : List Char → Option (List Char × List Char)
  | '.' :: rest => spanDigitsAfter ['.'] rest
  | cs => some ([], cs)

/-- The exponent of a number, if there is one. -/
def spanPower : List Char → Option (List Char × List Char)
  | c :: rest =>
    if c = 'e' || c = 'E' then
      match rest with
      | '+' :: rest => spanDigitsAfter [c, '+'] rest
      | '-' :: rest => spanDigitsAfter [c, '-'] rest
      | rest => spanDigitsAfter [c] rest
    else some ([], c :: rest)
  | [] => some ([], [])

/-- A number. -/
def readJsonNumber (cs : List Char) : Option (List Char × List Char) := do
  let (sign, rest) := match cs with
    | '-' :: rest => (['-'], rest)
    | rest => ([], rest)
  let (whole, rest) ← spanWhole rest
  let (decimals, rest) ← spanDecimals rest
  let (power, rest) ← spanPower rest
  some (sign ++ whole ++ decimals ++ power, rest)

/-! ## Documents -/

/-- The blanks of JSON. -/
def isJsonBlank (c : Char) : Bool :=
  c = ' ' || c = '\t' || c = '\n' || c = '\r'

/-- A text without the blanks at its start. -/
def skipJsonBlanks (cs : List Char) : List Char :=
  cs.dropWhile isJsonBlank

mutual

/-- A document at the start of a text.  A bracket takes two of the given steps and at least one
    character. -/
def readTerm : Nat → List Char → Option (JsonTerm × List Char)
  | 0, _ => none
  | steps + 1, cs =>
    match skipJsonBlanks cs with
    | '\x7b' :: rest =>
      match skipJsonBlanks rest with
      | '\x7d' :: rest => some (.object [], rest)
      | rest => do
        let (fields, rest) ← readFields steps rest
        some (.object fields, rest)
    | '[' :: rest =>
      match skipJsonBlanks rest with
      | ']' :: rest => some (.list [], rest)
      | rest => do
        let (items, rest) ← readTermItems steps rest
        some (.list items, rest)
    | '"' :: rest => do
      let (value, rest) ← readQuoted rest
      some (.text value, rest)
    | 'n' :: 'u' :: 'l' :: 'l' :: rest => some (.null, rest)
    | 't' :: 'r' :: 'u' :: 'e' :: rest => some (.bool true, rest)
    | 'f' :: 'a' :: 'l' :: 's' :: 'e' :: rest => some (.bool false, rest)
    | rest => do
      let (number, rest) ← readJsonNumber rest
      some (.number number, rest)

/-- The items of a list up to its closing bracket, at least one. -/
def readTermItems : Nat → List Char → Option (List JsonTerm × List Char)
  | 0, _ => none
  | steps + 1, cs => do
    let (item, rest) ← readTerm steps cs
    match skipJsonBlanks rest with
    | ',' :: rest =>
      let (items, rest) ← readTermItems steps rest
      some (item :: items, rest)
    | ']' :: rest => some ([item], rest)
    | _ => none

/-- The fields of an object up to its closing bracket, at least one. -/
def readFields : Nat → List Char → Option (List (Option String × JsonTerm) × List Char)
  | 0, _ => none
  | steps + 1, cs =>
    match skipJsonBlanks cs with
    | '"' :: rest => do
      let (name, rest) ← readQuoted rest
      match skipJsonBlanks rest with
      | ':' :: rest =>
        let (value, rest) ← readTerm steps rest
        match skipJsonBlanks rest with
        | ',' :: rest =>
          let (fields, rest) ← readFields steps rest
          some ((name, value) :: fields, rest)
        | '\x7d' :: rest => some ([(name, value)], rest)
        | _ => none
      | _ => none
    | _ => none

end

/-- The document that the whole of a text is. -/
def readJson? (cs : List Char) : Option JsonTerm :=
  match readTerm (2 * cs.length + 2) cs with
  | some (term, rest) => if (skipJsonBlanks rest).isEmpty then some term else none
  | none => none

end PocketSql
