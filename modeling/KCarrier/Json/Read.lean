import KCarrier.Json.Write

/-!
# KCarrier.Json.Read

The strict reader: the grammar of the standard, with nothing but white space around the
document.  Arrays and objects nest 127 deep at most.  An integer that does not fit 64
bits is a float, and what a float's text stands for is a parameter: it has none when the
number is out of range.
-/

namespace Json

/-- Reading takes characters off the front of a text. -/
abbrev Reader (α : Type) : Type := List Char → Option (α × List Char)

def isSpace (c : Char) : Bool := c == ' ' || c == '\n' || c == '\t' || c == '\r'

def skipSpace (cs : List Char) : List Char := cs.dropWhile isSpace

/-! ## strings -/

def hexValue (c : Char) : Option Nat :=
  if 48 ≤ c.toNat ∧ c.toNat ≤ 57 then some (c.toNat - 48)
  else if 97 ≤ c.toNat ∧ c.toNat ≤ 102 then some (c.toNat - 87)
  else if 65 ≤ c.toNat ∧ c.toNat ≤ 70 then some (c.toNat - 55)
  else none

/-- Four hexadecimal digits. -/
def readHex : Reader Nat
  | a :: b :: c :: d :: rest => do
      let a ← hexValue a
      let b ← hexValue b
      let c ← hexValue c
      let d ← hexValue d
      some (((a * 16 + b) * 16 + c) * 16 + d, rest)
  | _ => none

/-- A UTF-16 unit, or two that are a pair of surrogates. -/
def readUnicode : Reader Char := fun cs => do
  let (n, rest) ← readHex cs
  if 0xDC00 ≤ n ∧ n ≤ 0xDFFF then
    none
  else if 0xD800 ≤ n ∧ n ≤ 0xDBFF then
    match rest with
    | '\\' :: 'u' :: rest => do
        let (m, rest) ← readHex rest
        if 0xDC00 ≤ m ∧ m ≤ 0xDFFF then
          some (Char.ofNat (0x10000 + (n - 0xD800) * 0x400 + (m - 0xDC00)), rest)
        else
          none
    | _ => none
  else
    some (Char.ofNat n, rest)

/-- What follows a backslash. -/
def readEscape : Reader Char
  | '"' :: rest => some ('"', rest)
  | '\\' :: rest => some ('\\', rest)
  | '/' :: rest => some ('/', rest)
  | 'b' :: rest => some ('\x08', rest)
  | 'f' :: rest => some ('\x0c', rest)
  | 'n' :: rest => some ('\n', rest)
  | 'r' :: rest => some ('\r', rest)
  | 't' :: rest => some ('\t', rest)
  | 'u' :: rest => readUnicode rest
  | _ => none

/-- The characters up to the closing quote; each turn takes one off the text at least. -/
def readChars : Nat → Reader (List Char)
  | 0, _ => none
  | _ + 1, [] => none
  | fuel + 1, c :: rest =>
      if c = '"' then
        some ([], rest)
      else if c = '\\' then do
        let (d, rest) ← readEscape rest
        let (ds, rest) ← readChars fuel rest
        some (d :: ds, rest)
      else if c.toNat < 0x20 then
        none
      else do
        let (ds, rest) ← readChars fuel rest
        some (c :: ds, rest)

def readString : Reader String := fun cs => do
  let (ds, rest) ← readChars cs.length cs
  some (String.ofList ds, rest)

/-! ## numbers -/

/-- One digit at least. -/
def readDigits : Reader (List Char) := fun cs =>
  let digits := cs.takeWhile (·.isDigit)
  if digits = [] then none else some (digits, cs.dropWhile (·.isDigit))

def readFraction : Reader (List Char)
  | '.' :: rest => do
      let (digits, rest) ← readDigits rest
      some ('.' :: digits, rest)
  | cs => some ([], cs)

def readSign : List Char → List Char × List Char
  | '+' :: rest => (['+'], rest)
  | '-' :: rest => (['-'], rest)
  | cs => ([], cs)

def readExponent : Reader (List Char)
  | c :: rest =>
      if c = 'e' ∨ c = 'E' then do
        let (sign, rest) := readSign rest
        let (digits, rest) ← readDigits rest
        some (c :: sign ++ digits, rest)
      else
        some ([], c :: rest)
  | [] => some ([], [])

variable (float : List Char → Option String)

/-- The number of a sign, an integer part, and what follows it. -/
def toNumber (negative : Bool) (digits more : List Char) : Option Number :=
  let n := Nat.ofDigitChars 10 digits 0
  if more = [] ∧ negative = false ∧ n < 2 ^ 64 then
    some (.natural n)
  else if more = [] ∧ negative = true ∧ 0 < n ∧ n ≤ 2 ^ 63 then
    some (.negative n)
  else
    (float ((if negative then ['-'] else []) ++ digits ++ more)).map .float

/-- The integer part has no leading zero. -/
def readUnsigned (negative : Bool) : Reader Number := fun cs => do
  let (digits, rest) ← readDigits cs
  if digits.head? = some '0' ∧ digits.length ≠ 1 then
    none
  else do
    let (fraction, rest) ← readFraction rest
    let (exponent, rest) ← readExponent rest
    let n ← toNumber float negative digits (fraction ++ exponent)
    some (n, rest)

def readNumber : Reader Number
  | '-' :: rest => readUnsigned float true rest
  | cs => readUnsigned float false cs

/-! ## values -/

section

variable (inner : Reader Value)

/-- The items up to the closing bracket; each turn takes a comma off the text at least. -/
def readItems : Nat → Reader (List Value)
  | 0, _ => none
  | fuel + 1, cs => do
      let (v, rest) ← inner cs
      match skipSpace rest with
      | ',' :: rest => do
          let (vs, rest) ← readItems fuel rest
          some (v :: vs, rest)
      | ']' :: rest => some ([v], rest)
      | _ => none

def readArray : Reader (List Value) := fun cs =>
  match skipSpace cs with
  | ']' :: rest => some ([], rest)
  | _ => readItems inner cs.length cs

def readMember : Reader (String × Value) := fun cs =>
  match skipSpace cs with
  | '"' :: rest => do
      let (key, rest) ← readString rest
      match skipSpace rest with
      | ':' :: rest => do
          let (v, rest) ← inner rest
          some ((key, v), rest)
      | _ => none
  | _ => none

def readMembers : Nat → Reader (Members Value)
  | 0, _ => none
  | fuel + 1, cs => do
      let (p, rest) ← readMember inner cs
      match skipSpace rest with
      | ',' :: rest => do
          let (ps, rest) ← readMembers fuel rest
          some (p :: ps, rest)
      | '}' :: rest => some ([p], rest)
      | _ => none

def readObject : Reader (Members Value) := fun cs =>
  match skipSpace cs with
  | '}' :: rest => some ([], rest)
  | _ => readMembers inner cs.length cs

end

/-- One value, whose items are read by `nested` if they may nest any deeper. -/
def readNode (nested : Option (Reader Value)) : Reader Value := fun cs =>
  match skipSpace cs with
  | 'n' :: 'u' :: 'l' :: 'l' :: rest => some (.null, rest)
  | 't' :: 'r' :: 'u' :: 'e' :: rest => some (.bool true, rest)
  | 'f' :: 'a' :: 'l' :: 's' :: 'e' :: rest => some (.bool false, rest)
  | '"' :: rest => do
      let (s, rest) ← readString rest
      some (.string s, rest)
  | '[' :: rest => do
      let inner ← nested
      let (items, rest) ← readArray inner rest
      some (.array items, rest)
  | '{' :: rest => do
      let inner ← nested
      let (members, rest) ← readObject inner rest
      some (.object members, rest)
  | rest => do
      let (n, rest) ← readNumber float rest
      some (.number n, rest)

/-- One value that nests `depth` deep at most. -/
def readValue : Nat → Reader Value
  | 0 => readNode float none
  | depth + 1 => readNode float (some (readValue depth))

def maxDepth : Nat := 127

/-- A whole document. -/
def read (cs : List Char) : Option Value := do
  let (v, rest) ← readValue float maxDepth cs
  if skipSpace rest = [] then some v else none

/-- The document the bytes are. -/
def fromSlice (bytes : List UInt8) : Option Value := do
  let cs ← decode bytes
  read float cs


end Json
