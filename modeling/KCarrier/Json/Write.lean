import KCarrier.Json.Value
import Mathlib.Algebra.GroupWithZero.Nat

/-!
# KCarrier.Json.Write

The compact writer: no white space, and in a string no more escapes than a document
needs.  A document is UTF-8, so its length is counted in `size`s of characters; the
longest escape of a character has six bytes (`size_escape_le`).
-/

namespace Json

/-! ## UTF-8 -/

def encode (cs : List Char) : List UInt8 := cs.flatMap String.utf8EncodeChar

/-- The text of the bytes, if they are UTF-8. -/
def decode (bytes : List UInt8) : Option (List Char) :=
  (String.fromUTF8? bytes.toByteArray).map String.toList

/-- The number of bytes of a text. -/
def size (cs : List Char) : Nat := (cs.map Char.utf8Size).sum

@[simp] theorem size_nil : size [] = 0 := rfl

@[simp] theorem size_cons (c : Char) (cs : List Char) : size (c :: cs) = c.utf8Size + size cs := by
  simp [size]

@[simp] theorem size_append (cs ds : List Char) : size (cs ++ ds) = size cs + size ds := by
  simp [size]

/-- A text takes the sum of what its characters take. -/
theorem length_encode (cs : List Char) : (encode cs).length = size cs := by
  induction cs with
  | nil => simp [encode]
  | cons c cs ih =>
      simp only [encode, List.flatMap_cons, List.length_append, String.length_utf8EncodeChar,
        size_cons] at ih ⊢
      rw [ih]

/-- A text is read back from its bytes. -/
theorem decode_encode (cs : List Char) : decode (encode cs) = some cs := by
  have hbytes : (encode cs).toByteArray = (String.ofList cs).toByteArray := by
    rw [String.toByteArray_ofList]
    rfl
  have htext : String.fromUTF8? (String.ofList cs).toByteArray = some (String.ofList cs) := by
    unfold String.fromUTF8?
    rw [dif_pos (String.ofList cs).isValidUTF8]
    rfl
  rw [decode, hbytes, htext, Option.map_some, String.toList_ofList]

/-! ## strings -/

def hexDigit (n : Nat) : Char :=
  if n < 10 then Char.ofNat (n + 48) else Char.ofNat (n + 87)

def escape (c : Char) : List Char :=
  if c = '"' then ['\\', '"']
  else if c = '\\' then ['\\', '\\']
  else if c = '\x08' then ['\\', 'b']
  else if c = '\x0c' then ['\\', 'f']
  else if c = '\n' then ['\\', 'n']
  else if c = '\r' then ['\\', 'r']
  else if c = '\t' then ['\\', 't']
  else if c.toNat < 0x20 then
    ['\\', 'u', '0', '0', hexDigit (c.toNat / 16), hexDigit (c.toNat % 16)]
  else [c]

/-- The characters of a string, escaped. -/
def escaped (cs : List Char) : List Char := cs.flatMap escape

def writeString (s : String) : List Char := '"' :: escaped s.toList ++ ['"']

theorem utf8Size_hexDigit {n : Nat} (h : n < 16) : (hexDigit n).utf8Size = 1 := by
  have hall : ∀ k < 16, (hexDigit k).utf8Size = 1 := by decide
  exact hall n h

/-- The longest escape is `\u` with four digits. -/
theorem size_escape_le (c : Char) : size (escape c) ≤ 6 := by
  have hc : c.utf8Size ≤ 4 := Char.utf8Size_le_four c
  unfold escape
  iterate 7 (split; · decide)
  split
  · next hlow =>
      have hhigh : (hexDigit (c.toNat / 16)).utf8Size = 1 := utf8Size_hexDigit (by omega)
      have hdigit : (hexDigit (c.toNat % 16)).utf8Size = 1 := utf8Size_hexDigit (by omega)
      have hprefix : size ['\\', 'u', '0', '0'] = 4 := by decide
      simp only [size_cons, size_nil, hhigh, hdigit] at hprefix ⊢
      omega
  · simp only [size_cons, size_nil]
    omega

/-- No text takes more than six bytes a character. -/
theorem size_escaped_le (cs : List Char) : size (escaped cs) ≤ 6 * cs.length := by
  induction cs with
  | nil => simp [escaped]
  | cons c cs ih =>
      have hc : size (escape c) ≤ 6 := size_escape_le c
      simp only [escaped, List.flatMap_cons, size_append, List.length_cons] at ih ⊢
      omega

/-- The quotes are two bytes more. -/
theorem size_writeString (s : String) : size (writeString s) = size (escaped s.toList) + 2 := by
  have hquote : Char.utf8Size '"' = 1 := by decide
  simp only [writeString, size_append, size_cons, size_nil, hquote]
  omega

/-! ## values -/

def Number.write : Number → List Char
  | .natural n => Nat.toDigits 10 n
  | .negative n => '-' :: Nat.toDigits 10 n
  | .float text => text.toList

mutual

def Value.write : Value → List Char
  | .null => ['n', 'u', 'l', 'l']
  | .bool true => ['t', 'r', 'u', 'e']
  | .bool false => ['f', 'a', 'l', 's', 'e']
  | .number n => n.write
  | .string s => writeString s
  | .array items => '[' :: writeItems items ++ [']']
  | .object members => '{' :: writeMembers members ++ ['}']

def writeItems : List Value → List Char
  | [] => []
  | [v] => v.write
  | v :: w :: rest => v.write ++ ',' :: writeItems (w :: rest)

def writeMembers : Members Value → List Char
  | [] => []
  | [(key, v)] => writeString key ++ ':' :: v.write
  | (key, v) :: p :: rest => writeString key ++ ':' :: v.write ++ ',' :: writeMembers (p :: rest)

end

/-- The last member has no comma. -/
theorem size_writeMembers_one (key : String) (v : Value) :
    size (writeMembers [(key, v)]) = size (writeString key) + 1 + size v.write := by
  have hcolon : Char.utf8Size ':' = 1 := by decide
  simp only [writeMembers, size_append, size_cons, hcolon]
  omega

/-- Any other member is followed by one. -/
theorem size_writeMembers_cons (key : String) (v : Value) (p : String × Value)
    (rest : Members Value) :
    size (writeMembers ((key, v) :: p :: rest)) =
      size (writeString key) + 1 + size v.write + 1 + size (writeMembers (p :: rest)) := by
  have hcolon : Char.utf8Size ':' = 1 := by decide
  have hcomma : Char.utf8Size ',' = 1 := by decide
  simp only [writeMembers, size_append, size_cons, hcolon, hcomma]
  omega

theorem size_write_string (s : String) :
    size (Value.string s).write = size (writeString s) := rfl

theorem size_write_number (n : Number) : size (Value.number n).write = size n.write := rfl

theorem size_write_object (members : Members Value) :
    size (Value.object members).write = size (writeMembers members) + 2 := by
  have hopen : Char.utf8Size '{' = 1 := by decide
  have hclose : Char.utf8Size '}' = 1 := by decide
  simp only [Value.write, size_append, size_cons, size_nil, hopen, hclose]
  omega

/-- The bytes of a document. -/
def toVec (v : Value) : List UInt8 := encode v.write

/-- What `to_vec` writes is as long as its text. -/
theorem length_toVec (v : Value) : (toVec v).length = size v.write := length_encode v.write

end Json
