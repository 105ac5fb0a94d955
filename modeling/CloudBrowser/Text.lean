import Mathlib.Tactic.Common
import Mathlib.Data.Rat.Defs
import Mathlib.Data.List.Basic

/-! Bounded text, and the JSON values that requests carry. -/
namespace CloudBrowser

/-- Clock readings and lifetimes, in seconds. -/
abbrev Time := ℚ

abbrev Bytes := List UInt8

instance : LawfulBEq Bytes := inferInstance

namespace Text

def isControl (c : Char) : Bool := c.val < 0x20 || c.val == 0x7F

/-- The shape that the services ask of every identifier: not empty, within a bound in the
given measure, and free of control characters. -/
def bounded (size : String → ℕ) (limit : ℕ) (s : String) : Bool :=
  s ≠ "" && size s ≤ limit && !s.toList.any isControl

/-- `len(value.encode("utf-8"))`. -/
def utf8Length (s : String) : ℕ := s.utf8ByteSize

def encodeUtf8 (s : String) : Bytes := s.toUTF8.data.toList

/-- `bytes.decode("utf-8")`, where it does not raise. -/
def decodeUtf8 (b : Bytes) : Option String := String.fromUTF8? ⟨b.toArray⟩

theorem decodeUtf8_encodeUtf8 (s : String) : decodeUtf8 (encodeUtf8 s) = some s := by
  have hbytes : (⟨(encodeUtf8 s).toArray⟩ : ByteArray) = s.toByteArray := by
    simp [encodeUtf8,String.toUTF8]
  rw [decodeUtf8,hbytes,String.fromUTF8?,dif_pos s.isValidUTF8]
  rfl

theorem encodeUtf8_injective : Function.Injective encodeUtf8 := by
  intro s s' h
  have hdecoded := decodeUtf8_encodeUtf8 s
  rw [h,decodeUtf8_encodeUtf8] at hdecoded
  exact (Option.some.inj hdecoded).symm

/-- `str.lower` as far as ASCII can be found in its result: besides the ASCII capitals only
the Kelvin sign and the dotted capital I have a lower case that contains an ASCII letter. -/
def lower (s : String) : List Char := s.toList.flatMap fun c =>
  if c.val = 0x212A then ['k']
  else if c.val = 0x130 then ['i',Char.ofNat 0x307]
  else [c.toLower]

/-- `marker in text.lower()` for an ASCII marker in lower case. -/
def mentions (marker text : String) : Bool :=
  (lower text).tails.any (marker.toList.isPrefixOf ·)

end Text

/-- A decoded JSON value; as in Python, a number is an `int` or a `float`. -/
inductive Json
  | null
  | bool (b : Bool)
  | int (i : ℤ)
  | real (q : ℚ)
  | str (s : String)
  | arr (items : List Json)
  | obj (fields : List (String × Json))

namespace Json

/-- `mapping.get(name)`; a missing field reads as `null`, like Python's `None`. -/
def get (fields : List (String × Json)) (name : String) : Json := (fields.lookup name).getD .null

def asString : Json → Option String
  | .str s => some s
  | _ => none

/-- `bool(value)`. -/
def truthy : Json → Bool
  | .null => false
  | .bool b => b
  | .int i => i ≠ 0
  | .real q => q ≠ 0
  | .str s => s ≠ ""
  | .arr items => !items.isEmpty
  | .obj fields => !fields.isEmpty

/-- `value or default`. -/
def orElse (value default : Json) : Json := if value.truthy then value else default

/-- Lists and dictionaries cannot be members of a set: testing them raises `TypeError`. -/
def hashable : Json → Bool
  | .arr _ => false
  | .obj _ => false
  | _ => true

def hexDigit (n : ℕ) : Char := "0123456789abcdef".toList.getD n '0'

/-- `\uXXXX` for one UTF-16 unit. -/
def escapeUnit (u : ℕ) : List Char :=
  ['\\','u',hexDigit (u/4096),hexDigit (u/256%16),hexDigit (u/16%16),hexDigit (u%16)]

def escapeChar (c : Char) : List Char :=
  if c = '"' then ['\\','"']
  else if c = '\\' then ['\\','\\']
  else if c = '\n' then ['\\','n']
  else if c = '\r' then ['\\','r']
  else if c = '\t' then ['\\','t']
  else if c = '\x08' then ['\\','b']
  else if c = '\x0c' then ['\\','f']
  else if 0x20 ≤ c.toNat ∧ c.toNat < 0x7F then [c]
  else if c.toNat < 0x10000 then escapeUnit c.toNat
  else escapeUnit (0xD800+(c.toNat-0x10000)/0x400) ++ escapeUnit (0xDC00+(c.toNat-0x10000)%0x400)

/-- A string as `json.dumps` writes it: everything outside printable ASCII is escaped,
characters beyond the basic plane as two units. -/
def dumpString (s : String) : List Char := '"' :: s.toList.flatMap escapeChar ++ ['"']

def dumpedLength (s : String) : ℕ := (dumpString s).length

end Json
end CloudBrowser
