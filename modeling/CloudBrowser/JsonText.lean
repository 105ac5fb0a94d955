import CloudBrowser.Text
import Mathlib.Data.List.TakeDrop
import Mathlib.Data.List.TakeWhile
import Mathlib.Tactic.Ring

/-! The text of JSON: what `json.dumps` writes for a flat object with `ensure_ascii=False` and
without blanks, and what `json.loads` reads. -/
namespace CloudBrowser
namespace Json

/-- The longest numeral that `int` and `str` convert. -/
def maxStrDigits : ℕ := 4300

/-- A character of a string as it is written with `ensure_ascii=False`. -/
def escapeRaw (c : Char) : List Char :=
  if c = '"' then ['\\','"']
  else if c = '\\' then ['\\','\\']
  else if c = '\n' then ['\\','n']
  else if c = '\r' then ['\\','r']
  else if c = '\t' then ['\\','t']
  else if c = '\x08' then ['\\','b']
  else if c = '\x0c' then ['\\','f']
  else if c.toNat < 0x20 then escapeUnit c.toNat
  else [c]

def writeString (s : String) : List Char := '"' :: s.toList.flatMap escapeRaw ++ ['"']

def writeInt (i : ℤ) : List Char :=
  if i < 0 then '-' :: Nat.toDigits 10 i.natAbs else Nat.toDigits 10 i.natAbs

/-- A value of a flat object. -/
inductive Atom
  | str (s : String)
  | int (i : ℤ)
  deriving DecidableEq

def Atom.json : Atom → Json
  | .str s => .str s
  | .int i => .int i

def Atom.write : Atom → List Char
  | .str s => writeString s
  | .int i => writeInt i

/-- Whether `json.dumps` can write the value: a numeral must not be too long. -/
def Atom.writable : Atom → Bool
  | .str _ => true
  | .int i => (Nat.toDigits 10 i.natAbs).length ≤ maxStrDigits

def writeMember (f : String × Atom) : List Char := writeString f.1 ++ ':' :: f.2.write

/-- The members of an object after the first. -/
def writeRest (fields : List (String × Atom)) : List Char :=
  fields.flatMap fun f => ',' :: writeMember f

def writeObject : List (String × Atom) → List Char
  | [] => ['{','}']
  | f::fields => '{' :: writeMember f ++ writeRest fields ++ ['}']

/-! ### Reading -/

def isBlank (c : Char) : Bool := c = ' ' || c = '\t' || c = '\n' || c = '\r'

def skipBlanks (text : List Char) : List Char := text.dropWhile isBlank

def hexValue (c : Char) : Option ℕ :=
  if '0'.toNat ≤ c.toNat ∧ c.toNat ≤ '9'.toNat then some (c.toNat - '0'.toNat)
  else if 'a'.toNat ≤ c.toNat ∧ c.toNat ≤ 'f'.toNat then some (c.toNat - 'a'.toNat+10)
  else if 'A'.toNat ≤ c.toNat ∧ c.toNat ≤ 'F'.toNat then some (c.toNat - 'A'.toNat+10)
  else none

/-- The unit that four digits of `\uXXXX` stand for. -/
def readUnit (w x y z : Char) : Option ℕ := do
  let w ← hexValue w
  let x ← hexValue x
  let y ← hexValue y
  let z ← hexValue z
  some (((w*16+x)*16+y)*16+z)

def readEscape : Char → Option ℕ
  | '"' => some 0x22
  | '\\' => some 0x5c
  | '/' => some 0x2f
  | 'b' => some 0x08
  | 'f' => some 0x0c
  | 'n' => some 0x0a
  | 'r' => some 0x0d
  | 't' => some 0x09
  | _ => none

/-- The units of a string up to its closing quote, and what stands after it. -/
def readUnits : List Char → Option (List ℕ × List Char)
  | [] => none
  | '"'::rest => some ([],rest)
  | '\\' :: 'u' :: w::x::y::z::rest =>
    (readUnit w x y z).bind fun u => (readUnits rest).map fun r => (u::r.1,r.2)
  | '\\'::e::rest => (readEscape e).bind fun u => (readUnits rest).map fun r => (u::r.1,r.2)
  | c::rest =>
    if c.toNat < 0x20 then none else (readUnits rest).map fun r => (c.toNat::r.1,r.2)

def charOf (u : ℕ) : Option Char := if u.isValidChar then some (Char.ofNat u) else none

/-- The characters that units stand for, two surrogates being one. A surrogate alone is no
character here: Python has strings with such, and refuses to encode them. -/
def joinUnits : List ℕ → Option (List Char)
  | [] => some []
  | [u] => (charOf u).map ([·])
  | u::v::units =>
    if (0xD800 ≤ u ∧ u < 0xDC00) ∧ (0xDC00 ≤ v ∧ v < 0xE000) then
      (charOf (0x10000+(u-0xD800)*0x400+(v-0xDC00))).bind fun c => (joinUnits units).map (c::·)
    else (charOf u).bind fun c => (joinUnits (v::units)).map (c::·)

/-- A string after its opening quote. -/
def readString (text : List Char) : Option (String × List Char) := do
  let r ← readUnits text
  let cs ← joinUnits r.1
  some (String.ofList cs,r.2)

/-- The digits that a text starts with, and what stands after them. -/
def readDigits (text : List Char) : List Char × List Char := text.span Char.isDigit

/-- The digits of a fraction, where there is one. -/
def readFraction : List Char → Option (List Char × List Char)
  | '.'::rest => if (readDigits rest).1 = [] then none else some (readDigits rest)
  | _ => none

/-- The exponent, where there is one. -/
def readExponent : List Char → Option (ℤ × List Char)
  | e::rest =>
    if e ≠ 'e' ∧ e ≠ 'E' then none
    else
      let signed : ℤ × List Char := match rest with
        | '-'::rest => (-1,rest)
        | '+'::rest => (1,rest)
        | rest => (1,rest)
      let digits := readDigits signed.2
      if digits.1 = [] then none else some (signed.1*Nat.ofDigitChars 10 digits.1 0,digits.2)
  | [] => none

/-- A number whose integral digits are read: an `int` when neither a fraction nor an exponent
follows. A `float` is read as the number that is written. -/
def finishNumber (sign : ℤ) (digits rest : List Char) : Option (Json × List Char) :=
  let fraction := readFraction rest
  let exponent := readExponent ((fraction.map Prod.snd).getD rest)
  if fraction.isNone ∧ exponent.isNone then
    if maxStrDigits < digits.length then none
    else some (.int (sign*Nat.ofDigitChars 10 digits 0),rest)
  else
    let places := (fraction.map Prod.fst).getD []
    let mantissa : ℚ := sign*Nat.ofDigitChars 10 (digits ++ places) 0
    let scale := (exponent.map Prod.fst).getD 0-places.length
    some (.real (mantissa*(10:ℚ)^scale),
      (exponent.map Prod.snd).getD ((fraction.map Prod.snd).getD rest))

def readUnsigned (sign : ℤ) : List Char → Option (Json × List Char)
  | '0'::rest => finishNumber sign ['0'] rest
  | text =>
    if (readDigits text).1 = [] then none
    else finishNumber sign (readDigits text).1 (readDigits text).2

def readNumber : List Char → Option (Json × List Char)
  | '-'::rest => readUnsigned (-1) rest
  | text => readUnsigned 1 text

/-- `dict(pairs)`: a name that comes again keeps its place and takes the last value. -/
def assign (fields : List (String × Json)) (f : String × Json) : List (String × Json) :=
  if fields.any fun g => g.1 = f.1 then
    fields.map fun g => if g.1 = f.1 then f else g
  else fields ++ [f]

/-- One member `"name":value` of an object. -/
def readMember (value : List Char → Option (Json × List Char)) (text : List Char) :
    Option ((String × Json) × List Char) :=
  match text with
  | '"'::rest => do
    let name ← readString rest
    match skipBlanks name.2 with
    | ':'::rest => do
      let v ← value (skipBlanks rest)
      some ((name.1,v.1),v.2)
    | _ => none
  | _ => none

/-- The members of an object after its brace, or after a comma. -/
def readMembers (value : List Char → Option (Json × List Char)) : ℕ → List Char →
    List (String × Json) → Option (List (String × Json) × List Char)
  | 0, _, _ => none
  | fuel+1, text, fields => do
    let member ← readMember value text
    match skipBlanks member.2 with
    | ','::rest => readMembers value fuel (skipBlanks rest) (assign fields member.1)
    | '}'::rest => some (assign fields member.1,rest)
    | _ => none

/-- The items of an array after its bracket, or after a comma. -/
def readItems (value : List Char → Option (Json × List Char)) : ℕ → List Char →
    List Json → Option (List Json × List Char)
  | 0, _, _ => none
  | fuel+1, text, items => do
    let item ← value text
    match skipBlanks item.2 with
    | ','::rest => readItems value fuel (skipBlanks rest) (items ++ [item.1])
    | ']'::rest => some (items ++ [item.1],rest)
    | _ => none

/-- A value at the start of a text, its nesting bounded by the fuel. -/
def readValue : ℕ → List Char → Option (Json × List Char)
  | 0, _ => none
  | _+1, '"'::rest => (readString rest).map fun r => (.str r.1,r.2)
  | fuel+1, '{'::rest =>
    match skipBlanks rest with
    | '}'::rest => some (.obj [],rest)
    | text => (readMembers (readValue fuel) text.length text []).map fun r => (.obj r.1,r.2)
  | fuel+1, '['::rest =>
    match skipBlanks rest with
    | ']'::rest => some (.arr [],rest)
    | text => (readItems (readValue fuel) text.length text []).map fun r => (.arr r.1,r.2)
  | _+1, 'n' :: 'u' :: 'l' :: 'l' :: rest => some (.null,rest)
  | _+1, 't' :: 'r' :: 'u' :: 'e' :: rest => some (.bool true,rest)
  | _+1, 'f' :: 'a' :: 'l' :: 's' :: 'e' :: rest => some (.bool false,rest)
  | _+1, text => readNumber text

/-- `json.loads`, where it raises nothing. Left out are `NaN` and the infinities, which no value
here stands for. -/
def loads (text : String) : Option Json := do
  let r ← readValue (text.toList.length+1) (skipBlanks text.toList)
  if skipBlanks r.2 = [] then some r.1 else none

/-! ### What is written is read back -/

theorem hexValue_hexDigit : ∀ n < 16, hexValue (hexDigit n) = some n := by decide

theorem readUnits_escapeUnit {u : ℕ} (hu : u < 0x10000) (rest : List Char) :
    readUnits (escapeUnit u ++ rest) = (readUnits rest).map fun r => (u::r.1,r.2) := by
  have hunit : readUnit (hexDigit (u/4096)) (hexDigit (u/256%16)) (hexDigit (u/16%16))
      (hexDigit (u%16)) = some u := by
    simp only [readUnit,hexValue_hexDigit _ (show u/4096 < 16 by omega),
      hexValue_hexDigit _ (show u/256%16 < 16 by omega),
      hexValue_hexDigit _ (show u/16%16 < 16 by omega),
      hexValue_hexDigit _ (show u%16 < 16 by omega),Option.bind_eq_bind,Option.bind_some]
    congr 1
    omega
  simp only [escapeUnit,List.cons_append,List.nil_append]
  rw [readUnits,hunit,Option.bind_some]

theorem readUnits_plain {c : Char} (hquote : c ≠ '"') (hback : c ≠ '\\') (hctl : ¬c.toNat < 0x20)
    (rest : List Char) :
    readUnits (c::rest) = (readUnits rest).map fun r => (c.toNat::r.1,r.2) := by
  rw [readUnits.eq_def]
  split <;> simp_all

/-- A character is read back as the one that was written, escaped or not. -/
theorem readUnits_escapeRaw (c : Char) (rest : List Char) :
    readUnits (escapeRaw c ++ rest) = (readUnits rest).map fun r => (c.toNat::r.1,r.2) := by
  unfold escapeRaw
  by_cases hquote : c = '"'
  · simp [hquote,readUnits,readEscape]
  by_cases hback : c = '\\'
  · simp [hback,readUnits,readEscape]
  rw [if_neg hquote,if_neg hback]
  by_cases hnewline : c = '\n'
  · simp [hnewline,readUnits,readEscape]
  by_cases hreturn : c = '\r'
  · simp [hreturn,readUnits,readEscape]
  by_cases htab : c = '\t'
  · simp [htab,readUnits,readEscape]
  by_cases hbackspace : c = '\x08'
  · simp [hbackspace,readUnits,readEscape]
  by_cases hfeed : c = '\x0c'
  · simp [hfeed,readUnits,readEscape]
  rw [if_neg hnewline,if_neg hreturn,if_neg htab,if_neg hbackspace,if_neg hfeed]
  by_cases hctl : c.toNat < 0x20
  · rw [if_pos hctl,readUnits_escapeUnit (by omega)]
  · rw [if_neg hctl,List.singleton_append,readUnits_plain hquote hback hctl]

theorem readUnits_write (cs rest : List Char) :
    readUnits (cs.flatMap escapeRaw ++ '"'::rest) = some (cs.map Char.toNat,rest) := by
  induction cs with
  | nil => rfl
  | cons c cs ih =>
    rw [List.flatMap_cons,List.append_assoc,readUnits_escapeRaw,ih]
    rfl

theorem charOf_toNat (c : Char) : charOf c.toNat = some c := by
  have hvalid : c.toNat.isValidChar := c.valid
  rw [charOf,if_pos hvalid,Char.ofNat_toNat]

/-- No character is a surrogate, so that what is written is never joined. -/
theorem joinUnits_map (cs : List Char) : joinUnits (cs.map Char.toNat) = some cs := by
  induction cs with
  | nil => rfl
  | cons c cs ih =>
    have hvalid : c.toNat.isValidChar := c.valid
    cases cs with
    | nil => simp [joinUnits,charOf_toNat]
    | cons d cs =>
      have hsurrogate : ¬((0xD800 ≤ c.toNat ∧ c.toNat < 0xDC00) ∧
          0xDC00 ≤ d.toNat ∧ d.toNat < 0xE000) := by
        unfold Nat.isValidChar at hvalid
        omega
      rw [List.map_cons] at ih
      rw [List.map_cons,List.map_cons,joinUnits,if_neg hsurrogate,charOf_toNat,Option.bind_some,ih]
      rfl

theorem readString_write (s : String) (rest : List Char) :
    readString (s.toList.flatMap escapeRaw ++ '"'::rest) = some (s,rest) := by
  simp [readString,readUnits_write,joinUnits_map]

/-- What follows a numeral without making it longer. -/
def endsNumber (rest : List Char) : Prop :=
  ∀ c ∈ rest.head?, c.isDigit = false ∧ c ≠ '.' ∧ c ≠ 'e' ∧ c ≠ 'E'

theorem readDigits_append {digits rest : List Char} (hdigits : ∀ c ∈ digits, c.isDigit = true)
    (hrest : endsNumber rest) : readDigits (digits ++ rest) = (digits,rest) := by
  have hstop : rest.takeWhile Char.isDigit = [] ∧ rest.dropWhile Char.isDigit = rest := by
    cases rest with
    | nil => simp
    | cons c rest => simp [(hrest c rfl).1]
  rw [readDigits,List.span_eq_takeWhile_dropWhile,List.takeWhile_append_of_pos hdigits,
    List.dropWhile_append_of_pos hdigits,hstop.1,hstop.2,List.append_nil]

theorem readFraction_end {rest : List Char} (hrest : endsNumber rest) : readFraction rest = none := by
  cases rest with
  | nil => rfl
  | cons c rest =>
    have hpoint := (hrest c rfl).2.1
    rw [readFraction.eq_def]
    split <;> simp_all

theorem readExponent_end {rest : List Char} (hrest : endsNumber rest) : readExponent rest = none := by
  cases rest with
  | nil => rfl
  | cons c rest => simp [readExponent,(hrest c rfl).2.2]

theorem finishNumber_end {sign : ℤ} {digits rest : List Char} (hrest : endsNumber rest)
    (hlen : digits.length ≤ maxStrDigits) :
    finishNumber sign digits rest = some (.int (sign*Nat.ofDigitChars 10 digits 0),rest) := by
  simp [finishNumber,readFraction_end hrest,readExponent_end hrest,hlen]

theorem isDigit_toDigits (n : ℕ) : ∀ c ∈ Nat.toDigits 10 n, c.isDigit = true :=
  fun _ => Nat.isDigit_of_mem_toDigits (by decide) (by decide)

/-- Only zero is written with a leading zero. -/
theorem toDigits_head (n : ℕ) : ∀ digits, Nat.toDigits 10 n = '0'::digits → digits = [] := by
  induction n using Nat.strong_induction_on with
  | _ n ih =>
    intro digits h
    by_cases hlt : n < 10
    · rw [Nat.toDigits_of_lt_base hlt,List.cons.injEq] at h
      exact h.2.symm
    rw [Nat.toDigits_of_base_le (by omega) (by omega)] at h
    cases hhigh : Nat.toDigits 10 (n/10) with
    | nil => exact absurd hhigh Nat.toDigits_ne_nil
    | cons c cs =>
      rw [hhigh,List.cons_append,List.cons.injEq] at h
      have hcs := ih (n/10) (by omega) cs (by rw [hhigh,h.1])
      have hzero : n/10 = 0 := by
        rw [← Nat.ofDigitChars_ten_toDigits (n:=n/10),hhigh,h.1,hcs]
        rfl
      omega

theorem readUnsigned_toDigits {sign : ℤ} {n : ℕ} {rest : List Char} (hrest : endsNumber rest)
    (hlen : (Nat.toDigits 10 n).length ≤ maxStrDigits) :
    readUnsigned sign (Nat.toDigits 10 n ++ rest) = some (.int (sign*n),rest) := by
  have hread := readDigits_append (isDigit_toDigits n) hrest
  have hfinish := @finishNumber_end sign _ _ hrest hlen
  have hvalue := Nat.ofDigitChars_ten_toDigits (n:=n)
  have hhead := toDigits_head n
  have hnil : Nat.toDigits 10 n ≠ [] := Nat.toDigits_ne_nil
  generalize Nat.toDigits 10 n = digits at *
  rw [hvalue] at hfinish
  cases digits with
  | nil => exact absurd rfl hnil
  | cons c cs =>
    by_cases hzero : c = '0'
    · rw [hzero] at hhead hfinish ⊢
      rw [hhead cs rfl] at hfinish ⊢
      exact hfinish
    · rw [List.cons_append] at hread ⊢
      rw [readUnsigned.eq_2 _ _ (by rintro _ ⟨⟩; exact hzero rfl),hread]
      simpa using hfinish

theorem readNumber_writeInt {i : ℤ} {rest : List Char} (hrest : endsNumber rest)
    (hlen : (Nat.toDigits 10 i.natAbs).length ≤ maxStrDigits) :
    readNumber (writeInt i ++ rest) = some (.int i,rest) := by
  unfold writeInt
  by_cases hneg : i < 0
  · have habs : (-1)*(i.natAbs : ℤ) = i := by omega
    rw [if_pos hneg,List.cons_append,readNumber,readUnsigned_toDigits hrest hlen,habs]
  · have habs : 1*(i.natAbs : ℤ) = i := by omega
    have hminus : ∀ text, Nat.toDigits 10 i.natAbs ++ rest ≠ '-'::text := by
      intro text htext
      have hdigit := isDigit_toDigits i.natAbs
      cases hdigits : Nat.toDigits 10 i.natAbs with
      | nil => exact Nat.toDigits_ne_nil hdigits
      | cons c cs =>
        rw [hdigits,List.cons_append,List.cons.injEq] at htext
        rw [hdigits,htext.1] at hdigit
        exact absurd (hdigit '-' (by simp)) (by decide)
    rw [if_neg hneg,readNumber.eq_2 _ hminus,readUnsigned_toDigits hrest hlen,habs]

theorem writeInt_head (i : ℤ) : ∃ c cs, writeInt i = c::cs ∧ (c = '-' ∨ c.isDigit = true) := by
  unfold writeInt
  by_cases hneg : i < 0
  · exact ⟨'-',_,if_pos hneg,Or.inl rfl⟩
  have hdigit := isDigit_toDigits i.natAbs
  rw [if_neg hneg]
  cases hdigits : Nat.toDigits 10 i.natAbs with
  | nil => exact absurd hdigits Nat.toDigits_ne_nil
  | cons c cs => exact ⟨c,cs,rfl,Or.inr (hdigit c (by simp [hdigits]))⟩

theorem readValue_number {c : Char} (hc : c = '-' ∨ c.isDigit = true) (n : ℕ) (text : List Char) :
    readValue (n+1) (c::text) = readNumber (c::text) := by
  rw [readValue.eq_def]
  split <;> simp_all

theorem writeString_append (s : String) (rest : List Char) :
    writeString s ++ rest = '"'::(s.toList.flatMap escapeRaw ++ '"'::rest) := by
  simp [writeString]

theorem readValue_atom {a : Atom} {rest : List Char} (hrest : endsNumber rest)
    (ha : a.writable = true) (n : ℕ) :
    readValue (n+1) (a.write ++ rest) = some (a.json,rest) := by
  cases a with
  | str s =>
    rw [Atom.write,writeString_append,readValue,readString_write]
    rfl
  | int i =>
    have hnumber := readNumber_writeInt hrest (of_decide_eq_true ha)
    obtain ⟨c,cs,hwritten,hc⟩ := writeInt_head i
    rw [hwritten,List.cons_append] at hnumber
    rw [Atom.write,hwritten,List.cons_append,readValue_number hc,hnumber]
    rfl

/-- No value that is written starts with a blank. -/
theorem skipBlanks_atom (a : Atom) (rest : List Char) :
    skipBlanks (a.write ++ rest) = a.write ++ rest := by
  cases a with
  | str s => rfl
  | int i =>
    obtain ⟨c,cs,hwritten,hc⟩ := writeInt_head i
    have hblank : isBlank c = false := by
      cases hc with
      | inl hminus =>
        rw [hminus]
        rfl
      | inr hdigit =>
        by_contra hblank
        simp only [isBlank,Bool.not_eq_false,Bool.or_eq_true,decide_eq_true_eq] at hblank
        rcases hblank with ((rfl | rfl) | rfl) | rfl <;> exact absurd hdigit (by decide)
    simp [Atom.write,hwritten,skipBlanks,hblank]

/-- A text that is read as a value, whatever comes after it. -/
structure Reads (text : List Char) (value : Json) : Prop where
  read : ∀ (n : ℕ) rest, endsNumber rest → readValue (n+1) (text ++ rest) = some (value,rest)
  skip : ∀ rest, skipBlanks (text ++ rest) = text ++ rest

/-- The same for any reader of values. -/
structure ReadBy (reader : List Char → Option (Json × List Char)) (text : List Char)
    (value : Json) : Prop where
  read : ∀ rest, endsNumber rest → reader (text ++ rest) = some (value,rest)
  skip : ∀ rest, skipBlanks (text ++ rest) = text ++ rest

theorem Reads.readBy {text : List Char} {value : Json} (h : Reads text value) (n : ℕ) :
    ReadBy (readValue (n+1)) text value := ⟨h.read n,h.skip⟩

theorem reads_atom {a : Atom} (ha : a.writable = true) : Reads a.write a.json where
  read n _ hrest := readValue_atom hrest ha n
  skip := skipBlanks_atom a

/-- A member of an object, of a name and the text of its value. -/
def memberText (f : String × List Char) : List Char := writeString f.1 ++ ':' :: f.2

def restText (fields : List (String × List Char)) : List Char :=
  fields.flatMap fun f => ',' :: memberText f

def objectText : List (String × List Char) → List Char
  | [] => ['{','}']
  | f::fields => '{' :: memberText f ++ restText fields ++ ['}']

/-- A field with the text of its value, and with the value. -/
abbrev TextField := String × List Char × Json

def TextField.text (f : TextField) : String × List Char := (f.1,f.2.1)

def TextField.value (f : TextField) : String × Json := (f.1,f.2.2)

/-- A way of writing names under which they are read back. -/
def Quotes (quote : String → List Char) : Prop :=
  ∀ name rest, ∃ body, quote name ++ rest = '"'::body ∧ readString body = some (name,rest)

theorem quotes_writeString : Quotes writeString := fun name rest =>
  ⟨_,writeString_append name rest,readString_write name rest⟩

def memberBy (quote : String → List Char) (f : String × List Char) : List Char :=
  quote f.1 ++ ':' :: f.2

def restBy (quote : String → List Char) (fields : List (String × List Char)) : List Char :=
  fields.flatMap fun f => ',' :: memberBy quote f

theorem skipBlanks_member {quote : String → List Char} (hquote : Quotes quote)
    (f : String × List Char) (rest : List Char) :
    skipBlanks (memberBy quote f ++ rest) = memberBy quote f ++ rest := by
  obtain ⟨body,hbody,-⟩ := hquote f.1 (':' :: f.2 ++ rest)
  have htext : memberBy quote f ++ rest = '"'::body := by
    rw [← hbody]
    simp [memberBy]
  rw [htext]
  rfl

theorem readMember_by {quote : String → List Char} (hquote : Quotes quote)
    {reader : List Char → Option (Json × List Char)} {f : TextField} {rest : List Char}
    (hrest : endsNumber rest) (hf : ReadBy reader f.2.1 f.2.2) :
    readMember reader (memberBy quote f.text ++ rest) = some (f.value,rest) := by
  have hcolon : ∀ text, skipBlanks (':'::text) = ':'::text := fun _ => rfl
  obtain ⟨body,hbody,hread⟩ := hquote f.1 (':' :: f.2.1 ++ rest)
  have htext : memberBy quote f.text ++ rest = '"'::body := by
    rw [← hbody]
    simp [memberBy,TextField.text]
  rw [htext,readMember]
  simp only [hread,TextField.value,Option.bind_eq_bind,Option.bind_some,List.cons_append,hcolon,
    hf.skip,hf.read rest hrest]

theorem assign_new {fields : List (String × Json)} {f : String × Json}
    (hnew : f.1 ∉ fields.map Prod.fst) : assign fields f = fields ++ [f] := by
  have hany : (fields.any fun g => g.1 = f.1) = false := by
    simp only [List.any_eq_false,decide_eq_true_eq]
    intro g hg heq
    exact hnew (List.mem_map.mpr ⟨g,hg,heq⟩)
  rw [assign,hany]
  rfl

@[simp] theorem restText_nil : restText [] = [] := rfl

@[simp] theorem restText_cons (f : String × List Char) (fields : List (String × List Char)) :
    restText (f::fields) = ',' :: memberText f ++ restText fields := rfl

/-- Induction on the members still to be read; those that are read have other names. -/
theorem readMembers_by {quote : String → List Char} (hquote : Quotes quote)
    (reader : List Char → Option (Json × List Char)) (rest : List Char) (fields : List TextField) :
    ∀ (f : TextField) (fuel : ℕ) (before : List (String × Json)), fields.length < fuel →
    (∀ g ∈ f::fields, ReadBy reader g.2.1 g.2.2) →
    (before.map Prod.fst ++ (f::fields).map Prod.fst).Nodup →
    readMembers reader fuel
      (memberBy quote f.text ++ (restBy quote (fields.map TextField.text) ++ '}'::rest)) before =
        some (before ++ (f::fields).map TextField.value,rest) := by
  have hcomma : ∀ text, skipBlanks (','::text) = ','::text := fun _ => rfl
  have hbrace : ∀ text, skipBlanks ('}'::text) = '}'::text := fun _ => rfl
  induction fields with
  | nil =>
    intro f fuel before hfuel hreads hnodup
    obtain ⟨fuel,rfl⟩ := Nat.exists_eq_succ_of_ne_zero (Nat.pos_iff_ne_zero.mp hfuel)
    have hends : endsNumber ('}'::rest) := by
      rintro c ⟨⟩
      decide
    have hnew : f.value.1 ∉ before.map Prod.fst :=
      fun hmem => (List.nodup_append.mp hnodup).2.2 _ hmem _ List.mem_cons_self rfl
    have hnil : restBy quote (([] : List TextField).map TextField.text) = [] := rfl
    rw [hnil,List.nil_append,readMembers,readMember_by hquote hends (hreads f List.mem_cons_self)]
    simp only [Option.bind_eq_bind,Option.bind_some,hbrace]
    rw [assign_new hnew]
    rfl
  | cons g fields ih =>
    intro f fuel before hfuel hreads hnodup
    obtain ⟨fuel,rfl⟩ := Nat.exists_eq_succ_of_ne_zero (Nat.ne_zero_of_lt hfuel)
    have hcons : restBy quote ((g::fields).map TextField.text) =
        ',' :: memberBy quote g.text ++ restBy quote (fields.map TextField.text) := rfl
    have hends : endsNumber (','::(memberBy quote g.text ++
        (restBy quote (fields.map TextField.text) ++ '}'::rest))) := by
      rintro c ⟨⟩
      decide
    have hnew : f.value.1 ∉ before.map Prod.fst :=
      fun hmem => (List.nodup_append.mp hnodup).2.2 _ hmem _ List.mem_cons_self rfl
    have hnext := ih g fuel (before ++ [f.value]) (Nat.lt_of_succ_lt_succ hfuel)
      (fun h hh => hreads h (List.mem_cons_of_mem f hh))
      (by simpa [TextField.value] using hnodup)
    rw [hcons,List.append_assoc,List.cons_append,readMembers,
      readMember_by hquote hends (hreads f List.mem_cons_self)]
    simp only [Option.bind_eq_bind,Option.bind_some,hcomma,skipBlanks_member hquote]
    rw [assign_new hnew]
    simpa using hnext

theorem length_le_restText (fields : List (String × List Char)) :
    fields.length ≤ (restText fields).length := by
  induction fields with
  | nil => simp
  | cons f fields ih =>
    simp only [restText_cons,List.cons_append,List.length_cons,List.length_append]
    omega

/-- The text of an object is read as the object. -/
theorem loads_objectText {fields : List TextField} (hreads : ∀ f ∈ fields, Reads f.2.1 f.2.2)
    (hnodup : (fields.map Prod.fst).Nodup) :
    loads (String.ofList (objectText (fields.map TextField.text))) =
      some (.obj (fields.map TextField.value)) := by
  cases fields with
  | nil => rfl
  | cons f fields =>
    have hlen := length_le_restText (fields.map TextField.text)
    have htext : objectText ((f::fields).map TextField.text) =
        '{'::(memberText f.text ++ (restText (fields.map TextField.text) ++ ['}'])) := by
      simp [objectText]
    generalize hbody : memberText f.text ++ (restText (fields.map TextField.text) ++ ['}']) = body
      at htext
    obtain ⟨cs,hquote⟩ : ∃ cs, body = '"'::cs := ⟨_,hbody.symm⟩
    have hmembers : readMembers (readValue (body.length+1)) body.length body [] =
        some ((f::fields).map TextField.value,[]) := by
      have hfuel : fields.length < body.length := by
        rw [← hbody]
        simp only [List.length_append,List.length_singleton,List.length_map] at hlen ⊢
        omega
      rw [← hbody] at hfuel ⊢
      exact readMembers_by quotes_writeString _ [] fields f _ [] hfuel
        (fun g hg => (hreads g hg).readBy _) hnodup
    have hopen : skipBlanks ('{'::body) = '{'::body := rfl
    have hskip : skipBlanks body = body := by
      rw [hquote]
      rfl
    have hvalue : readValue (body.length+2) ('{'::body) =
        some (.obj ((f::fields).map TextField.value),[]) := by
      rw [readValue,hskip]
      split
      · cases hquote
      · rw [hmembers]
        rfl
    rw [loads,String.toList_ofList,htext,hopen,List.length_cons,hvalue]
    rfl

/-- A field as `json.loads` gives it. -/
def field (f : String × Atom) : String × Json := (f.1,f.2.json)

@[simp] theorem writeRest_nil : writeRest [] = [] := rfl

@[simp] theorem writeRest_cons (f : String × Atom) (fields : List (String × Atom)) :
    writeRest (f::fields) = ',' :: writeMember f ++ writeRest fields := rfl

theorem writeRest_eq (fields : List (String × Atom)) :
    writeRest fields = restText (fields.map fun f => (f.1,f.2.write)) := by
  induction fields with
  | nil => rfl
  | cons f fields ih => rw [writeRest_cons,List.map_cons,restText_cons,ih,memberText,writeMember]

theorem writeObject_eq (fields : List (String × Atom)) :
    writeObject fields = objectText (fields.map fun f => (f.1,f.2.write)) := by
  cases fields with
  | nil => rfl
  | cons f fields => rw [writeObject,writeRest_eq,List.map_cons,objectText,memberText,writeMember]

/-- What `json.dumps` writes for a flat object is read as that object. -/
theorem loads_writeObject {fields : List (String × Atom)}
    (hwritable : ∀ f ∈ fields, f.2.writable = true) (hnodup : (fields.map Prod.fst).Nodup) :
    loads (String.ofList (writeObject fields)) = some (.obj (fields.map field)) := by
  have hloads := @loads_objectText (fields.map fun f => (f.1,f.2.write,f.2.json))
  simp only [List.map_map,List.forall_mem_map] at hloads
  rw [writeObject_eq]
  exact hloads (fun f hf => reads_atom (hwritable f hf)) hnodup

/-! ### With `ensure_ascii` -/

/-- The UTF-16 units of a character. -/
def unitsOf (c : Char) : List ℕ :=
  if c.toNat < 0x10000 then [c.toNat]
  else [0xD800+(c.toNat-0x10000)/0x400,0xDC00+(c.toNat-0x10000)%0x400]

theorem readUnits_escapeChar (c : Char) (rest : List Char) :
    readUnits (escapeChar c ++ rest) = (readUnits rest).map fun r => (unitsOf c ++ r.1,r.2) := by
  have hvalid : c.toNat < 0x110000 := by
    have h := c.valid
    simp only [UInt32.isValidChar,Nat.isValidChar] at h
    show c.val.toNat < _
    omega
  unfold escapeChar
  by_cases hquote : c = '"'
  · simp [hquote,readUnits,readEscape,unitsOf]
  by_cases hback : c = '\\'
  · simp [hback,readUnits,readEscape,unitsOf]
  rw [if_neg hquote,if_neg hback]
  by_cases hnewline : c = '\n'
  · simp [hnewline,readUnits,readEscape,unitsOf]
  by_cases hreturn : c = '\r'
  · simp [hreturn,readUnits,readEscape,unitsOf]
  by_cases htab : c = '\t'
  · simp [htab,readUnits,readEscape,unitsOf]
  by_cases hbackspace : c = '\x08'
  · simp [hbackspace,readUnits,readEscape,unitsOf]
  by_cases hfeed : c = '\x0c'
  · simp [hfeed,readUnits,readEscape,unitsOf]
  rw [if_neg hnewline,if_neg hreturn,if_neg htab,if_neg hbackspace,if_neg hfeed]
  by_cases hplain : 0x20 ≤ c.toNat ∧ c.toNat < 0x7F
  · have hbasic : c.toNat < 0x10000 := by omega
    rw [if_pos hplain,List.singleton_append,readUnits_plain hquote hback (by omega),unitsOf,
      if_pos hbasic]
    rfl
  rw [if_neg hplain]
  by_cases hbasic : c.toNat < 0x10000
  · rw [if_pos hbasic,readUnits_escapeUnit hbasic,unitsOf,if_pos hbasic]
    rfl
  · rw [if_neg hbasic,List.append_assoc,readUnits_escapeUnit (by omega),
      readUnits_escapeUnit (by omega),unitsOf,if_neg hbasic,Option.map_map]
    rfl

theorem readUnits_dump (cs rest : List Char) :
    readUnits (cs.flatMap escapeChar ++ '"'::rest) = some (cs.flatMap unitsOf,rest) := by
  induction cs with
  | nil => rfl
  | cons c cs ih =>
    rw [List.flatMap_cons,List.append_assoc,readUnits_escapeChar,ih]
    rfl

/-- A character begins with a unit that is no low surrogate. -/
theorem unitsOf_head (c : Char) : ∃ u us, unitsOf c = u::us ∧ ¬(0xDC00 ≤ u ∧ u < 0xE000) := by
  have hvalid := c.valid
  simp only [UInt32.isValidChar,Nat.isValidChar] at hvalid
  have hnat : c.toNat = c.val.toNat := rfl
  unfold unitsOf
  split_ifs with hbasic
  · exact ⟨_,_,rfl,by omega⟩
  · exact ⟨_,_,rfl,by omega⟩

/-- The two units of a character beyond the basic plane are joined again. -/
theorem joinUnits_unitsOf (c : Char) (units : List ℕ)
    (hunits : ∀ u us, units = u::us → ¬(0xDC00 ≤ u ∧ u < 0xE000)) :
    joinUnits (unitsOf c ++ units) = (joinUnits units).map (c::·) := by
  have hvalid := c.valid
  simp only [UInt32.isValidChar,Nat.isValidChar] at hvalid
  have hnat : c.toNat = c.val.toNat := rfl
  unfold unitsOf
  by_cases hbasic : c.toNat < 0x10000
  · rw [if_pos hbasic]
    cases units with
    | nil => simp [joinUnits,charOf_toNat]
    | cons u us =>
      have hnot := hunits u us rfl
      rw [List.singleton_append,joinUnits,if_neg (by omega),charOf_toNat]
      rfl
  · have hpair : 0x10000+(0xD800+(c.toNat-0x10000)/0x400-0xD800)*0x400 +
        (0xDC00+(c.toNat-0x10000)%0x400-0xDC00) = c.toNat := by omega
    rw [if_neg hbasic,List.cons_append,List.singleton_append,joinUnits,if_pos (by omega),hpair,
      charOf_toNat]
    rfl

theorem joinUnits_flatMap (cs : List Char) : joinUnits (cs.flatMap unitsOf) = some cs := by
  induction cs with
  | nil => rfl
  | cons c cs ih =>
    rw [List.flatMap_cons,joinUnits_unitsOf,ih]
    · rfl
    · intro u us hus
      cases cs with
      | nil => cases hus
      | cons d cs =>
        obtain ⟨v,vs,hd,hv⟩ := unitsOf_head d
        rw [List.flatMap_cons,hd] at hus
        cases hus
        exact hv

theorem reads_dumpString (s : String) : Reads (dumpString s) (.str s) where
  read n rest _ := by
    have htext : dumpString s ++ rest = '"'::(s.toList.flatMap escapeChar ++ '"'::rest) := by
      simp [dumpString]
    rw [htext,readValue,readString,readUnits_dump]
    simp [joinUnits_flatMap]
  skip _ := rfl

/-! ### How long it is -/

end Json
namespace Text

/-- The bytes that characters take in UTF-8. -/
def byteSize (cs : List Char) : ℕ := (cs.map Char.utf8Size).sum

@[simp] theorem byteSize_nil : byteSize [] = 0 := rfl

@[simp] theorem byteSize_cons (c : Char) (cs : List Char) :
    byteSize (c::cs) = c.utf8Size+byteSize cs := List.sum_cons

@[simp] theorem byteSize_append (cs ds : List Char) :
    byteSize (cs ++ ds) = byteSize cs+byteSize ds := by simp [byteSize]

theorem utf8Length_ofList (cs : List Char) : utf8Length (String.ofList cs) = byteSize cs := by
  induction cs with
  | nil => rfl
  | cons c cs ih =>
    unfold utf8Length at *
    rw [String.ofList_cons,String.utf8ByteSize_append,String.utf8ByteSize_singleton,ih,byteSize_cons]

theorem utf8Length_eq (s : String) : utf8Length s = byteSize s.toList := by
  rw [← utf8Length_ofList,String.ofList_toList]

theorem length_le_utf8Length (s : String) : s.length ≤ utf8Length s := by
  rw [utf8Length_eq,← String.length_toList]
  generalize s.toList = cs
  induction cs with
  | nil => simp
  | cons c cs ih =>
    have hpos := c.utf8Size_pos
    rw [List.length_cons,byteSize_cons]
    omega

theorem length_encodeUtf8 (s : String) : (encodeUtf8 s).length = utf8Length s := by
  simp [encodeUtf8,utf8Length,String.toUTF8]

end Text
namespace Json
open Text (byteSize)

/-- Two signs for a quote or a backslash are the longest escapes of printable text. -/
theorem byteSize_escapeRaw {c : Char} (h : Text.isControl c = false) :
    byteSize (escapeRaw c) ≤ 2*c.utf8Size := by
  have hctl : ¬c.toNat < 0x20 := by
    simp only [Text.isControl,Bool.or_eq_false_iff,decide_eq_false_iff_not] at h
    exact h.1
  have hpos := c.utf8Size_pos
  have hshort : ∀ d : Char, d.utf8Size = 1 → byteSize ['\\',d] ≤ 2*c.utf8Size := by
    intro d hd
    have hback : ('\\').utf8Size = 1 := by decide
    simp only [Text.byteSize_cons,Text.byteSize_nil,hd,hback]
    omega
  unfold escapeRaw
  split_ifs
  all_goals first | exact hshort _ (by decide) | skip
  simp only [Text.byteSize_cons,Text.byteSize_nil]
  omega

theorem byteSize_escapes {cs : List Char} (h : ∀ c ∈ cs, Text.isControl c = false) :
    byteSize (cs.flatMap escapeRaw) ≤ 2*byteSize cs := by
  induction cs with
  | nil => simp
  | cons c cs ih =>
    have hhead := byteSize_escapeRaw (h c List.mem_cons_self)
    have htail := ih fun d hd => h d (List.mem_cons_of_mem c hd)
    rw [List.flatMap_cons,Text.byteSize_append,Text.byteSize_cons]
    omega

/-- A bounded text at most doubles, besides its quotes. -/
theorem byteSize_writeString {limit : ℕ} {s : String}
    (h : Text.bounded Text.utf8Length limit s = true) :
    byteSize (writeString s) ≤ 2*limit+2 := by
  simp only [Text.bounded,Bool.and_eq_true,decide_eq_true_eq,Bool.not_eq_true',
    List.any_eq_false,Bool.not_eq_true] at h
  have hescapes := byteSize_escapes h.2
  have hlimit := h.1.2
  rw [Text.utf8Length_eq] at hlimit
  have hquote : ('"').utf8Size = 1 := by decide
  simp only [writeString,List.cons_append,Text.byteSize_cons,Text.byteSize_append,
    Text.byteSize_nil,hquote]
  omega

theorem byteSize_digits {digits : List Char} (h : ∀ c ∈ digits, c.isDigit = true) :
    byteSize digits = digits.length := by
  induction digits with
  | nil => rfl
  | cons c cs ih =>
    have htail := ih fun d hd => h d (List.mem_cons_of_mem c hd)
    have hone : c.utf8Size = 1 := by
      have hc := h c List.mem_cons_self
      simp only [Char.isDigit,Bool.and_eq_true,decide_eq_true_eq] at hc
      rw [Char.utf8Size_eq_one_iff]
      exact UInt32.le_trans hc.2 (by decide)
    rw [Text.byteSize_cons,List.length_cons,hone,htail]
    omega

theorem byteSize_writeInt (i : ℤ) : byteSize (writeInt i) =
    (Nat.toDigits 10 i.natAbs).length + if i < 0 then 1 else 0 := by
  have hdigits := byteSize_digits (isDigit_toDigits i.natAbs)
  have hminus : ('-').utf8Size = 1 := by decide
  unfold writeInt
  split
  · rw [Text.byteSize_cons,hdigits,hminus]
    omega
  · rw [hdigits]
    rfl

/-- The bytes of a member and the comma or brace after it. -/
def memberSize (f : String × Atom) : ℕ := byteSize (writeString f.1)+byteSize f.2.write+2

theorem byteSize_writeMember (f : String × Atom) : byteSize (writeMember f)+1 = memberSize f := by
  have hcolon : (':').utf8Size = 1 := by decide
  simp only [writeMember,memberSize,Text.byteSize_append,Text.byteSize_cons,hcolon]
  omega

theorem byteSize_writeRest (fields : List (String × Atom)) :
    byteSize (writeRest fields) = (fields.map memberSize).sum := by
  have hcomma : (',').utf8Size = 1 := by decide
  induction fields with
  | nil => rfl
  | cons f fields ih =>
    have hmember := byteSize_writeMember f
    simp only [writeRest_cons,Text.byteSize_append,Text.byteSize_cons,hcomma,ih,
      List.cons_append,List.map_cons,List.sum_cons]
    omega

theorem byteSize_writeObject {fields : List (String × Atom)} (h : fields ≠ []) :
    byteSize (writeObject fields) = 1+(fields.map memberSize).sum := by
  cases fields with
  | nil => exact absurd rfl h
  | cons f fields =>
    have hmember := byteSize_writeMember f
    have hopen : ('{').utf8Size = 1 := by decide
    have hclose : ('}').utf8Size = 1 := by decide
    simp only [writeObject,List.cons_append,Text.byteSize_append,Text.byteSize_cons,
      Text.byteSize_nil,byteSize_writeRest,hopen,hclose,List.map_cons,List.sum_cons]
    omega

/-- The bytes of a text within a JSON string. -/
def escapedSize (s : String) : ℕ := Text.byteSize (s.toList.flatMap escapeRaw)

theorem byteSize_writeString_eq (s : String) : Text.byteSize (writeString s) = escapedSize s+2 := by
  have hquote : ('"').utf8Size = 1 := by decide
  simp only [writeString,escapedSize,List.cons_append,Text.byteSize_cons,Text.byteSize_append,
    Text.byteSize_nil,hquote]
  omega

theorem escapedSize_append (s s' : String) : escapedSize (s ++ s') = escapedSize s+escapedSize s' := by
  simp [escapedSize]

end Json
end CloudBrowser
