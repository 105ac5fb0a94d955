import CloudBrowser.Base64

/-! Base64 with padding, and the lenient reader of it: signs outside the alphabet are passed
over, and what follows a completed padding is not read. -/
namespace PaddedBase64

def alphabet : List Char :=
  "ABCDEFGHIJKLMNOPQRSTUVWXYZabcdefghijklmnopqrstuvwxyz0123456789+/".toList

def digit (n : ℕ) : Char := alphabet.getD n 'A'

def value (c : Char) : Option ℕ := alphabet.idxOf? c

theorem digit_spec : ∀ n < 64, value (digit n) = some n ∧ digit n ≠ '=' ∧ digit n ≠ '|' ∧
    (digit n).toNat < 128 := by
  decide +kernel

theorem value_digit (n : ℕ) (h : n < 64) : value (digit n) = some n := (digit_spec n h).1

theorem digit_plain (n : ℕ) (h : n < 64) :
    digit n ≠ '=' ∧ digit n ≠ '|' ∧ (digit n).toNat < 128 :=
  (digit_spec n h).2

def encode : List UInt8 → List Char
  | [] => []
  | [a] => let n := a.toNat*16; [digit (n/64),digit (n%64),'=','=']
  | [a,b] =>
    let n := (a.toNat*256+b.toNat)*4
    [digit (n/4096),digit (n/64%64),digit (n%64),'=']
  | a::b::c::bytes =>
    let n := (a.toNat*256+b.toNat)*256+c.toNat
    digit (n/262144)::digit (n/4096%64)::digit (n/64%64)::digit (n%64)::encode bytes

/-- The reader at a place of a group of four digits, with the bits that are left over from the
last digit and the signs of padding since then. -/
def decodeFrom (quad left pads : ℕ) : List Char → Option (List UInt8)
  | [] => if quad = 0 then some [] else none
  | c::cs =>
    if c = '=' then
      if 2 ≤ quad then
        if 4 ≤ quad+(pads+1) then some [] else decodeFrom quad left (pads+1) cs
      else decodeFrom quad left pads cs
    else match value c with
      | none => decodeFrom quad left pads cs
      | some v =>
        match quad with
        | 0 => decodeFrom 1 v 0 cs
        | 1 => (decodeFrom 2 (v%16) 0 cs).map (UInt8.ofNat (left*4+v/16) :: ·)
        | 2 => (decodeFrom 3 (v%4) 0 cs).map (UInt8.ofNat (left*16+v/4) :: ·)
        | _ => (decodeFrom 0 0 0 cs).map (UInt8.ofNat (left*64+v) :: ·)

/-- `base64.b64decode` of a text, which has to be ASCII. -/
def decode (text : List Char) : Option (List UInt8) :=
  if text.all (·.toNat < 128) then decodeFrom 0 0 0 text else none

attribute [local simp] encode decodeFrom

section Digits

variable {n left pads : ℕ} {cs : List Char}

theorem decodeFrom_first (h : n < 64) :
    decodeFrom 0 left pads (digit n::cs) = decodeFrom 1 n 0 cs := by
  simp [(digit_plain n h).1,value_digit n h]

theorem decodeFrom_second (h : n < 64) : decodeFrom 1 left pads (digit n::cs) =
    (decodeFrom 2 (n%16) 0 cs).map (UInt8.ofNat (left*4+n/16) :: ·) := by
  simp [(digit_plain n h).1,value_digit n h]

theorem decodeFrom_third (h : n < 64) : decodeFrom 2 left pads (digit n::cs) =
    (decodeFrom 3 (n%4) 0 cs).map (UInt8.ofNat (left*16+n/4) :: ·) := by
  simp [(digit_plain n h).1,value_digit n h]

theorem decodeFrom_fourth (h : n < 64) : decodeFrom 3 left pads (digit n::cs) =
    (decodeFrom 0 0 0 cs).map (UInt8.ofNat (left*64+n) :: ·) := by
  simp [(digit_plain n h).1,value_digit n h]

end Digits

theorem decodeFrom_encode (bytes : List UInt8) : decodeFrom 0 0 0 (encode bytes) = some bytes := by
  induction bytes using encode.induct with
  | case1 => rfl
  | case2 a =>
    have ha := a.toNat_lt
    rw [encode,decodeFrom_first (by omega),decodeFrom_second (by omega)]
    simp only [decodeFrom,if_true,if_pos (Nat.le_refl 2)]
    rw [Base64.ofNat_eq (a:=a) (by omega)]
    rfl
  | case3 a b =>
    have ha := a.toNat_lt
    have hb := b.toNat_lt
    rw [encode,decodeFrom_first (by omega),decodeFrom_second (by omega),
      decodeFrom_third (by omega)]
    simp only [decodeFrom,if_true]
    rw [Base64.ofNat_eq (a:=a) (by omega),Base64.ofNat_eq (a:=b) (by omega)]
    rfl
  | case4 a b c bytes ih =>
    have ha := a.toNat_lt
    have hb := b.toNat_lt
    have hc := c.toNat_lt
    rw [encode,decodeFrom_first (by omega),decodeFrom_second (by omega),
      decodeFrom_third (by omega),decodeFrom_fourth (by omega),ih]
    rw [Base64.ofNat_eq (a:=a) (by omega),Base64.ofNat_eq (a:=b) (by omega),
      Base64.ofNat_eq (a:=c) (by omega)]
    rfl

theorem encode_plain (bytes : List UInt8) : ∀ c ∈ encode bytes, c ≠ '|' ∧ c.toNat < 128 := by
  have hpad : '=' ≠ '|' ∧ '='.toNat < 128 := by decide
  have hplain : ∀ n < 64, digit n ≠ '|' ∧ (digit n).toNat < 128 := fun n h => (digit_plain n h).2
  induction bytes using encode.induct with
  | case1 => simp [encode]
  | case2 a =>
    have ha := a.toNat_lt
    intro c hc
    simp only [encode,List.mem_cons,List.not_mem_nil,or_false] at hc
    rcases hc with rfl | rfl | rfl | rfl
    · exact hplain _ (by omega)
    · exact hplain _ (by omega)
    · exact hpad
    · exact hpad
  | case3 a b =>
    have ha := a.toNat_lt
    have hb := b.toNat_lt
    intro c hc
    simp only [encode,List.mem_cons,List.not_mem_nil,or_false] at hc
    rcases hc with rfl | rfl | rfl | rfl
    · exact hplain _ (by omega)
    · exact hplain _ (by omega)
    · exact hplain _ (by omega)
    · exact hpad
  | case4 a b c bytes ih =>
    have ha := a.toNat_lt
    have hb := b.toNat_lt
    have hc := c.toNat_lt
    intro d hd
    simp only [encode,List.mem_cons] at hd
    rcases hd with rfl | rfl | rfl | rfl | hd
    · exact hplain _ (by omega)
    · exact hplain _ (by omega)
    · exact hplain _ (by omega)
    · exact hplain _ (by omega)
    · exact ih d hd

theorem decode_encode (bytes : List UInt8) : decode (encode bytes) = some bytes := by
  have hascii : (encode bytes).all (·.toNat < 128) = true := by
    simpa using fun c hc => (encode_plain bytes c hc).2
  rw [decode,if_pos hascii,decodeFrom_encode]

theorem encode_ne_nil {bytes : List UInt8} (h : bytes ≠ []) : encode bytes ≠ [] := by
  intro hnil
  have hback := decode_encode bytes
  rw [hnil] at hback
  exact h (Option.some.inj hback).symm

end PaddedBase64
