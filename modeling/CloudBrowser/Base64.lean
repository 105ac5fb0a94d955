import Mathlib.Tactic.Common

/-! The URL-safe base64 code without padding: three bytes to four digits. -/
namespace Base64

def alphabet : List Char :=
  "ABCDEFGHIJKLMNOPQRSTUVWXYZabcdefghijklmnopqrstuvwxyz0123456789-_".toList

def digit (n : ℕ) : Char := alphabet.getD n 'A'

def value (c : Char) : Option ℕ := alphabet.idxOf? c

/-- A property of every digit that is evaluated digit by digit. -/
theorem forall_alphabet {p : Char → Prop} [DecidablePred p]
    (h : (alphabet.all fun c => decide (p c)) = true) : ∀ c ∈ alphabet, p c := by
  simpa using h

theorem digit_spec : ∀ n < 64, value (digit n) = some n ∧ digit n ∈ alphabet := by decide +kernel

theorem value_digit (n : ℕ) (h : n < 64) : value (digit n) = some n := (digit_spec n h).1

theorem digit_mem (n : ℕ) (h : n < 64) : digit n ∈ alphabet := (digit_spec n h).2

def encode : List UInt8 → List Char
  | [] => []
  | [a] => let n := a.toNat*16; [digit (n/64),digit (n%64)]
  | [a,b] =>
    let n := (a.toNat*256+b.toNat)*4
    [digit (n/4096),digit (n/64%64),digit (n%64)]
  | a::b::c::bytes =>
    let n := (a.toNat*256+b.toNat)*256+c.toNat
    digit (n/262144)::digit (n/4096%64)::digit (n/64%64)::digit (n%64)::encode bytes

/-- The bytes that a sequence of six-bit values stands for; trailing bits that do not fill a
byte are dropped, and a single left-over value stands for nothing. -/
def decodeValues : List ℕ → Option (List UInt8)
  | [] => some []
  | [_] => none
  | [w,x] => some [UInt8.ofNat ((w*64+x)/16)]
  | [w,x,y] =>
    let n := (w*64+x)*64+y
    some [UInt8.ofNat (n/1024),UInt8.ofNat (n/4)]
  | w::x::y::z::values =>
    let n := ((w*64+x)*64+y)*64+z
    (decodeValues values).map ([UInt8.ofNat (n/65536),UInt8.ofNat (n/256),UInt8.ofNat n] ++ ·)

def decode (digits : List Char) : Option (List UInt8) := (digits.mapM value).bind decodeValues

attribute [local simp] encode decodeValues decode

theorem encode_alphabet (bytes : List UInt8) : ∀ c ∈ encode bytes, c ∈ alphabet := by
  induction bytes using encode.induct with
  | case1 => simp [encode]
  | case2 a =>
    have ha := a.toNat_lt
    intro c hc
    simp only [encode,List.mem_cons,List.not_mem_nil,or_false] at hc
    rcases hc with rfl | rfl <;> exact digit_mem _ (by omega)
  | case3 a b =>
    have ha := a.toNat_lt
    have hb := b.toNat_lt
    intro c hc
    simp only [encode,List.mem_cons,List.not_mem_nil,or_false] at hc
    rcases hc with rfl | rfl | rfl <;> exact digit_mem _ (by omega)
  | case4 a b c bytes ih =>
    have ha := a.toNat_lt
    have hb := b.toNat_lt
    have hc := c.toNat_lt
    intro d hd
    simp only [encode,List.mem_cons] at hd
    rcases hd with rfl | rfl | rfl | rfl | hd
    · exact digit_mem _ (by omega)
    · exact digit_mem _ (by omega)
    · exact digit_mem _ (by omega)
    · exact digit_mem _ (by omega)
    · exact ih d hd

theorem length_encode (bytes : List UInt8) : (encode bytes).length = (4*bytes.length+2)/3 := by
  induction bytes using encode.induct with
  | case1 => rfl
  | case2 a => simp [encode]
  | case3 a b => simp [encode]
  | case4 a b c bytes ih =>
    simp only [encode,List.length_cons,ih]
    omega

theorem ofNat_eq {n : ℕ} {a : UInt8} (h : n % 256 = a.toNat) : UInt8.ofNat n = a := by
  apply UInt8.toNat_inj.mp
  rw [UInt8.toNat_ofNat',h]

theorem decode_encode (bytes : List UInt8) : decode (encode bytes) = some bytes := by
  induction bytes using encode.induct with
  | case1 => rfl
  | case2 a =>
    have ha := a.toNat_lt
    simp only [decode,encode]
    rw [List.mapM_cons,value_digit _ (by omega),List.mapM_cons,value_digit _ (by omega)]
    simp only [List.mapM_nil,Option.pure_def,Option.bind_eq_bind,Option.bind_some,decodeValues]
    rw [ofNat_eq (a:=a) (by omega)]
  | case3 a b =>
    have ha := a.toNat_lt
    have hb := b.toNat_lt
    simp only [decode,encode]
    rw [List.mapM_cons,value_digit _ (by omega),List.mapM_cons,value_digit _ (by omega),
      List.mapM_cons,value_digit _ (by omega)]
    simp only [List.mapM_nil,Option.pure_def,Option.bind_eq_bind,Option.bind_some,decodeValues]
    rw [ofNat_eq (a:=a) (by omega),ofNat_eq (a:=b) (by omega)]
  | case4 a b c bytes ih =>
    have ha := a.toNat_lt
    have hb := b.toNat_lt
    have hc := c.toNat_lt
    obtain ⟨values,hvalues,hrest⟩ := Option.bind_eq_some_iff.mp ih
    simp only [decode,encode]
    rw [List.mapM_cons,value_digit _ (by omega),List.mapM_cons,value_digit _ (by omega),
      List.mapM_cons,value_digit _ (by omega),List.mapM_cons,value_digit _ (by omega),hvalues]
    simp only [Option.pure_def,Option.bind_eq_bind,Option.bind_some,decodeValues,hrest,
      Option.map_some,List.cons_append,List.nil_append]
    rw [ofNat_eq (a:=a) (by omega),ofNat_eq (a:=b) (by omega),ofNat_eq (a:=c) (by omega)]

end Base64
