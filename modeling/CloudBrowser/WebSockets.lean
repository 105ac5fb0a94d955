import Mathlib.Tactic.Common
import Mathlib.Data.List.Basic
import Mathlib.Algebra.Group.Nat.Defs
import Mathlib.Data.Option.Basic

/-! WebSocket frames: how they are written, and a strict reader of them. -/
namespace WebSockets

/-! ### Numbers -/

/-- A number in so many bytes, the highest first. -/
def bigEndian : ℕ → ℕ → List UInt8
  | 0, _ => []
  | width+1, n => bigEndian width (n/256) ++ [UInt8.ofNat n]

/-- The number that bytes stand for, the highest first. -/
def ofBytes (bytes : List UInt8) : ℕ := bytes.foldl (fun n b => 256*n+b.toNat) 0

@[simp] theorem length_bigEndian (width n : ℕ) : (bigEndian width n).length = width := by
  induction width generalizing n with
  | zero => rfl
  | succ width ih => rw [bigEndian,List.length_append,ih,List.length_singleton]

theorem ofBytes_bigEndian {width n : ℕ} (h : n < 256^width) : ofBytes (bigEndian width n) = n := by
  induction width generalizing n with
  | zero => exact (Nat.lt_one_iff.mp h).symm
  | succ width ih =>
    have hhigh := ih (Nat.div_lt_of_lt_mul (by rwa [Nat.pow_succ,Nat.mul_comm] at h))
    have hlow : (UInt8.ofNat n).toNat = n%256 := UInt8.toNat_ofNat'
    rw [ofBytes] at hhigh
    rw [bigEndian,ofBytes,List.foldl_append,hhigh,List.foldl_cons,List.foldl_nil,hlow]
    omega

/-! ### Masks -/

/-- The four bytes that a payload is masked with. -/
structure Mask where
  first : UInt8
  second : UInt8
  third : UInt8
  fourth : UInt8
  deriving DecidableEq, Repr

namespace Mask

def bytes (mask : Mask) : List UInt8 := [mask.first,mask.second,mask.third,mask.fourth]

/-- Mask the bytes, or take the mask off them. -/
def apply (mask : Mask) (data : List UInt8) : List UInt8 :=
  data.mapIdx fun i byte => byte ^^^ mask.bytes.getD (i%4) 0

@[simp] theorem length_apply (mask : Mask) (data : List UInt8) :
    (mask.apply data).length = data.length := List.length_mapIdx

@[simp] theorem apply_apply (mask : Mask) (data : List UInt8) :
    mask.apply (mask.apply data) = data := by
  apply List.ext_getElem (by simp)
  intro i h h'
  simp only [apply,List.getElem_mapIdx,UInt8.xor_assoc,UInt8.xor_self,UInt8.xor_zero]

end Mask

/-! ### Frames -/

structure Frame where
  fin : Bool
  opcode : ℕ
  mask : Option Mask
  payload : List UInt8
  deriving DecidableEq, Repr

/-- The three ways to write a length: in seven bits, in two bytes and in eight. -/
inductive Form
  | short | medium | long
  deriving DecidableEq, Repr

namespace Form

/-- The lengths that a form can hold. -/
def bound : Form → ℕ
  | short => 126
  | medium => 2^16
  | long => 2^63

/-- The shortest form of a length. -/
def ofLength (n : ℕ) : Form :=
  if n < 126 then short else if n < 2^16 then medium else long

/-- The seven bits of the second byte. -/
def code : Form → ℕ → ℕ
  | short, n => n
  | medium, _ => 126
  | long, _ => 127

/-- The bytes of the length that follow them. -/
def extended : Form → ℕ → List UInt8
  | short, _ => []
  | medium, n => bigEndian 2 n
  | long, n => bigEndian 8 n

variable {form : Form} {n : ℕ}

theorem code_lt (h : n < form.bound) : form.code n < 128 := by
  cases form with
  | short => exact Nat.lt_trans h (by decide)
  | medium => exact (by decide : 126 < 128)
  | long => exact (by decide : 127 < 128)

theorem lt_bound_ofLength (h : n < 2^63) : n < (ofLength n).bound := by
  unfold ofLength
  split_ifs with hshort hmedium
  · exact hshort
  · exact hmedium
  · exact h

end Form

/-- The bytes of the mask, if there is one. -/
def maskBytes : Option Mask → List UInt8
  | none => []
  | some mask => mask.bytes

/-- The payload under the mask, or the payload that was under it. -/
def cover : Option Mask → List UInt8 → List UInt8
  | none, payload => payload
  | some mask, payload => mask.apply payload

/-- A frame with its length in the given form. -/
def Frame.encode (form : Form) (f : Frame) : List UInt8 :=
  UInt8.ofNat ((if f.fin then 128 else 0)+f.opcode) ::
    UInt8.ofNat ((if f.mask.isSome then 128 else 0)+form.code f.payload.length) ::
    (form.extended f.payload.length ++ (maskBytes f.mask ++ cover f.mask f.payload))

/-- Read a length from its code; each length has one right form. -/
def readLength (code : ℕ) (bytes : List UInt8) : Option (ℕ × List UInt8) :=
  if code < 126 then some (code,bytes)
  else
    let width := if code = 126 then 2 else 8
    let n := ofBytes (bytes.take width)
    if bytes.length < width then none
    else if (Form.ofLength n).code n = code ∧ n < 2^63 then some (n,bytes.drop width)
    else none

def readMask (masked : Bool) (bytes : List UInt8) : Option (Option Mask × List UInt8) :=
  if masked then
    match bytes with
    | a::b::c::d::rest => some (some ⟨a,b,c,d⟩,rest)
    | _ => none
  else some (none,bytes)

/-- Read a frame, and what follows it: no reserved bit is set, the length has its shortest form and
the payload is complete. -/
def decode : List UInt8 → Option (Frame × List UInt8)
  | first::second::rest => do
    guard (first.toNat/16%8 = 0)
    let (length,rest) ← readLength (second.toNat%128) rest
    let (mask,rest) ← readMask (128 ≤ second.toNat) rest
    if rest.length < length then none
    else some (⟨128 ≤ first.toNat,first.toNat%16,mask,cover mask (rest.take length)⟩,
      rest.drop length)
  | _ => none

variable {f : Frame} {rest : List UInt8}

theorem readLength_bigEndian {code width n : ℕ} (hcode : ¬code < 126)
    (hwidth : (if code = 126 then 2 else 8) = width) (hn : n < 256^width)
    (hform : (Form.ofLength n).code n = code) (h : n < 2^63) (rest : List UInt8) :
    readLength code (bigEndian width n ++ rest) = some (n,rest) := by
  have hlength := length_bigEndian width n
  have henough : ¬(bigEndian width n ++ rest).length < width := by
    rw [List.length_append,hlength]
    omega
  unfold readLength
  rw [if_neg hcode,hwidth]
  dsimp only
  rw [List.take_left' hlength,List.drop_left' hlength,ofBytes_bigEndian hn,if_neg henough,
    if_pos ⟨hform,h⟩]

theorem readLength_extended {n : ℕ} (h : n < 2^63) (rest : List UInt8) :
    readLength ((Form.ofLength n).code n) ((Form.ofLength n).extended n ++ rest) =
      some (n,rest) := by
  have hbound := Form.lt_bound_ofLength h
  cases hform : Form.ofLength n with
  | short =>
    rw [hform] at hbound
    exact if_pos hbound
  | medium =>
    rw [hform] at hbound
    have hcode : ¬126 < 126 := by decide
    exact readLength_bigEndian hcode rfl hbound (congrArg (Form.code · n) hform) h rest
  | long =>
    have hcode : ¬127 < 126 := by decide
    have hwide : n < 256^8 := Nat.lt_trans h (by decide)
    exact readLength_bigEndian hcode rfl hwide (congrArg (Form.code · n) hform) h rest

@[simp] theorem length_cover (mask : Option Mask) (payload : List UInt8) :
    (cover mask payload).length = payload.length := by
  cases mask with
  | none => rfl
  | some mask => exact mask.length_apply payload

@[simp] theorem cover_cover (mask : Option Mask) (payload : List UInt8) :
    cover mask (cover mask payload) = payload := by
  cases mask with
  | none => rfl
  | some mask => exact mask.apply_apply payload

theorem readMask_maskBytes (mask : Option Mask) (rest : List UInt8) :
    readMask mask.isSome (maskBytes mask ++ rest) = some (mask,rest) := by
  cases mask <;> rfl

section Flags

variable (flag : Bool) {n : ℕ}

/-- A byte of a flag and of a number below it. -/
theorem toNat_flagged (h : n < 128) :
    (UInt8.ofNat ((if flag then 128 else 0)+n)).toNat = (if flag then 128 else 0)+n := by
  rw [UInt8.toNat_ofNat']
  split_ifs <;> omega

theorem flagged_mod (h : n < 128) : ((if flag then 128 else 0)+n)%128 = n := by
  split_ifs <;> omega

theorem flag_flagged (h : n < 128) : decide (128 ≤ (if flag then 128 else 0)+n) = flag := by
  cases flag
  · simpa using h
  · simp

end Flags

/-- A frame in its shortest form is read back as it is. -/
theorem decode_encode (hopcode : f.opcode < 16) (hlength : f.payload.length < 2^63)
    (rest : List UInt8) :
    decode (f.encode (Form.ofLength f.payload.length) ++ rest) = some (f,rest) := by
  have hcode := Form.code_lt (Form.lt_bound_ofLength hlength)
  have hseven : f.opcode < 128 := Nat.lt_trans hopcode (by decide)
  have hreserved : ((if f.fin then 128 else 0)+f.opcode)/16%8 = 0 ∧
      ((if f.fin then 128 else 0)+f.opcode)%16 = f.opcode := by
    split_ifs <;> omega
  have hshort : ¬(cover f.mask f.payload ++ rest).length < f.payload.length := by
    rw [List.length_append,length_cover]
    omega
  have htake : (cover f.mask f.payload ++ rest).take f.payload.length = cover f.mask f.payload :=
    List.take_left' (length_cover _ _)
  have hdrop : (cover f.mask f.payload ++ rest).drop f.payload.length = rest :=
    List.drop_left' (length_cover _ _)
  simp only [Frame.encode,List.cons_append,List.append_assoc,decode,toNat_flagged _ hseven,
    toNat_flagged _ hcode,flagged_mod _ hcode,flag_flagged _ hseven,flag_flagged _ hcode,
    hreserved,guard_true,readLength_extended hlength,readMask_maskBytes,Option.bind_eq_bind,
    Option.pure_def,Option.bind_some,if_neg hshort,htake,hdrop,cover_cover]

end WebSockets
