import CloudBrowser.Text

/-! Latin-1, where each byte stands for the character with its number. -/
namespace CloudBrowser
namespace Text

def isLatin1 (c : Char) : Bool := c.val < 0x100

def byteChar (x : UInt8) : Char := Char.ofNat x.toNat

def decodeLatin1 (b : Bytes) : String := String.ofList (b.map byteChar)

/-- Strict encoding: nothing for a text with other characters. -/
def encodeLatin1 (s : String) : Option Bytes :=
  if s.toList.all isLatin1 then some (s.toList.map fun c => UInt8.ofNat c.toNat) else none

theorem toNat_byteChar (x : UInt8) : (byteChar x).toNat = x.toNat := by
  have hlt := x.toNat_lt
  have hvalid : x.toNat.isValidChar := by
    left
    omega
  rw [byteChar,Char.ofNat,dif_pos hvalid]
  rfl

theorem byteChar_injective : Function.Injective byteChar := by
  intro x y h
  apply UInt8.toNat_inj.mp
  rw [← toNat_byteChar x,h,toNat_byteChar]

theorem isLatin1_byteChar (x : UInt8) : isLatin1 (byteChar x) = true := by
  have hlt := x.toNat_lt
  have hnat := toNat_byteChar x
  simp only [isLatin1,decide_eq_true_eq,UInt32.lt_iff_toNat_lt]
  show (byteChar x).toNat < 256
  omega

theorem decodeLatin1_append (a b : Bytes) :
    decodeLatin1 (a ++ b) = decodeLatin1 a ++ decodeLatin1 b := by
  simp [decodeLatin1]

theorem decodeLatin1_injective : Function.Injective decodeLatin1 := fun _ _ h =>
  List.map_injective_iff.mpr byteChar_injective (String.ofList_injective h)

theorem encodeLatin1_decodeLatin1 (b : Bytes) : encodeLatin1 (decodeLatin1 b) = some b := by
  have hall : (decodeLatin1 b).toList.all isLatin1 = true := by
    simp [decodeLatin1,isLatin1_byteChar]
  have hid : (fun c => UInt8.ofNat c.toNat) ∘ byteChar = id := by
    funext x
    simp [toNat_byteChar]
  rw [encodeLatin1,if_pos hall]
  simp [decodeLatin1,hid]

end Text
end CloudBrowser
