import CloudBrowser.FileNames
import Mathlib.Data.List.SplitBy

/-! Percent-encoding of whole texts: `urllib.parse.quote` without safe characters, which `unquote`
undoes. -/
namespace CloudBrowser
namespace CloudFiles

/-- The bytes that `quote` writes as they are: letters, digits and `_.-~`. -/
def isUnreserved (b : UInt8) : Bool :=
  (0x30 ≤ b && b ≤ 0x39) || (0x41 ≤ b && b ≤ 0x5A) || (0x61 ≤ b && b ≤ 0x7A) ||
    [0x5F,0x2E,0x2D,0x7E].contains b

def upperDigit (n : ℕ) : Char := if n < 10 then Char.ofNat (0x30+n) else Char.ofNat (0x37+n)

def quoteByte (b : UInt8) : List Char :=
  if isUnreserved b then [Char.ofNat b.toNat]
  else ['%',upperDigit (b.toNat/16),upperDigit (b.toNat%16)]

/-- `quote(text, safe="")`. -/
def quote (text : String) : String := String.ofList ((Text.encodeUtf8 text).flatMap quoteByte)

section Bytes

theorem hexValue_upperDigit : ∀ n < 16, Json.hexValue (upperDigit n) = some n := by decide

theorem forall_byte {P : UInt8 → Prop} (h : ∀ n < 256, P (UInt8.ofNat n)) (b : UInt8) : P b := by
  have hb := h b.toNat b.toNat_lt
  rwa [UInt8.ofNat_toNat] at hb

theorem unreserved_char (b : UInt8) (h : isUnreserved b = true) :
    Char.ofNat b.toNat ≠ '%' ∧ UInt8.ofNat (Char.ofNat b.toNat).toNat = b := by
  revert h
  apply forall_byte (P:=fun b => isUnreserved b = true →
    Char.ofNat b.toNat ≠ '%' ∧ UInt8.ofNat (Char.ofNat b.toNat).toNat = b)
  decide +kernel

theorem unquoteToBytes_plain {c : Char} (h : c ≠ '%') (rest : List Char) :
    unquoteToBytes (c::rest) = UInt8.ofNat c.toNat :: unquoteToBytes rest := by
  rw [unquoteToBytes.eq_def]
  split <;> simp_all

theorem unquoteToBytes_quoteByte (b : UInt8) (rest : List Char) :
    unquoteToBytes (quoteByte b ++ rest) = b :: unquoteToBytes rest := by
  have hlt := b.toNat_lt
  rw [quoteByte]
  split
  · rename_i h
    obtain ⟨hpercent,hbyte⟩ := unreserved_char b h
    rw [List.singleton_append,unquoteToBytes_plain hpercent,hbyte]
  · simp only [List.cons_append,List.nil_append]
    rw [unquoteToBytes,hexValue_upperDigit _ (by omega),hexValue_upperDigit _ (by omega)]
    dsimp only
    rw [Nat.div_add_mod,UInt8.ofNat_toNat]

theorem unquoteToBytes_quoted (bytes : Bytes) : unquoteToBytes (bytes.flatMap quoteByte) = bytes := by
  induction bytes with
  | nil => rfl
  | cons b bytes ih => rw [List.flatMap_cons,unquoteToBytes_quoteByte,ih]

/-- What `quote` writes: unreserved characters, percent signs and digits. -/
def isQuoted (c : Char) : Bool :=
  c = '%' || (c.val < 0x80 && isUnreserved (UInt8.ofNat c.toNat))

theorem isQuoted_quoteByte (b : UInt8) : (quoteByte b).all isQuoted = true := by
  apply forall_byte (P:=fun b => (quoteByte b).all isQuoted = true)
  decide +kernel

theorem isQuoted_quoted {bytes : Bytes} {c : Char} (h : c ∈ bytes.flatMap quoteByte) :
    isQuoted c = true := by
  obtain ⟨b,-,hc⟩ := List.mem_flatMap.mp h
  exact List.all_eq_true.mp (isQuoted_quoteByte b) c hc

theorem length_quoteByte (b : UInt8) : (quoteByte b).length ≤ 3 := by
  rw [quoteByte]
  split <;> simp

theorem length_quoted (bytes : Bytes) : (bytes.flatMap quoteByte).length ≤ 3*bytes.length := by
  induction bytes with
  | nil => rfl
  | cons b bytes ih =>
    have hb := length_quoteByte b
    rw [List.flatMap_cons,List.length_append,List.length_cons]
    omega

end Bytes

section Texts

variable {text : String} {cs : List Char}

theorem isAscii_of_isQuoted {c : Char} (h : isQuoted c = true) : isAscii c = true := by
  simp only [isQuoted,Bool.or_eq_true,Bool.and_eq_true,decide_eq_true_eq] at h
  rcases h with rfl | h
  · rfl
  · simpa [isAscii] using h.1

theorem unquoteToBytes_unescaped (h : '%' ∉ cs) :
    unquoteToBytes cs = cs.map fun c => UInt8.ofNat c.toNat := by
  induction cs with
  | nil => rfl
  | cons c cs ih =>
    simp only [List.mem_cons,not_or] at h
    rw [unquoteToBytes_plain (Ne.symm h.1),ih h.2,List.map_cons]

theorem encodeUtf8_ascii (h : ∀ c ∈ cs, isAscii c = true) :
    Text.encodeUtf8 (String.ofList cs) = cs.map fun c => UInt8.ofNat c.toNat := by
  have hsingle : cs.flatMap String.utf8EncodeChar = cs.map fun c => UInt8.ofNat c.toNat := by
    induction cs with
    | nil => rfl
    | cons c cs ih =>
      have hc := h c List.mem_cons_self
      simp only [isAscii,decide_eq_true_eq] at hc
      have hsize : c.utf8Size = 1 := by
        rw [Char.utf8Size_eq_one_iff]
        exact UInt32.lt_iff_toNat_lt.mp hc |> Nat.le_of_lt_succ
      rw [List.flatMap_cons,List.map_cons,String.utf8EncodeChar_eq_singleton hsize,
        ih fun d hd => h d (List.mem_cons_of_mem c hd)]
      rfl
  rw [Text.encodeUtf8,String.toUTF8,String.toByteArray_ofList,List.utf8Encode,hsingle]
  simp

/-- `unquote` undoes `quote`. -/
theorem unquote_quote (text : String) : unquote (quote text) = some text := by
  have hbytes := unquoteToBytes_quoted (Text.encodeUtf8 text)
  have hascii : ∀ c ∈ (Text.encodeUtf8 text).flatMap quoteByte, isAscii c = true := fun c hc =>
    isAscii_of_isQuoted (isQuoted_quoted hc)
  have hlist : (quote text).toList = (Text.encodeUtf8 text).flatMap quoteByte :=
    String.toList_ofList
  rw [unquote,hlist]
  split
  · rename_i hpercent
    have hsame : Text.encodeUtf8 (quote text) = Text.encodeUtf8 text := by
      rw [quote,encodeUtf8_ascii hascii,← unquoteToBytes_unescaped hpercent,hbytes]
    rw [Text.encodeUtf8_injective hsame]
  · rename_i hpercent
    have hne : (Text.encodeUtf8 text).flatMap quoteByte ≠ [] := by
      intro hnil
      simp [hnil] at hpercent
    have hchain : List.IsChain (fun a b => (isAscii a == isAscii b) = true)
        ((Text.encodeUtf8 text).flatMap quoteByte) := by
      apply List.Pairwise.isChain
      apply List.pairwise_of_forall_mem_list
      intro a ha b hb
      simp [hascii a ha,hascii b hb]
    rw [List.splitBy_of_isChain hne hchain]
    have hall : ((Text.encodeUtf8 text).flatMap quoteByte).all isAscii = true :=
      List.all_eq_true.mpr hascii
    simp only [List.mapM_cons,List.mapM_nil,if_pos hall,hbytes,Text.decodeUtf8_encodeUtf8]
    exact congrArg some String.empty_append

end Texts

end CloudFiles
end CloudBrowser
