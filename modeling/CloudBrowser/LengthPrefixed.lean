import CloudBrowser.WebSockets

/-! Streams of chunks, each behind its length in so many bytes, that a chunk of no length ends. -/
namespace LengthPrefixed

open WebSockets (bigEndian ofBytes)

def encodeChunk (width : ℕ) (chunk : List UInt8) : List UInt8 :=
  bigEndian width chunk.length ++ chunk

def encode (width : ℕ) (chunks : List (List UInt8)) : List UInt8 :=
  chunks.flatMap (encodeChunk width) ++ bigEndian width 0

/-- What a stream carries and what follows it, read with so many chunks at most. -/
def decode (width : ℕ) : ℕ → List UInt8 → Option (List UInt8 × List UInt8)
  | 0, _ => none
  | fuel+1, bytes =>
    let size := ofBytes (bytes.take width)
    let rest := bytes.drop width
    if bytes.length < width then none
    else if size = 0 then some ([],rest)
    else if rest.length < size then none
    else (decode width fuel (rest.drop size)).map fun r => (rest.take size ++ r.1,r.2)

variable {width : ℕ} {chunk : List UInt8} {chunks : List (List UInt8)}

theorem decode_end (fuel : ℕ) (rest : List UInt8) :
    decode width (fuel+1) (bigEndian width 0 ++ rest) = some ([],rest) := by
  have hlength : ¬(bigEndian width 0 ++ rest).length < width := by simp
  have hsize : ofBytes (bigEndian width 0) = 0 :=
    WebSockets.ofBytes_bigEndian (Nat.pow_pos (by decide))
  simp only [decode,if_neg hlength,List.take_left' (WebSockets.length_bigEndian width 0),
    List.drop_left' (WebSockets.length_bigEndian width 0),hsize,if_true]

theorem decode_chunk (hne : chunk ≠ []) (hlength : chunk.length < 256^width) (fuel : ℕ)
    (rest : List UInt8) : decode width (fuel+1) (encodeChunk width chunk ++ rest) =
      (decode width fuel rest).map fun r => (chunk ++ r.1,r.2) := by
  have hhead := WebSockets.length_bigEndian width chunk.length
  have hlong : ¬(bigEndian width chunk.length ++ (chunk ++ rest)).length < width := by simp
  have hsize := WebSockets.ofBytes_bigEndian hlength
  have hpos : ¬chunk.length = 0 := fun h => hne (List.length_eq_zero_iff.mp h)
  have hrest : ¬(chunk ++ rest).length < chunk.length := by simp
  rw [encodeChunk,List.append_assoc]
  simp only [decode,if_neg hlong,List.take_left' hhead,List.drop_left' hhead,hsize,if_neg hpos,
    if_neg hrest,List.take_left' rfl,List.drop_left' rfl]

/-- Chunks that are not empty are read back as what they carry together. -/
theorem decode_encode (h : ∀ c ∈ chunks, c ≠ [] ∧ c.length < 256^width) {fuel : ℕ}
    (hfuel : chunks.length < fuel) (rest : List UInt8) :
    decode width fuel (encode width chunks ++ rest) = some (chunks.flatten,rest) := by
  induction chunks generalizing fuel with
  | nil =>
    obtain ⟨fuel,rfl⟩ := Nat.exists_eq_succ_of_ne_zero (Nat.pos_iff_ne_zero.mp hfuel)
    exact decode_end fuel rest
  | cons c chunks ih =>
    obtain ⟨fuel,rfl⟩ := Nat.exists_eq_succ_of_ne_zero (Nat.ne_zero_of_lt hfuel)
    obtain ⟨⟨hne,hlength⟩,hchunks⟩ := List.forall_mem_cons.mp h
    have hnext := ih hchunks (Nat.lt_of_succ_lt_succ hfuel)
    have htext : encode width (c::chunks) ++ rest =
        encodeChunk width c ++ (encode width chunks ++ rest) := by simp [encode]
    rw [htext,decode_chunk hne hlength,hnext]
    rfl

end LengthPrefixed
