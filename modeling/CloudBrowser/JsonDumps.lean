import CloudBrowser.JsonText
import Mathlib.Algebra.Order.BigOperators.Group.List
import Mathlib.Data.List.Sort

/-! What `json.dumps` writes for any value, with `ensure_ascii` and without blanks: it is read
back as that value. -/
namespace CloudBrowser
namespace Json

mutual

/-- `json.dump` with sorted keys and narrow separators; `float` writes the numbers that are not
whole. -/
def dump (float : ℚ → List Char) : Json → List Char
  | .null => ['n','u','l','l']
  | .bool true => ['t','r','u','e']
  | .bool false => ['f','a','l','s','e']
  | .int i => writeInt i
  | .real q => float q
  | .str s => dumpString s
  | .arr items => '[' :: [','].intercalate (dumpItems float items) ++ [']']
  | .obj fields =>
    let sorted := (dumpFields float fields).insertionSort fun f g => f.1 ≤ g.1
    '{' :: [','].intercalate (sorted.map fun f => dumpString f.1 ++ ':' :: f.2) ++ ['}']

def dumpItems (float : ℚ → List Char) : List Json → List (List Char)
  | [] => []
  | v::items => dump float v :: dumpItems float items

def dumpFields (float : ℚ → List Char) : List (String × Json) → List (String × List Char)
  | [] => []
  | (name,v)::fields => (name,dump float v) :: dumpFields float fields

end

section Writing

-- `float.__repr__`
variable (repr : ℚ → List Char)

mutual

/-- `json.dumps(value, separators=(",", ":"))`. -/
def encode : Json → List Char
  | .null => ['n','u','l','l']
  | .bool true => ['t','r','u','e']
  | .bool false => ['f','a','l','s','e']
  | .int i => writeInt i
  | .real q => repr q
  | .str s => dumpString s
  | .arr [] => ['[',']']
  | .arr (v::items) => '[' :: encode v ++ encodeItems items ++ [']']
  | .obj [] => ['{','}']
  | .obj (f::fields) => '{' :: encodeField f ++ encodeFields fields ++ ['}']

/-- The items of an array after the first. -/
def encodeItems : List Json → List Char
  | [] => []
  | v::items => ',' :: encode v ++ encodeItems items

/-- The members of an object after the first. -/
def encodeFields : List (String × Json) → List Char
  | [] => []
  | f::fields => ',' :: encodeField f ++ encodeFields fields

def encodeField : String × Json → List Char
  | (name,v) => dumpString name ++ ':' :: encode v

end

/-- `json.dumps`, as a string. -/
def dumps (v : Json) : String := String.ofList (encode repr v)

/-- The values that are written without a loss: no floats, no name twice, no numeral too long. -/
inductive Plain : Json → Prop
  | null : Plain .null
  | bool (b : Bool) : Plain (.bool b)
  | int (i : ℤ) (h : (Nat.toDigits 10 i.natAbs).length ≤ maxStrDigits) : Plain (.int i)
  | str (s : String) : Plain (.str s)
  | arr (items : List Json) (h : ∀ v ∈ items, Plain v) : Plain (.arr items)
  | obj (fields : List (String × Json)) (h : ∀ f ∈ fields, Plain f.2)
      (distinct : (fields.map Prod.fst).Nodup) : Plain (.obj fields)

end Writing

section Reading

attribute [local simp] encode encodeItems encodeFields encodeField

variable {repr : ℚ → List Char} {reader : List Char → Option (Json × List Char)}

theorem quotes_dumpString : Quotes dumpString := fun name rest =>
  ⟨name.toList.flatMap escapeChar ++ '"'::rest,by simp [dumpString],
    by simp [readString,readUnits_dump,joinUnits_flatMap]⟩

theorem encodeFields_eq (fields : List (String × Json)) :
    encodeFields repr fields = restBy dumpString (fields.map fun f => (f.1,encode repr f.2)) := by
  induction fields with
  | nil => rfl
  | cons f fields ih =>
    obtain ⟨name,v⟩ := f
    rw [encodeFields,encodeField,ih]
    rfl

/-- Induction on the items still to be read. -/
theorem readItems_encode (rest : List Char) (items : List Json) :
    ∀ (v : Json) (fuel : ℕ) (before : List Json), items.length < fuel →
    (∀ w ∈ v::items, ReadBy reader (encode repr w) w) →
    readItems reader fuel (encode repr v ++ (encodeItems repr items ++ ']'::rest)) before =
      some (before ++ v::items,rest) := by
  have hcomma : ∀ text, skipBlanks (','::text) = ','::text := fun _ => rfl
  have hbracket : ∀ text, skipBlanks (']'::text) = ']'::text := fun _ => rfl
  induction items with
  | nil =>
    intro v fuel before hfuel hreads
    obtain ⟨fuel,rfl⟩ := Nat.exists_eq_succ_of_ne_zero (Nat.pos_iff_ne_zero.mp hfuel)
    have hends : endsNumber (']'::rest) := by
      rintro c ⟨⟩
      decide
    rw [encodeItems,List.nil_append,readItems,(hreads v List.mem_cons_self).read _ hends]
    simp only [Option.bind_eq_bind,Option.bind_some,hbracket]
  | cons w items ih =>
    intro v fuel before hfuel hreads
    obtain ⟨fuel,rfl⟩ := Nat.exists_eq_succ_of_ne_zero (Nat.ne_zero_of_lt hfuel)
    have hends : endsNumber (','::(encode repr w ++ (encodeItems repr items ++ ']'::rest))) := by
      rintro c ⟨⟩
      decide
    have hnext := ih w fuel (before ++ [v]) (Nat.lt_of_succ_lt_succ hfuel)
      fun u hu => hreads u (List.mem_cons_of_mem v hu)
    have hskip := (hreads w (by simp)).skip (encodeItems repr items ++ ']'::rest)
    rw [encodeItems,List.append_assoc,List.cons_append,readItems,
      (hreads v List.mem_cons_self).read _ hends]
    simp only [Option.bind_eq_bind,Option.bind_some,hcomma,hskip]
    simpa using hnext

theorem length_encodeItems (items : List Json) : items.length ≤ (encodeItems repr items).length := by
  induction items with
  | nil => simp
  | cons v items ih =>
    simp only [encodeItems,List.cons_append,List.length_cons,List.length_append]
    omega

theorem length_restBy (quote : String → List Char) (fields : List (String × List Char)) :
    fields.length ≤ (restBy quote fields).length := by
  induction fields with
  | nil => simp [restBy]
  | cons f fields ih =>
    have hcons : restBy quote (f::fields) = ',' :: memberBy quote f ++ restBy quote fields := rfl
    rw [hcons]
    simp only [List.cons_append,List.length_cons,List.length_append]
    omega

theorem length_encodeItem {items : List Json} {v : Json} (h : v ∈ items) :
    (encode repr v).length ≤ (encodeItems repr items).length := by
  induction items with
  | nil => cases h
  | cons w items ih =>
    simp only [encodeItems,List.cons_append,List.length_cons,List.length_append]
    rcases List.mem_cons.mp h with rfl | h
    · omega
    · have hle := ih h
      omega

theorem length_encodeField {fields : List (String × Json)} {f : String × Json} (h : f ∈ fields) :
    (encode repr f.2).length ≤ (encodeFields repr fields).length := by
  induction fields with
  | nil => cases h
  | cons g fields ih =>
    obtain ⟨name,v⟩ := g
    simp only [encodeFields,encodeField,List.cons_append,List.length_cons,List.length_append]
    rcases List.mem_cons.mp h with rfl | h
    · dsimp only
      omega
    · have hle := ih h
      omega

/-- No value starts as the end of an array does. -/
theorem encode_head {v : Json} (h : Plain v) : ∃ c cs, encode repr v = c::cs ∧ c ≠ ']' := by
  cases h with
  | null => exact ⟨_,_,rfl,by decide⟩
  | bool b => cases b <;> exact ⟨_,_,rfl,by decide⟩
  | int i _ =>
    obtain ⟨c,cs,hwritten,hc⟩ := writeInt_head i
    refine ⟨c,cs,by rw [encode,hwritten],?_⟩
    rintro rfl
    rcases hc with hc | hc
    · exact absurd hc (by decide)
    · exact absurd hc (by decide)
  | str s => exact ⟨_,_,rfl,by decide⟩
  | arr items _ => cases items <;> exact ⟨_,_,rfl,by decide⟩
  | obj fields _ _ => cases fields <;> exact ⟨_,_,rfl,by decide⟩

theorem readBy_of_reads {text : List Char} {v : Json} (h : Reads text v) {m : ℕ} (hm : 0 < m) :
    ReadBy (readValue m) text v := by
  obtain ⟨m,rfl⟩ := Nat.exists_eq_succ_of_ne_zero hm.ne'
  exact h.readBy m

theorem readBy_array {v : Json} {items : List Json} {m : ℕ} (hv : Plain v)
    (hreads : ∀ w ∈ v::items, ReadBy (readValue m) (encode repr w) w) :
    ReadBy (readValue (m+1)) (encode repr (.arr (v::items))) (.arr (v::items)) where
  read rest _ := by
    obtain ⟨c,cs,hhead,hc⟩ := @encode_head repr v hv
    have htext : encode repr (.arr (v::items)) ++ rest =
        '['::(encode repr v ++ (encodeItems repr items ++ ']'::rest)) := by simp [encode]
    have hskip := (hreads v List.mem_cons_self).skip (encodeItems repr items ++ ']'::rest)
    have hfuel : items.length < (encode repr v ++ (encodeItems repr items ++ ']'::rest)).length := by
      have hlength := @length_encodeItems repr items
      simp only [List.length_append,List.length_cons]
      omega
    have hitems := @readItems_encode repr _ rest items v _ [] hfuel hreads
    rw [htext,readValue,hskip]
    rw [hhead] at hitems ⊢
    split
    · rename_i hbracket
      exact absurd (List.cons.inj hbracket).1 hc
    · rw [hitems]
      rfl
  skip _ := rfl

/-- A field with the text of its value. -/
def withText (repr : ℚ → List Char) (f : String × Json) : TextField := (f.1,encode repr f.2,f.2)

theorem map_withText (fields : List (String × Json)) :
    (fields.map (withText repr)).map TextField.value = fields := by
  simp [withText,TextField.value,Function.comp_def]

theorem readBy_object {f : String × Json} {fields : List (String × Json)} {m : ℕ}
    (hreads : ∀ g ∈ f::fields, ReadBy (readValue m) (encode repr g.2) g.2)
    (hdistinct : ((f::fields).map Prod.fst).Nodup) :
    ReadBy (readValue (m+1)) (encode repr (.obj (f::fields))) (.obj (f::fields)) where
  read rest _ := by
    have hfields : encodeFields repr fields =
        restBy dumpString ((fields.map (withText repr)).map TextField.text) := by
      rw [encodeFields_eq,List.map_map]
      rfl
    have htext : encode repr (.obj (f::fields)) ++ rest = '{'::(memberBy dumpString (withText repr f).text ++
        (restBy dumpString ((fields.map (withText repr)).map TextField.text) ++ '}'::rest)) := by
      have hfield : encodeField repr f = dumpString f.1 ++ ':' :: encode repr f.2 := by
        cases f
        rfl
      rw [encode,hfields,hfield]
      simp [memberBy,withText,TextField.text]
    have hskip := skipBlanks_member quotes_dumpString (withText repr f).text
      (restBy dumpString ((fields.map (withText repr)).map TextField.text) ++ '}'::rest)
    generalize hbody : memberBy dumpString (withText repr f).text ++
      (restBy dumpString ((fields.map (withText repr)).map TextField.text) ++ '}'::rest) = body
      at htext hskip
    obtain ⟨cs,hquote⟩ : ∃ cs, body = '"'::cs := ⟨_,hbody.symm⟩
    have hmembers : readMembers (readValue m) body.length body [] = some (f::fields,rest) := by
      have hfuel : (fields.map (withText repr)).length < body.length := by
        have hlength := length_restBy dumpString ((fields.map (withText repr)).map TextField.text)
        rw [← hbody]
        simp only [List.length_append,List.length_cons,List.length_map] at hlength ⊢
        omega
      have hall : ∀ g ∈ withText repr f :: fields.map (withText repr),
          ReadBy (readValue m) g.2.1 g.2.2 := by
        rw [← List.map_cons]
        intro g' hg'
        obtain ⟨g,hg,rfl⟩ := List.mem_map.mp hg'
        exact hreads g hg
      have hnodup : (([] : List (String × Json)).map Prod.fst ++
          (withText repr f :: fields.map (withText repr)).map Prod.fst).Nodup := by
        simpa [withText,Function.comp_def] using hdistinct
      have hread := readMembers_by quotes_dumpString _ rest _ _ _ [] hfuel hall hnodup
      rw [← List.map_cons,map_withText,hbody] at hread
      exact hread
    rw [htext,readValue,hskip]
    split
    · cases hquote
    · rw [hmembers]
      rfl
  skip _ := rfl

/-- What `json.dumps` writes is read back, with as much fuel as the text is long. -/
theorem readBy_encode {v : Json} (h : Plain v) :
    ∀ m, (encode repr v).length ≤ m → ReadBy (readValue m) (encode repr v) v := by
  induction h with
  | null =>
    intro m hm
    obtain ⟨m,rfl⟩ := Nat.exists_eq_succ_of_ne_zero (Nat.ne_zero_of_lt hm)
    exact ⟨fun _ _ => rfl,fun _ => rfl⟩
  | bool b =>
    intro m hm
    cases b
    · obtain ⟨m,rfl⟩ := Nat.exists_eq_succ_of_ne_zero (Nat.ne_zero_of_lt hm)
      exact ⟨fun _ _ => rfl,fun _ => rfl⟩
    · obtain ⟨m,rfl⟩ := Nat.exists_eq_succ_of_ne_zero (Nat.ne_zero_of_lt hm)
      exact ⟨fun _ _ => rfl,fun _ => rfl⟩
  | int i hi =>
    intro m hm
    obtain ⟨c,cs,hwritten,-⟩ := writeInt_head i
    have hpos : 0 < (encode repr (.int i)).length := by
      rw [encode,hwritten]
      exact Nat.succ_pos _
    exact readBy_of_reads (reads_atom (a:=.int i) (decide_eq_true hi)) (Nat.lt_of_lt_of_le hpos hm)
  | str s =>
    intro m hm
    exact readBy_of_reads (reads_dumpString s) (Nat.lt_of_lt_of_le (Nat.succ_pos _) hm)
  | arr items hitems ih =>
    intro m hm
    cases items with
    | nil =>
      obtain ⟨m,rfl⟩ := Nat.exists_eq_succ_of_ne_zero (Nat.ne_zero_of_lt hm)
      exact ⟨fun _ _ => rfl,fun _ => rfl⟩
    | cons v items =>
      obtain ⟨m,rfl⟩ := Nat.exists_eq_succ_of_ne_zero (Nat.ne_zero_of_lt hm)
      refine readBy_array (hitems v List.mem_cons_self) fun w hw => ih w hw m ?_
      simp only [encode,List.cons_append,List.length_cons,List.length_append] at hm
      rcases List.mem_cons.mp hw with rfl | hw
      · omega
      · have hle := @length_encodeItem repr _ _ hw
        omega
  | obj fields hfields hdistinct ih =>
    intro m hm
    cases fields with
    | nil =>
      obtain ⟨m,rfl⟩ := Nat.exists_eq_succ_of_ne_zero (Nat.ne_zero_of_lt hm)
      exact ⟨fun _ _ => rfl,fun _ => rfl⟩
    | cons f fields =>
      obtain ⟨m,rfl⟩ := Nat.exists_eq_succ_of_ne_zero (Nat.ne_zero_of_lt hm)
      refine readBy_object (fun g hg => ih g hg m ?_) hdistinct
      obtain ⟨name,v⟩ := f
      simp only [encode,encodeField,List.cons_append,List.length_cons,List.length_append] at hm
      rcases List.mem_cons.mp hg with rfl | hg
      · dsimp only
        omega
      · have hle := @length_encodeField repr _ _ hg
        omega

theorem loads_dumps {v : Json} (h : Plain v) : loads (dumps repr v) = some v := by
  have hread := @readBy_encode repr v h ((encode repr v).length+1) (Nat.le_succ _)
  have hskip : skipBlanks (encode repr v) = encode repr v := by simpa using hread.skip []
  have hvalue : readValue ((encode repr v).length+1) (encode repr v) = some (v,[]) := by
    simpa using hread.read [] nofun
  rw [loads,dumps,String.toList_ofList,hskip,hvalue]
  rfl

end Reading

section Ascii
open Text (byteSize)

variable {repr : ℚ → List Char}

theorem byteSize_of_ascii {cs : List Char} (h : ∀ c ∈ cs, c.utf8Size = 1) : byteSize cs = cs.length := by
  induction cs with
  | nil => rfl
  | cons c cs ih =>
    have htail := ih fun d hd => h d (List.mem_cons_of_mem c hd)
    rw [Text.byteSize_cons,List.length_cons,h c List.mem_cons_self,htail]
    omega

theorem utf8Size_hexDigit (n : ℕ) : (hexDigit n).utf8Size = 1 := by
  by_cases hn : n < 16
  · have hall : ∀ n < 16, (hexDigit n).utf8Size = 1 := by decide
    exact hall n hn
  · have hlong : "0123456789abcdef".toList.length ≤ n := by
      have hlength : "0123456789abcdef".toList.length = 16 := rfl
      omega
    rw [hexDigit,List.getD_eq_getElem?_getD,List.getElem?_eq_none hlong]
    rfl

theorem utf8Size_escapeUnit {u : ℕ} {c : Char} (h : c ∈ escapeUnit u) : c.utf8Size = 1 := by
  simp only [escapeUnit,List.mem_cons,List.not_mem_nil,or_false] at h
  rcases h with rfl | rfl | rfl | rfl | rfl | rfl
  · rfl
  · rfl
  all_goals exact utf8Size_hexDigit _

theorem utf8Size_escapeChar {c d : Char} (h : d ∈ escapeChar c) : d.utf8Size = 1 := by
  have hpair : ∀ x : Char, x.utf8Size = 1 → d ∈ ['\\',x] → d.utf8Size = 1 := by
    intro x hx hd
    simp only [List.mem_cons,List.not_mem_nil,or_false] at hd
    rcases hd with rfl | rfl
    · rfl
    · exact hx
  unfold escapeChar at h
  split_ifs at h with _ _ _ _ _ _ _ hprintable
  all_goals first | exact hpair _ rfl h | skip
  · cases List.mem_singleton.mp h
    have hsmall : c.toNat < 0x7F := hprintable.2
    rw [Char.utf8Size_eq_one_iff,UInt32.le_iff_toNat_le]
    exact hsmall.le
  · exact utf8Size_escapeUnit h
  · rcases List.mem_append.mp h with h | h
    · exact utf8Size_escapeUnit h
    · exact utf8Size_escapeUnit h

theorem utf8Size_dumpString {s : String} {c : Char} (h : c ∈ dumpString s) : c.utf8Size = 1 := by
  simp only [dumpString,List.cons_append,List.mem_cons,List.mem_append,List.mem_flatMap,
    List.not_mem_nil,or_false] at h
  rcases h with rfl | ⟨d,-,h⟩ | rfl
  · rfl
  · exact utf8Size_escapeChar h
  · rfl

theorem utf8Size_writeInt {i : ℤ} {c : Char} (h : c ∈ writeInt i) : c.utf8Size = 1 := by
  have hdigit : ∀ c ∈ Nat.toDigits 10 i.natAbs, c.utf8Size = 1 := by
    intro c hc
    have hisdigit := isDigit_toDigits _ c hc
    simp only [Char.isDigit,Bool.and_eq_true,decide_eq_true_eq] at hisdigit
    rw [Char.utf8Size_eq_one_iff]
    exact UInt32.le_trans hisdigit.2 (by decide)
  unfold writeInt at h
  split at h
  · rcases List.mem_cons.mp h with rfl | h
    · rfl
    · exact hdigit c h
  · exact hdigit c h

theorem utf8Size_encodeItems {items : List Json}
    (h : ∀ v ∈ items, ∀ c ∈ encode repr v, c.utf8Size = 1) :
    ∀ c ∈ encodeItems repr items, c.utf8Size = 1 := by
  induction items with
  | nil => simp [encodeItems]
  | cons v items ih =>
    intro c hc
    simp only [encodeItems,List.cons_append,List.mem_cons,List.mem_append] at hc
    rcases hc with rfl | hc | hc
    · rfl
    · exact h v List.mem_cons_self c hc
    · exact ih (fun w hw => h w (List.mem_cons_of_mem v hw)) c hc

theorem utf8Size_encodeField {f : String × Json} (h : ∀ c ∈ encode repr f.2, c.utf8Size = 1) :
    ∀ c ∈ encodeField repr f, c.utf8Size = 1 := by
  obtain ⟨name,v⟩ := f
  intro c hc
  simp only [encodeField,List.mem_append,List.mem_cons] at hc
  rcases hc with hc | rfl | hc
  · exact utf8Size_dumpString hc
  · rfl
  · exact h c hc

theorem utf8Size_encodeFields {fields : List (String × Json)}
    (h : ∀ f ∈ fields, ∀ c ∈ encode repr f.2, c.utf8Size = 1) :
    ∀ c ∈ encodeFields repr fields, c.utf8Size = 1 := by
  induction fields with
  | nil => simp [encodeFields]
  | cons f fields ih =>
    intro c hc
    simp only [encodeFields,List.cons_append,List.mem_cons,List.mem_append] at hc
    rcases hc with rfl | hc | hc
    · rfl
    · exact utf8Size_encodeField (h f List.mem_cons_self) c hc
    · exact ih (fun g hg => h g (List.mem_cons_of_mem f hg)) c hc

theorem ascii_of_all {cs : List Char} (h : cs.all (·.utf8Size = 1) = true) :
    ∀ c ∈ cs, c.utf8Size = 1 := by
  simpa using h

/-- The text has one byte for each character. -/
theorem byteSize_encode {v : Json} (h : Plain v) : byteSize (encode repr v) = (encode repr v).length := by
  apply byteSize_of_ascii
  induction h with
  | null => exact ascii_of_all rfl
  | bool b =>
    cases b
    · exact ascii_of_all rfl
    · exact ascii_of_all rfl
  | int i _ => exact fun c hc => utf8Size_writeInt hc
  | str s => exact fun c hc => utf8Size_dumpString hc
  | arr items _ ih =>
    cases items with
    | nil => exact ascii_of_all rfl
    | cons v items =>
      intro c hc
      simp only [encode,List.cons_append,List.mem_cons,List.mem_append,List.not_mem_nil,
        or_false] at hc
      rcases hc with rfl | (hc | hc) | rfl
      · rfl
      · exact ih v List.mem_cons_self c hc
      · exact utf8Size_encodeItems (fun w hw => ih w (List.mem_cons_of_mem v hw)) c hc
      · rfl
  | obj fields _ _ ih =>
    cases fields with
    | nil => exact ascii_of_all rfl
    | cons f fields =>
      intro c hc
      simp only [encode,List.cons_append,List.mem_cons,List.mem_append,List.not_mem_nil,
        or_false] at hc
      rcases hc with rfl | (hc | hc) | rfl
      · rfl
      · exact utf8Size_encodeField (ih f List.mem_cons_self) c hc
      · exact utf8Size_encodeFields (fun g hg => ih g (List.mem_cons_of_mem f hg)) c hc
      · rfl

end Ascii

section Sorted

mutual

/-- The value with the members of its objects in the order of their names. -/
def sortKeys : Json → Json
  | .arr items => .arr (sortItems items)
  | .obj fields => .obj ((sortFields fields).insertionSort fun f g => f.1 ≤ g.1)
  | .null => .null
  | .bool b => .bool b
  | .int i => .int i
  | .real q => .real q
  | .str s => .str s

def sortItems : List Json → List Json
  | [] => []
  | v::items => sortKeys v :: sortItems items

def sortFields : List (String × Json) → List (String × Json)
  | [] => []
  | (name,v)::fields => (name,sortKeys v) :: sortFields fields

end

variable {repr : ℚ → List Char}

theorem intercalate_items (v : Json) (items : List Json) :
    [','].intercalate ((v::items).map (encode repr)) = encode repr v ++ encodeItems repr items := by
  induction items generalizing v with
  | nil => simp [encodeItems]
  | cons w items ih =>
    rw [List.map_cons,List.map_cons,List.intercalate_cons_cons,← List.map_cons,ih w,encodeItems]
    simp

theorem encode_arr (items : List Json) :
    encode repr (.arr items) = '[' :: [','].intercalate (items.map (encode repr)) ++ [']'] := by
  cases items with
  | nil => rfl
  | cons v items =>
    rw [intercalate_items,encode]
    simp

theorem intercalate_fields (f : String × Json) (fields : List (String × Json)) :
    [','].intercalate ((f::fields).map (encodeField repr)) =
      encodeField repr f ++ encodeFields repr fields := by
  induction fields generalizing f with
  | nil => simp [encodeFields]
  | cons g fields ih =>
    rw [List.map_cons,List.map_cons,List.intercalate_cons_cons,← List.map_cons,ih g,encodeFields]
    simp

theorem encode_obj (fields : List (String × Json)) : encode repr (.obj fields) =
    '{' :: [','].intercalate (fields.map (encodeField repr)) ++ ['}'] := by
  cases fields with
  | nil => rfl
  | cons f fields =>
    rw [intercalate_fields,encode]
    simp

mutual

/-- With sorted keys, the sorted value is written. -/
theorem dump_eq : (v : Json) → dump repr v = encode repr (sortKeys v)
  | .null => rfl
  | .bool true => rfl
  | .bool false => rfl
  | .int _ => rfl
  | .real _ => rfl
  | .str _ => rfl
  | .arr items => by rw [dump,sortKeys,encode_arr,dumpItems_eq items]
  | .obj fields => by
    rw [dump,sortKeys,encode_obj,dumpFields_eq fields]
    have hsort := List.map_insertionSort (fun f g : String × Json => f.1 ≤ g.1)
      (fun f g : String × List Char => f.1 ≤ g.1) (fun f => (f.1,encode repr f.2))
      (sortFields fields) (fun _ _ _ _ => Iff.rfl)
    have hfield : encodeField repr = fun f => dumpString f.1 ++ ':' :: encode repr f.2 := by
      funext ⟨name,v⟩
      rfl
    rw [← hsort,List.map_map,hfield]
    rfl

theorem dumpItems_eq : (items : List Json) →
    dumpItems repr items = (sortItems items).map (encode repr)
  | [] => rfl
  | v::items => by rw [dumpItems,sortItems,List.map_cons,dump_eq v,dumpItems_eq items]

theorem dumpFields_eq : (fields : List (String × Json)) →
    dumpFields repr fields = (sortFields fields).map fun f => (f.1,encode repr f.2)
  | [] => rfl
  | (name,v)::fields => by rw [dumpFields,sortFields,List.map_cons,dump_eq v,dumpFields_eq fields]

end

/-- Members that are texts have nothing to be sorted. -/
theorem sortFields_texts {fields : List (String × Json)} (h : ∀ f ∈ fields, ∃ s, f.2 = .str s) :
    sortFields fields = fields := by
  induction fields with
  | nil => rfl
  | cons f fields ih =>
    obtain ⟨name,v⟩ := f
    obtain ⟨s,rfl⟩ := h (name,v) List.mem_cons_self
    rw [sortFields,ih fun g hg => h g (List.mem_cons_of_mem _ hg)]
    rfl

/-- What the members add to the length of an object. -/
def memberLength (repr : ℚ → List Char) (fields : List (String × Json)) : ℕ :=
  (fields.map fun f => 1+(encodeField repr f).length).sum

theorem length_encodeFields (fields : List (String × Json)) :
    (encodeFields repr fields).length = memberLength repr fields := by
  induction fields with
  | nil => rfl
  | cons f fields ih =>
    rw [memberLength] at ih ⊢
    rw [encodeFields,List.map_cons,List.sum_cons,← ih,List.length_append,List.length_cons]
    omega

theorem length_encode_obj {fields : List (String × Json)} (h : fields ≠ []) :
    (encode repr (.obj fields)).length = 1+memberLength repr fields := by
  cases fields with
  | nil => exact absurd rfl h
  | cons f fields =>
    have hfields := @length_encodeFields repr fields
    simp only [memberLength] at hfields ⊢
    simp only [encode,List.map_cons,List.sum_cons,List.length_append,List.length_cons,
      List.length_nil,hfields]
    omega

theorem memberLength_perm {fields fields' : List (String × Json)} (h : fields.Perm fields') :
    memberLength repr fields = memberLength repr fields' :=
  (h.map _).sum_eq

/-- The order of its members does not matter to the length of an object. -/
theorem length_encode_perm {fields fields' : List (String × Json)} (h : fields.Perm fields') :
    (encode repr (.obj fields)).length = (encode repr (.obj fields')).length := by
  by_cases hnil : fields = []
  · subst hnil
    rw [h.nil_eq]
  · have hnil' : fields' ≠ [] := by
      rintro rfl
      exact hnil h.eq_nil
    rw [length_encode_obj hnil,length_encode_obj hnil',memberLength_perm h]

theorem memberLength_le {fields fields' : List (String × Json)} (h : fields.Subperm fields') :
    memberLength repr fields ≤ memberLength repr fields' := by
  obtain ⟨l,hperm,hsub⟩ := h
  rw [← memberLength_perm hperm]
  exact (hsub.map _).sum_le_sum fun _ _ => Nat.zero_le _

/-! ### Reading what was sorted -/

theorem sortItems_eq (items : List Json) : sortItems items = items.map sortKeys := by
  induction items with
  | nil => rfl
  | cons v items ih => rw [sortItems,List.map_cons,ih]

theorem sortFields_eq (fields : List (String × Json)) :
    sortFields fields = fields.map fun f => (f.1,sortKeys f.2) := by
  induction fields with
  | nil => rfl
  | cons f fields ih => rw [sortFields,List.map_cons,ih]

theorem perm_sortFields (fields : List (String × Json)) :
    ((sortFields fields).insertionSort fun f g => f.1 ≤ g.1).Perm
      (fields.map fun f => (f.1,sortKeys f.2)) := by
  rw [← sortFields_eq]
  exact List.perm_insertionSort _ _

theorem plain_sortKeys {v : Json} (h : Plain v) : Plain (sortKeys v) := by
  induction h with
  | null => exact .null
  | bool b => exact .bool b
  | int i h => exact .int i h
  | str s => exact .str s
  | arr items _ ih =>
    rw [sortKeys,sortItems_eq]
    refine .arr _ fun v hv => ?_
    obtain ⟨w,hw,rfl⟩ := List.mem_map.mp hv
    exact ih w hw
  | obj fields _ hdistinct ih =>
    rw [sortKeys]
    refine .obj _ (fun f hf => ?_) ?_
    · obtain ⟨g,hg,rfl⟩ := List.mem_map.mp ((perm_sortFields fields).mem_iff.mp hf)
      exact ih g hg
    · rw [((perm_sortFields fields).map Prod.fst).nodup_iff,List.map_map]
      exact hdistinct

/-- What `json.dump` with sorted keys writes is read back as the sorted value. -/
theorem loads_dump {v : Json} (h : Plain v) :
    loads (String.ofList (dump repr v)) = some (sortKeys v) := by
  rw [dump_eq]
  exact loads_dumps (plain_sortKeys h)

theorem mem_of_lookup {fields : List (String × Json)} {name : String} {v : Json}
    (h : fields.lookup name = some v) : (name,v) ∈ fields := by
  obtain ⟨before,after,rfl,-⟩ := List.lookup_eq_some_iff.mp h
  simp

/-- Where no name comes twice, the members tell what is found. -/
theorem lookup_eq_some_of_nodup {fields : List (String × Json)} {name : String} {v : Json}
    (h : (fields.map Prod.fst).Nodup) : fields.lookup name = some v ↔ (name,v) ∈ fields := by
  refine ⟨mem_of_lookup,fun hmem => ?_⟩
  induction fields with
  | nil => cases hmem
  | cons f fields ih =>
    obtain ⟨hnew,hrest⟩ := List.nodup_cons.mp h
    rcases List.mem_cons.mp hmem with rfl | hmem
    · simp
    · have hne : name ≠ f.1 := by
        rintro rfl
        exact hnew (List.mem_map.mpr ⟨_,hmem,rfl⟩)
      rw [List.lookup_cons,beq_eq_false_iff_ne.mpr hne]
      exact ih hrest hmem

/-- Sorting changes what is found in an object by sorting it. -/
theorem lookup_sortFields {fields : List (String × Json)} (h : (fields.map Prod.fst).Nodup)
    (name : String) : ((sortFields fields).insertionSort fun f g => f.1 ≤ g.1).lookup name =
      (fields.lookup name).map sortKeys := by
  have hperm := perm_sortFields fields
  have hsorted : (((sortFields fields).insertionSort fun f g => f.1 ≤ g.1).map Prod.fst).Nodup := by
    rw [(hperm.map Prod.fst).nodup_iff,List.map_map]
    exact h
  ext v
  rw [lookup_eq_some_of_nodup hsorted,hperm.mem_iff,Option.map_eq_some_iff]
  simp only [List.mem_map,Prod.mk.injEq,lookup_eq_some_of_nodup h]
  constructor
  · rintro ⟨⟨_,w⟩,hmem,rfl,rfl⟩
    exact ⟨w,hmem,rfl⟩
  · rintro ⟨w,hmem,rfl⟩
    exact ⟨(name,w),hmem,rfl,rfl⟩

theorem lookup_cons_ite (g : String × Json) (l : List (String × Json)) (name : String) :
    (g::l).lookup name = if name = g.1 then some g.2 else l.lookup name := by
  by_cases h : name = g.1
  · rw [if_pos h,List.lookup_cons,beq_iff_eq.mpr h]
  · rw [if_neg h,List.lookup_cons,beq_eq_false_iff_ne.mpr h]

theorem any_name {fields : List (String × Json)} {name : String}
    (h : name ∈ fields.map Prod.fst) : (fields.any fun g => g.1 = name) = true := by
  obtain ⟨g,hg,heq⟩ := List.mem_map.mp h
  exact List.any_eq_true.mpr ⟨g,hg,decide_eq_true heq⟩

/-- After `data[name] = value`. -/
theorem lookup_assign (fields : List (String × Json)) (f : String × Json) (name : String) :
    (assign fields f).lookup name = if name = f.1 then some f.2 else fields.lookup name := by
  by_cases hmem : f.1 ∈ fields.map Prod.fst
  · have hany := any_name hmem
    have hmap : ∀ l : List (String × Json),
        (l.map fun g => if g.1 = f.1 then f else g).lookup name =
          if name = f.1 then (l.lookup name).map fun _ => f.2 else l.lookup name := by
      intro l
      induction l with
      | nil => simp
      | cons g l ih =>
        rw [List.map_cons,lookup_cons_ite,lookup_cons_ite,ih]
        by_cases hg : g.1 = f.1
        · rw [if_pos hg,hg]
          split_ifs <;> rfl
        · rw [if_neg hg]
          by_cases hname : name = f.1
          · have hother : ¬name = g.1 := fun h => hg (h.symm.trans hname)
            simp only [if_pos hname,if_neg hother]
          · simp only [if_neg hname]
    rw [assign,if_pos hany,hmap]
    by_cases hname : name = f.1
    · obtain ⟨v,hv⟩ : ∃ v, fields.lookup name = some v := by
        rw [← Option.isSome_iff_exists,List.lookup_isSome_iff]
        obtain ⟨g,hg,heq⟩ := List.mem_map.mp hmem
        exact ⟨g,hg,by simp [hname,heq]⟩
      rw [if_pos hname,if_pos hname,hv,Option.map_some]
    · rw [if_neg hname,if_neg hname]
  · rw [assign_new hmem,List.lookup_append,lookup_cons_ite,List.lookup_nil]
    by_cases hname : name = f.1
    · have hnone : fields.lookup name = none := by
        rw [List.lookup_eq_none_iff]
        intro g hg
        rw [bne_iff_ne,hname]
        exact fun heq => hmem (List.mem_map.mpr ⟨g,hg,heq.symm⟩)
      rw [if_pos hname,if_pos hname,hnone,Option.none_or]
    · rw [if_neg hname,if_neg hname,Option.or_none]

theorem plain_members {fields : List (String × Json)} (h : Plain (.obj fields)) :
    (∀ f ∈ fields, Plain f.2) ∧ (fields.map Prod.fst).Nodup := by
  cases h with
  | obj _ hfields hdistinct => exact ⟨hfields,hdistinct⟩

theorem plain_assign {fields : List (String × Json)} {f : String × Json} (h : Plain (.obj fields))
    (hf : Plain f.2) : Plain (.obj (assign fields f)) := by
  obtain ⟨hfields,hdistinct⟩ := plain_members h
  by_cases hmem : f.1 ∈ fields.map Prod.fst
  · have hany := any_name hmem
    have hnames : (fields.map fun g => if g.1 = f.1 then f else g).map Prod.fst =
        fields.map Prod.fst := by
      rw [List.map_map]
      apply List.map_congr_left
      intro g _
      by_cases hg : g.1 = f.1 <;> simp [hg]
    rw [assign,if_pos hany]
    refine .obj _ (fun g hg => ?_) (hnames ▸ hdistinct)
    obtain ⟨g',hg',rfl⟩ := List.mem_map.mp hg
    split_ifs
    · exact hf
    · exact hfields g' hg'
  · rw [assign_new hmem]
    refine .obj _ (fun g hg => ?_) ?_
    · rcases List.mem_append.mp hg with hg | hg
      · exact hfields g hg
      · rw [List.mem_singleton.mp hg]
        exact hf
    · rw [List.map_append,List.map_singleton]
      exact List.nodup_append.mpr ⟨hdistinct,List.nodup_singleton _,by
        rintro a ha b hb rfl
        exact hmem (List.mem_singleton.mp hb ▸ ha)⟩

end Sorted

end Json
end CloudBrowser
