import CloudBrowser.JsonText

/-! Reading the start of a text: a reader that has come to the end of a value reads the same value
where more text follows. What `json.loads` makes of a text that was cut off is nothing, or what it
makes of the whole. -/
namespace CloudBrowser
namespace Json

def isNumber : Json → Bool
  | .int _ => true
  | .real _ => true
  | _ => false

/-- The value ends before the rest: a numeral goes on in nothing that follows. -/
def Stops (v : Json) (rest : List Char) : Prop :=
  v.isNumber = true → rest ≠ [] ∧ endsNumber rest

variable {text rest q : List Char}

theorem skipBlanks_extend {c : Char} {cs : List Char} (h : skipBlanks text = c::cs) (q : List Char) :
    skipBlanks (text ++ q) = c::(cs ++ q) := by
  have hrest : text.dropWhile isBlank = c::cs := h
  rw [skipBlanks,List.dropWhile_append,hrest]
  rfl

theorem skipBlanks_append (h : skipBlanks text ≠ []) (q : List Char) :
    skipBlanks (text ++ q) = skipBlanks text ++ q := by
  obtain ⟨c,cs,hskip⟩ := List.exists_cons_of_ne_nil h
  rw [skipBlanks_extend hskip,hskip]
  rfl

theorem skipBlanks_head {c : Char} {cs : List Char} (h : skipBlanks text = c::cs) :
    ∃ d ds, text = d::ds ∧ (isBlank d = true ∨ d = c) := by
  cases text with
  | nil => cases h
  | cons d ds =>
    refine ⟨d,ds,rfl,?_⟩
    by_cases hd : isBlank d = true
    · exact .inl hd
    · have hsame : skipBlanks (d::ds) = d::ds := List.dropWhile_cons_of_neg hd
      rw [hsame] at h
      exact .inr (List.cons.inj h).1

/-- After a comma or a closing sign no numeral goes on. -/
theorem stops_of_skip {v : Json} {c : Char} {cs : List Char} (h : skipBlanks rest = c::cs)
    (hc : c = ',' ∨ c = ']' ∨ c = '}') : Stops v rest := by
  intro _
  obtain ⟨d,ds,rfl,hd⟩ := skipBlanks_head h
  refine ⟨List.cons_ne_nil d ds,?_⟩
  rintro d' ⟨⟩
  simp only [isBlank,Bool.or_eq_true,decide_eq_true_eq] at hd
  rcases hd with (((rfl | rfl) | rfl) | rfl) | rfl
  all_goals first | decide | skip
  rcases hc with rfl | rfl | rfl <;> decide

theorem readUnits_extend {units : List ℕ} (h : readUnits text = some (units,rest)) (q : List Char) :
    readUnits (text ++ q) = some (units,rest ++ q) := by
  fun_induction readUnits text generalizing units rest with
  | case1 => cases h
  | case2 rest' =>
    cases h
    rfl
  | case3 w x y z rest' ih =>
    obtain ⟨u,hu,h⟩ := Option.bind_eq_some_iff.mp h
    obtain ⟨r,hr,h⟩ := Option.map_eq_some_iff.mp h
    cases h
    simp only [List.cons_append,readUnits,hu,Option.bind_some,ih hr,Option.map_some]
  | case4 e rest' hshape ih =>
    obtain ⟨u,hu,h⟩ := Option.bind_eq_some_iff.mp h
    obtain ⟨r,hr,h⟩ := Option.map_eq_some_iff.mp h
    cases h
    have hplain : e ≠ 'u' := by
      rintro rfl
      cases hu
    rw [List.cons_append,List.cons_append,readUnits.eq_def]
    simp [hplain,hu,ih hr]
  | case5 c rest' hquote hback hctl => cases h
  | case6 c rest' hquote hunit hback hctl ih =>
    obtain ⟨r,hr,h⟩ := Option.map_eq_some_iff.mp h
    cases h
    have hplain : c ≠ '\\' := by
      rintro rfl
      cases rest' with
      | nil => cases hr
      | cons e rest' => exact hback e rest' rfl rfl
    rw [List.cons_append,readUnits_plain hquote hplain hctl,ih hr]
    rfl

theorem readString_extend {s : String} (h : readString text = some (s,rest)) (q : List Char) :
    readString (text ++ q) = some (s,rest ++ q) := by
  obtain ⟨r,hr,h⟩ := Option.bind_eq_some_iff.mp h
  obtain ⟨cs,hcs,h⟩ := Option.bind_eq_some_iff.mp h
  cases h
  rw [readString,readUnits_extend hr q]
  simp [hcs]

theorem readDigits_extend {digits : List Char} (h : readDigits text = (digits,rest))
    (hrest : rest ≠ []) (q : List Char) : readDigits (text ++ q) = (digits,rest ++ q) := by
  rw [readDigits,List.span_eq_takeWhile_dropWhile] at h ⊢
  cases h
  rw [List.takeWhile_append,List.dropWhile_append]
  have hlong : ¬(text.takeWhile Char.isDigit).length = text.length := by
    intro hlength
    have happend := List.takeWhile_append_dropWhile (p:=Char.isDigit) (l:=text)
    have hnil : (text.dropWhile Char.isDigit).length = 0 := by
      have hsum := congrArg List.length happend
      rw [List.length_append] at hsum
      omega
    exact hrest (List.length_eq_zero_iff.mp hnil)
  rw [if_neg hlong,if_neg (by simpa using hrest)]

theorem endsNumber_append (h : endsNumber rest) (hrest : rest ≠ []) (q : List Char) :
    endsNumber (rest ++ q) := by
  cases rest with
  | nil => exact absurd rfl hrest
  | cons c rest => exact h

theorem readFraction_extend {digits : List Char} (h : readFraction text = some (digits,rest))
    (hrest : rest ≠ []) (q : List Char) : readFraction (text ++ q) = some (digits,rest ++ q) := by
  unfold readFraction at h
  split at h
  · rename_i text'
    split at h
    · cases h
    · rename_i hdigits
      have hread := readDigits_extend (Option.some.inj h) hrest q
      rw [List.cons_append,readFraction,hread]
      have hsome := congrArg Prod.fst (Option.some.inj h)
      dsimp only at hsome
      rw [hsome] at hdigits
      simp [hdigits]
  · cases h

/-- What is read of the digits of an exponent, under its sign. -/
def readPower (sign : ℤ) (text : List Char) : Option (ℤ × List Char) :=
  if (readDigits text).1 = [] then none
  else some (sign*Nat.ofDigitChars 10 (readDigits text).1 0,(readDigits text).2)

theorem readPower_extend {sign e : ℤ} (h : readPower sign text = some (e,rest)) (hrest : rest ≠ [])
    (q : List Char) : readPower sign (text ++ q) = some (e,rest ++ q) := by
  unfold readPower at h
  split at h
  · cases h
  · rename_i hdigits
    obtain ⟨he,hr⟩ := Prod.mk.inj (Option.some.inj h)
    have hsplit : readDigits text = ((readDigits text).1,rest) := by rw [← hr]
    rw [readPower,readDigits_extend hsplit hrest q,if_neg hdigits,← he]

/-- The sign of an exponent is settled by the first character. -/
theorem readExponent_power {c d : Char} (hc : ¬(c ≠ 'e' ∧ c ≠ 'E')) (text : List Char) :
    ∃ sign digits, ∀ q, readExponent (c::d::(text ++ q)) = readPower sign (digits ++ q) := by
  by_cases hminus : d = '-'
  · subst hminus
    refine ⟨-1,text,fun q => ?_⟩
    simp [readExponent,readPower,hc]
  · by_cases hplus : d = '+'
    · subst hplus
      refine ⟨1,text,fun q => ?_⟩
      simp [readExponent,readPower,hc]
    · refine ⟨1,d::text,fun q => ?_⟩
      simp [readExponent,readPower,hc,hminus,hplus]

theorem readExponent_extend {e : ℤ} (h : readExponent text = some (e,rest)) (hrest : rest ≠ [])
    (q : List Char) : readExponent (text ++ q) = some (e,rest ++ q) := by
  rcases text with _ | ⟨c,_ | ⟨d,text⟩⟩
  · cases h
  · simp [readExponent,readDigits] at h
  · by_cases hc : c ≠ 'e' ∧ c ≠ 'E'
    · simp [readExponent,hc] at h
    · obtain ⟨sign,digits,hpower⟩ := readExponent_power (d:=d) hc text
      have hread := hpower []
      rw [List.append_nil,List.append_nil] at hread
      rw [hread] at h
      rw [List.cons_append,List.cons_append,hpower]
      exact readPower_extend h hrest q

/-- An exponent starts with its letter. -/
theorem readFraction_exponent {r : ℤ × List Char} (h : readExponent text = some r) (q : List Char) :
    readFraction (text ++ q) = none := by
  cases text with
  | nil => cases h
  | cons c text =>
    have hpoint : c ≠ '.' := by
      rintro rfl
      simp [readExponent] at h
    rw [List.cons_append,readFraction.eq_def]
    split <;> simp_all

theorem finishNumber_extend {sign : ℤ} {digits : List Char} {v : Json}
    (h : finishNumber sign digits text = some (v,rest)) (hrest : rest ≠ [])
    (hends : endsNumber rest) (q : List Char) :
    finishNumber sign digits (text ++ q) = some (v,rest ++ q) := by
  have hlater := endsNumber_append hends hrest q
  cases hfraction : readFraction text with
  | none =>
    cases hexponent : readExponent text with
    | none =>
      simp only [finishNumber,hfraction,hexponent,Option.map_none,Option.getD_none,Option.isNone_none,
        and_self,if_true] at h
      split at h
      · cases h
      · rename_i hlength
        cases h
        simp [finishNumber,readFraction_end hlater,readExponent_end hlater,hlength]
    | some e =>
      obtain ⟨e,after⟩ := e
      simp only [finishNumber,hfraction,hexponent,Option.map_none,Option.map_some,Option.getD_none,
        Option.getD_some,Option.isNone_none,Option.isNone_some,Bool.false_eq_true,and_false,
        if_false] at h
      cases h
      have hnone := readFraction_exponent hexponent q
      simp [finishNumber,hnone,readExponent_extend hexponent hrest q]
  | some f =>
    obtain ⟨places,after⟩ := f
    cases hexponent : readExponent after with
    | none =>
      simp only [finishNumber,hfraction,hexponent,Option.map_none,Option.map_some,Option.getD_none,
        Option.getD_some,Option.isNone_none,Option.isNone_some,Bool.false_eq_true,false_and,
        if_false] at h
      cases h
      simp [finishNumber,readFraction_extend hfraction hrest q,readExponent_end hlater]
    | some e =>
      obtain ⟨e,after'⟩ := e
      simp only [finishNumber,hfraction,hexponent,Option.map_some,
        Option.getD_some,Option.isNone_some,Bool.false_eq_true,false_and,if_false] at h
      cases h
      have hafter : after ≠ [] := by
        rintro rfl
        cases hexponent
      simp [finishNumber,readFraction_extend hfraction hafter q,
        readExponent_extend hexponent hrest q]

theorem finishNumber_isNumber {sign : ℤ} {digits : List Char} {v : Json}
    (h : finishNumber sign digits text = some (v,rest)) : v.isNumber = true := by
  unfold finishNumber at h
  dsimp only at h
  split at h
  · split at h
    · cases h
    · cases h
      rfl
  · cases h
    rfl

theorem readUnsigned_extend {sign : ℤ} {v : Json} (h : readUnsigned sign text = some (v,rest))
    (hstops : Stops v rest) (q : List Char) :
    readUnsigned sign (text ++ q) = some (v,rest ++ q) := by
  unfold readUnsigned at h
  split at h
  · rename_i text'
    obtain ⟨hrest,hends⟩ := hstops (finishNumber_isNumber h)
    rw [List.cons_append,readUnsigned]
    exact finishNumber_extend h hrest hends q
  · rename_i hzero
    split at h
    · cases h
    · rename_i hdigits
      obtain ⟨hrest,hends⟩ := hstops (finishNumber_isNumber h)
      have hmore : (readDigits text).2 ≠ [] := by
        intro hnil
        rw [hnil] at h
        simp only [finishNumber,readFraction,readExponent,Option.map_none,Option.getD_none,
          Option.isNone_none,and_self,if_true] at h
        split at h <;> cases h
        exact hrest rfl
      have hread : readDigits (text ++ q) = ((readDigits text).1,(readDigits text).2 ++ q) :=
        readDigits_extend rfl hmore q
      obtain ⟨c,cs,rfl⟩ : ∃ c cs, text = c::cs := by
        cases text with
        | nil => exact absurd rfl hdigits
        | cons c cs => exact ⟨c,cs,rfl⟩
      have hc : c ≠ '0' := fun hc => hzero cs (by rw [hc])
      rw [readUnsigned.eq_def]
      split
      · rename_i heq
        exact absurd (List.cons.inj heq).1 hc
      · rw [hread,if_neg hdigits]
        exact finishNumber_extend h hrest hends q

theorem readNumber_extend {v : Json} (h : readNumber text = some (v,rest)) (hstops : Stops v rest)
    (q : List Char) : readNumber (text ++ q) = some (v,rest ++ q) := by
  unfold readNumber at h
  split at h
  · rename_i text'
    rw [List.cons_append,readNumber]
    exact readUnsigned_extend h hstops q
  · rename_i hminus
    rw [readNumber.eq_def]
    split
    · rename_i tail heq
      cases text with
      | nil => cases h
      | cons c cs => exact absurd (by rw [(List.cons.inj heq).1]) (hminus cs)
    · exact readUnsigned_extend h hstops q

/-- What the one reader reads, the other reads at the start of any longer text. -/
structure Extends (reader reader' : List Char → Option (Json × List Char)) : Prop where
  nil : reader [] = none
  extend : ∀ {text v rest}, reader text = some (v,rest) → Stops v rest →
    ∀ q, reader' (text ++ q) = some (v,rest ++ q)

section Readers

variable {reader reader' : List Char → Option (Json × List Char)}

theorem Extends.skipped (h : Extends reader reader') {v : Json}
    (hread : reader (skipBlanks text) = some (v,rest)) (hstops : Stops v rest) (q : List Char) :
    reader' (skipBlanks (text ++ q)) = some (v,rest ++ q) := by
  cases hskip : skipBlanks text with
  | nil =>
    rw [hskip,h.nil] at hread
    cases hread
  | cons c cs =>
    rw [hskip] at hread
    rw [skipBlanks_extend hskip]
    exact h.extend hread hstops q

theorem readMember_extend (h : Extends reader reader') {f : String × Json}
    (hread : readMember reader text = some (f,rest)) (hstops : Stops f.2 rest) (q : List Char) :
    readMember reader' (text ++ q) = some (f,rest ++ q) := by
  unfold readMember at hread
  split at hread
  · rename_i text'
    obtain ⟨name,hname,hread⟩ := Option.bind_eq_some_iff.mp hread
    split at hread
    · rename_i hcolon
      obtain ⟨v,hv,hread⟩ := Option.bind_eq_some_iff.mp hread
      cases hread
      have hlonger := readString_extend hname q
      simp only [List.cons_append,readMember,hlonger,Option.bind_eq_bind,Option.bind_some,
        skipBlanks_extend hcolon,h.skipped hv hstops q]
    · cases hread
  · cases hread

/-- The fuel may be more, too. -/
theorem readMembers_extend (h : Extends reader reader') (q : List Char) :
    ∀ (fuel fuel' : ℕ) (text : List Char) (before fields : List (String × Json)) (rest : List Char),
    fuel ≤ fuel' → readMembers reader fuel text before = some (fields,rest) →
    readMembers reader' fuel' (text ++ q) before = some (fields,rest ++ q) := by
  intro fuel
  induction fuel with
  | zero =>
    intro fuel' text before fields rest _ hread
    cases hread
  | succ fuel ih =>
    intro fuel' text before fields rest hfuel hread
    obtain ⟨fuel',rfl⟩ := Nat.exists_eq_succ_of_ne_zero (Nat.ne_zero_of_lt hfuel)
    obtain ⟨member,hmember,hread⟩ := Option.bind_eq_some_iff.mp hread
    split at hread
    · rename_i hcomma
      have hlonger := readMember_extend h hmember (stops_of_skip hcomma (by simp)) q
      rename_i rest'
      have hmore : skipBlanks rest' ≠ [] := by
        intro hnil
        rw [hnil] at hread
        cases fuel <;> cases hread
      have htail := ih fuel' _ _ _ _ (Nat.le_of_succ_le_succ hfuel) hread
      simp only [readMembers,hlonger,Option.bind_eq_bind,Option.bind_some,skipBlanks_extend hcomma]
      rw [skipBlanks_append hmore]
      exact htail
    · rename_i hbrace
      cases hread
      have hlonger := readMember_extend h hmember (stops_of_skip hbrace (by simp)) q
      simp only [readMembers,hlonger,Option.bind_eq_bind,Option.bind_some,skipBlanks_extend hbrace]
    · cases hread

theorem readItems_extend (h : Extends reader reader') (q : List Char) :
    ∀ (fuel fuel' : ℕ) (text : List Char) (before items : List Json) (rest : List Char),
    fuel ≤ fuel' → readItems reader fuel text before = some (items,rest) →
    readItems reader' fuel' (text ++ q) before = some (items,rest ++ q) := by
  intro fuel
  induction fuel with
  | zero =>
    intro fuel' text before items rest _ hread
    cases hread
  | succ fuel ih =>
    intro fuel' text before items rest hfuel hread
    obtain ⟨fuel',rfl⟩ := Nat.exists_eq_succ_of_ne_zero (Nat.ne_zero_of_lt hfuel)
    obtain ⟨item,hitem,hread⟩ := Option.bind_eq_some_iff.mp hread
    split at hread
    · rename_i rest' hcomma
      have hlonger := h.extend hitem (stops_of_skip hcomma (by simp)) q
      have hmore : skipBlanks rest' ≠ [] := by
        intro hnil
        rw [hnil] at hread
        cases fuel with
        | zero => cases hread
        | succ fuel =>
          rw [readItems,h.nil] at hread
          cases hread
      have htail := ih fuel' _ _ _ _ (Nat.le_of_succ_le_succ hfuel) hread
      simp only [readItems,hlonger,Option.bind_eq_bind,Option.bind_some,skipBlanks_extend hcomma]
      rw [skipBlanks_append hmore]
      exact htail
    · rename_i hbracket
      cases hread
      have hlonger := h.extend hitem (stops_of_skip hbracket (by simp)) q
      simp only [readItems,hlonger,Option.bind_eq_bind,Option.bind_some,skipBlanks_extend hbracket]
    · cases hread

end Readers

theorem readUnsigned_head {sign : ℤ} {r : Json × List Char} (h : readUnsigned sign text = some r) :
    ∃ c cs, text = c::cs ∧ c.isDigit = true := by
  unfold readUnsigned at h
  split at h
  · exact ⟨_,_,rfl,by decide⟩
  · split at h
    · cases h
    · rename_i hdigits
      cases text with
      | nil => exact absurd rfl hdigits
      | cons c cs =>
        refine ⟨c,cs,rfl,?_⟩
        by_contra hc
        rw [readDigits,List.span_eq_takeWhile_dropWhile] at hdigits
        exact hdigits (List.takeWhile_cons_of_neg hc)

theorem readNumber_head {r : Json × List Char} (h : readNumber text = some r) :
    ∃ c cs, text = c::cs ∧ (c = '-' ∨ c.isDigit = true) := by
  unfold readNumber at h
  split at h
  · exact ⟨_,_,rfl,.inl rfl⟩
  · obtain ⟨c,cs,htext,hc⟩ := readUnsigned_head h
    exact ⟨c,cs,htext,.inr hc⟩

theorem readValue_nil (n : ℕ) : readValue n [] = none := by
  cases n <;> rfl

/-- Induction on the fuel. -/
theorem readValue_extends (n : ℕ) : ∀ m, n ≤ m → Extends (readValue n) (readValue m) := by
  induction n with
  | zero =>
    intro m _
    exact ⟨rfl,fun hread => nomatch hread⟩
  | succ n ih =>
    intro m hm
    obtain ⟨m,rfl⟩ := Nat.exists_eq_succ_of_ne_zero (Nat.ne_zero_of_lt hm)
    have hinner := ih m (Nat.le_of_succ_le_succ hm)
    refine ⟨readValue_nil _,?_⟩
    intro text v rest hread hstops q
    unfold readValue at hread
    split at hread
    · cases ‹n+1 = 0›
    · obtain ⟨r,hr,hread⟩ := Option.map_eq_some_iff.mp hread
      cases hread
      rw [List.cons_append,readValue,readString_extend hr q]
      rfl
    · rename_i fuel rest' hfuel
      obtain rfl := Nat.succ.inj hfuel
      split at hread
      · rename_i hbrace
        cases hread
        rw [List.cons_append,readValue,skipBlanks_extend hbrace]
        rfl
      · rename_i hbrace
        obtain ⟨r,hr,hread⟩ := Option.map_eq_some_iff.mp hread
        cases hread
        have hmore : skipBlanks rest' ≠ [] := by
          intro hnil
          rw [hnil] at hr
          cases hr
        have htail := readMembers_extend hinner q _ (skipBlanks rest' ++ q).length _ _ _ _
          (by simp) hr
        rw [List.cons_append,readValue,skipBlanks_append hmore]
        split
        · rename_i heq
          obtain ⟨c,cs,hskip⟩ := List.exists_cons_of_ne_nil hmore
          rw [hskip] at heq
          cases heq
          exact absurd hskip (hbrace cs)
        · rw [htail]
          rfl
    · rename_i fuel rest' hfuel
      obtain rfl := Nat.succ.inj hfuel
      split at hread
      · rename_i hbracket
        cases hread
        rw [List.cons_append,readValue,skipBlanks_extend hbracket]
        rfl
      · rename_i hbracket
        obtain ⟨r,hr,hread⟩ := Option.map_eq_some_iff.mp hread
        cases hread
        have hmore : skipBlanks rest' ≠ [] := by
          intro hnil
          rw [hnil] at hr
          cases hr
        have htail := readItems_extend hinner q _ (skipBlanks rest' ++ q).length _ _ _ _
          (by simp) hr
        rw [List.cons_append,readValue,skipBlanks_append hmore]
        split
        · rename_i heq
          obtain ⟨c,cs,hskip⟩ := List.exists_cons_of_ne_nil hmore
          rw [hskip] at heq
          cases heq
          exact absurd hskip (hbracket cs)
        · rw [htail]
          rfl
    · cases hread
      rfl
    · cases hread
      rfl
    · cases hread
      rfl
    · obtain ⟨c,cs,rfl,hc⟩ := readNumber_head hread
      rw [List.cons_append,readValue_number hc]
      exact readNumber_extend hread hstops q

/-- A text that starts as a list does is that list, or no JSON at all. -/
theorem loads_append {s t : String} {items : List Json} {v : Json} (h : loads s = some (.arr items))
    (hv : loads (s ++ t) = some v) : v = .arr items := by
  obtain ⟨r,hr,h⟩ := Option.bind_eq_some_iff.mp h
  obtain ⟨w,rest⟩ := r
  split at h
  · cases h
    have hmore : skipBlanks s.toList ≠ [] := by
      intro hnil
      rw [hnil,readValue_nil] at hr
      cases hr
    obtain ⟨w,hw,hv⟩ := Option.bind_eq_some_iff.mp hv
    obtain ⟨w,rest'⟩ := w
    have hfuel : s.toList.length+1 ≤ (s ++ t).toList.length+1 := by simp
    have hlonger := (readValue_extends _ _ hfuel).extend hr nofun t.toList
    rw [String.toList_append,skipBlanks_append hmore,← String.toList_append,hlonger] at hw
    cases hw
    split at hv
    · cases hv
      rfl
    · cases hv
  · cases h

end Json

namespace Text

/-- Bytes that start with those of a text are those of a text that starts with it. -/
theorem decodeUtf8_append {b b' : Bytes} {s s' : String} (h : decodeUtf8 b = some s)
    (h' : decodeUtf8 (b ++ b') = some s') : ∃ t, s' = s ++ t := by
  have hbytes : ∀ {b : Bytes} {s : String}, decodeUtf8 b = some s →
      s.toList.utf8Encode = ⟨b.toArray⟩ := by
    intro b s h
    unfold decodeUtf8 String.fromUTF8? at h
    split at h
    · cases h
      rw [String.utf8Encode_toList]
      rfl
    · cases h
  have hwhole : s.toList.utf8Encode ++ ⟨b'.toArray⟩ = s'.toList.utf8Encode := by
    rw [hbytes h,hbytes h',← List.append_toArray]
    exact ByteArray.ext ByteArray.data_append
  obtain ⟨cs,hcs⟩ := List.isPrefix_of_utf8Encode_append_eq_utf8Encode _ hwhole
  exact ⟨String.ofList cs,by rw [← String.toList_inj]; simp [hcs]⟩

end Text

namespace Json

/-- `json.loads` of the bytes of an answer of which no more than the limit is read. -/
def readJson (limit : ℕ) (sent : Bytes) : Option Json := (Text.decodeUtf8 (sent.take limit)).bind loads

/-- Where the start of an answer is read as a list, it is the list of the whole answer. -/
theorem readJson_list {limit : ℕ} {sent : Bytes} {items : List Json} {v : Json}
    (h : readJson limit sent = some (.arr items)) (hv : (Text.decodeUtf8 sent).bind loads = some v) :
    v = .arr items := by
  obtain ⟨s,hs,h⟩ := Option.bind_eq_some_iff.mp h
  obtain ⟨s',hs',hv⟩ := Option.bind_eq_some_iff.mp hv
  rw [← List.take_append_drop limit sent] at hs'
  obtain ⟨t,rfl⟩ := Text.decodeUtf8_append hs hs'
  exact loads_append h hv

theorem readJson_short {limit : ℕ} {sent : Bytes} (h : sent.length ≤ limit) :
    readJson limit sent = (Text.decodeUtf8 sent).bind loads := by
  rw [readJson,List.take_of_length_le h]

end Json
end CloudBrowser
