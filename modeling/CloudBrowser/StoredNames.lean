import CloudBrowser.DownloadStore

/-! The names that the downloads store gives to files: which of them can be read, and which are
hidden. -/
namespace CloudBrowser
namespace CloudFiles

variable {raw safe s : String}

theorem unquote_plain (h : '%' ∉ s.toList) : unquote s = some s := by
  rw [unquote,if_pos h]

theorem validateName_no_percent (h : validateName raw = some safe) : '%' ∉ safe.toList := by
  unfold validateName at h
  split_ifs at h
  obtain ⟨name,-,h⟩ := Option.bind_eq_some_iff.mp h
  split_ifs at h with hpercent hplain
  cases h
  exact hpercent

theorem validateName_of_plain (hplain : plainName s = true) (hpercent : '%' ∉ s.toList) :
    validateName s = some s := by
  have hbounds : s ≠ "" ∧ s.length ≤ nameMax := by
    simp only [plainName,Bool.and_eq_true,decide_eq_true_eq] at hplain
    exact ⟨hplain.1.1.1,hplain.1.1.2⟩
  have hlength : ¬(s = "" ∨ nameMax*3 < s.length) := by
    rw [not_or]
    exact ⟨hbounds.1,by omega⟩
  rw [validateName,if_neg hlength,unquote_plain hpercent]
  show (if '%' ∈ s.toList then none else if plainName s = true then some s else none) = _
  rw [if_neg hpercent,if_pos hplain]

/-- A name that has passed passes again, as it is. -/
theorem validateName_idem (h : validateName raw = some safe) : validateName safe = some safe :=
  validateName_of_plain (validateName_plain h) (validateName_no_percent h)

/-- A name without an escape stands for itself. -/
theorem validateName_self (h : validateName raw = some safe) (hpercent : '%' ∉ raw.toList) :
    safe = raw := by
  unfold validateName at h
  split_ifs at h
  rw [unquote_plain hpercent] at h
  obtain ⟨decoded,hdecoded,h⟩ := Option.bind_eq_some_iff.mp h
  cases hdecoded
  split_ifs at h
  exact (Option.some.inj h).symm

theorem validateName_hidden (hhead : s.toList.head? = some '.') (hpercent : '%' ∉ s.toList) :
    validateName s = none := by
  have hplain : plainName s = false := by simp [plainName,hhead]
  unfold validateName
  split
  · rfl
  · rw [unquote_plain hpercent]
    show (if '%' ∈ s.toList then none else if plainName s = true then some s else none) = _
    rw [if_neg hpercent,hplain]
    rfl

theorem visible_ne_hidden (h : validateName raw = some safe) (hhead : s.toList.head? = some '.') :
    safe ≠ s := by
  rintro rfl
  have hplain := validateName_plain h
  simp [plainName,hhead] at hplain

end CloudFiles

namespace Storage

open CloudFiles

/-- `safe_name`. -/
def safeName (raw : String) : Option String :=
  if raw = "" ∨ nameMax*3 < raw.length then none
  else match unquote raw with
    | none => none
    | some name =>
      if '%' ∈ name.toList ∨ name = "" ∨ nameMax < name.length then none
      else if name = "." ∨ name = ".." ∨ name.toList.head? = some '.' then none
      else if '/' ∈ name.toList ∨ '\\' ∈ name.toList ∨ Char.ofNat 0 ∈ name.toList then none
      else if name.toList.any Text.isControl then none
      else some name

variable {name : String}

/-- The checks of `safe_name` on the decoded name are those of `validate_name`. -/
theorem plainName_iff : plainName name = true ↔ ¬(name = "" ∨ nameMax < name.length) ∧
    ¬(name = "." ∨ name = ".." ∨ name.toList.head? = some '.') ∧
    ¬('/' ∈ name.toList ∨ '\\' ∈ name.toList ∨ Char.ofNat 0 ∈ name.toList) ∧
    ¬name.toList.any Text.isControl = true := by
  have hdots : name = "." ∨ name = ".." → name.toList.head? = some '.' := by
    rintro (rfl | rfl) <;> rfl
  have hnul : Char.ofNat 0 ∈ name.toList → name.toList.any Text.isControl = true := fun h =>
    List.any_eq_true.mpr ⟨_,h,rfl⟩
  have hmarks : (∃ c ∈ name.toList, ['/','\\'].contains c = true) ↔
      '/' ∈ name.toList ∨ '\\' ∈ name.toList := by
    constructor
    · rintro ⟨c,hc,hmark⟩
      have hmark : c = '/' ∨ c = '\\' := by simpa using hmark
      rcases hmark with rfl | rfl
      · exact .inl hc
      · exact .inr hc
    · rintro (h | h)
      · exact ⟨_,h,rfl⟩
      · exact ⟨_,h,rfl⟩
  have hany : (name.toList.any fun c => ['/','\\'].contains c || Text.isControl c) = true ↔
      ('/' ∈ name.toList ∨ '\\' ∈ name.toList) ∨ name.toList.any Text.isControl = true := by
    rw [← hmarks]
    simp only [List.any_eq_true,Bool.or_eq_true,and_or_left,exists_or]
  have hchars : (!name.toList.any fun c => ['/','\\'].contains c || Text.isControl c) = true ↔
      ¬('/' ∈ name.toList ∨ '\\' ∈ name.toList) ∧ ¬name.toList.any Text.isControl = true := by
    rw [Bool.not_eq_true',← Bool.not_eq_true,hany,not_or]
  rw [plainName,Bool.and_eq_true,Bool.and_eq_true,Bool.and_eq_true,hchars,decide_eq_true_eq,
    decide_eq_true_eq,decide_eq_true_eq]
  constructor
  · rintro ⟨⟨⟨hempty,hlength⟩,hhead⟩,hmarks,hcontrol⟩
    refine ⟨not_or.mpr ⟨hempty,Nat.not_lt.mpr hlength⟩,?_,?_,hcontrol⟩
    · rintro (h | h | h)
      · exact hhead (hdots (.inl h))
      · exact hhead (hdots (.inr h))
      · exact hhead h
    · rintro (h | h | h)
      · exact hmarks (.inl h)
      · exact hmarks (.inr h)
      · exact hcontrol (hnul h)
  · rintro ⟨hlength,hdots,hmarks,hcontrol⟩
    simp only [not_or] at hlength hdots hmarks
    exact ⟨⟨⟨hlength.1,Nat.not_lt.mp hlength.2⟩,hdots.2.2⟩,not_or.mpr ⟨hmarks.1,hmarks.2.1⟩,
      hcontrol⟩

/-- The validator of the store and that of the gateway are one function. -/
theorem safeName_eq (raw : String) : safeName raw = validateName raw := by
  unfold safeName validateName
  split_ifs with hbounds
  · rfl
  · cases unquote raw with
    | none => rfl
    | some name =>
      show _ = if '%' ∈ name.toList then none else if plainName name = true then some name else none
      dsimp only
      by_cases hpercent : '%' ∈ name.toList
      · rw [if_pos (.inl hpercent),if_pos hpercent]
      · rw [if_neg hpercent]
        by_cases hplain : plainName name = true
        · obtain ⟨hlength,hdots,hmarks,hcontrol⟩ := plainName_iff.mp hplain
          rw [if_pos hplain,if_neg (not_or.mpr ⟨hpercent,hlength⟩),if_neg hdots,if_neg hmarks,
            if_neg hcontrol]
        · rw [if_neg hplain]
          split_ifs with hlength hdots hmarks hcontrol
          · rfl
          · rfl
          · rfl
          · rfl
          · exact absurd (plainName_iff.mpr ⟨(not_or.mp hlength).2,hdots,hmarks,hcontrol⟩) hplain

namespace DownloadStore

variable {raw safe final : String} {token : UInt64}

/-- A name without a dot has no extension; otherwise its last dot divides it. -/
theorem splitExtension_cases (name : String) :
    '.' ∉ name.toList ∧ splitExtension name = (name,"") ∨
    ∃ stem extension, name.toList = stem ++ '.'::extension ∧ '.' ∉ extension ∧
      splitExtension name = (String.ofList stem,
        if extension = [] then "" else String.ofList ('.'::extension)) := by
  have hspan := List.takeWhile_append_dropWhile (p:=(· ≠ '.')) (l:=name.toList.reverse)
  have hplain : ∀ c ∈ name.toList.reverse.takeWhile (· ≠ '.'), c ≠ '.' := fun c hc => by
    simpa using List.mem_takeWhile_imp hc
  have hhead := List.head?_dropWhile_not (· ≠ '.') name.toList.reverse
  unfold splitExtension
  rw [List.span_eq_takeWhile_dropWhile]
  generalize name.toList.reverse.takeWhile (· ≠ '.') = extension at *
  generalize name.toList.reverse.dropWhile (· ≠ '.') = rest at *
  have hname : name.toList = rest.reverse ++ extension.reverse := by
    rw [← List.reverse_append,hspan,List.reverse_reverse]
  have hnone : '.' ∉ extension.reverse := fun h => hplain '.' (List.mem_reverse.mp h) rfl
  cases rest with
  | nil =>
    left
    rw [List.reverse_nil,List.nil_append] at hname
    rw [hname]
    exact ⟨hnone,rfl⟩
  | cons c stem =>
    right
    have hdot : c = '.' := by simpa using hhead
    rw [List.reverse_cons,List.append_assoc,hdot] at hname
    refine ⟨stem.reverse,extension.reverse,hname,hnone,?_⟩
    by_cases hempty : extension = []
    · simp [hempty]
    · simp [hempty]

/-- The name is its stem and then nothing, or a dot and more; the extension is in that. -/
theorem splitExtension_spec (safe : String) :
    ∃ rest, safe.toList = (splitExtension safe).1.toList ++ rest ∧
      (rest = [] ∨ rest.head? = some '.') ∧ ∀ c ∈ (splitExtension safe).2.toList, c ∈ rest := by
  rcases splitExtension_cases safe with ⟨-,hsplit⟩ | ⟨stem,extension,hname,-,hsplit⟩
  · exact ⟨[],by simp [hsplit]⟩
  · refine ⟨'.'::extension,by simp [hsplit,hname],.inr rfl,?_⟩
    intro c hc
    rw [hsplit] at hc
    dsimp only at hc
    split_ifs at hc with hempty
    · simp at hc
    · simpa using hc

/-- A numbered name is made of the characters of the name, a blank, brackets and digits. -/
theorem numberedName_chars {index : ℕ} {c : Char} (h : c ∈ (numberedName safe index).toList) :
    c ∈ safe.toList ∨ c ∈ [' ','(',')'] ∨ c.isDigit = true := by
  have hdigits : ∀ c ∈ (toString index).toList, c.isDigit = true := by
    intro c hc
    exact Json.isDigit_toDigits index c (by simpa [toString,Nat.repr] using hc)
  obtain ⟨rest,hsafe,-,hextension⟩ := splitExtension_spec safe
  rw [hsafe,List.mem_append]
  simp only [numberedName,String.toList_append,List.mem_append] at h
  rcases h with (((hc | hc) | hc) | hc) | hc
  · exact Or.inl (Or.inl hc)
  · have hblank : c = ' ' ∨ c = '(' := by simpa using hc
    rcases hblank with rfl | rfl <;> simp
  · exact Or.inr (Or.inr (hdigits c hc))
  · have hclose : c = ')' := by simpa using hc
    simp [hclose]
  · exact Or.inl (Or.inr (hextension c hc))

theorem numberedName_head (index : ℕ) (hempty : safe ≠ "") (hhead : safe.toList.head? ≠ some '.') :
    (numberedName safe index).toList.head? = safe.toList.head? := by
  obtain ⟨rest,hsafe,hrest,-⟩ := splitExtension_spec safe
  have hstem : (splitExtension safe).1.toList ≠ [] := by
    intro hstem
    rw [hstem,List.nil_append] at hsafe
    rcases hrest with rfl | hdot
    · exact hempty (by simpa using hsafe)
    · rw [hsafe] at hhead
      exact hhead hdot
  obtain ⟨c,cs,hstem⟩ := List.exists_cons_of_ne_nil hstem
  rw [hsafe]
  simp [numberedName,hstem]

theorem digit_plain {c : Char} (h : c.isDigit = true) :
    ¬(['/','\\'].contains c || Text.isControl c) = true := by
  have hbounds : 48 ≤ c.val ∧ c.val ≤ 57 := by simpa [Char.isDigit] using h
  have hlow : 48 ≤ c.toNat := by simpa using UInt32.le_iff_toNat_le.mp hbounds.1
  have hhigh : c.toNat ≤ 57 := by simpa using UInt32.le_iff_toNat_le.mp hbounds.2
  intro hbad
  rw [Bool.or_eq_true] at hbad
  rcases hbad with hmark | hctl
  · simp at hmark
    rcases hmark with rfl | rfl
    · simp at hlow
    · simp at hhigh
  · simp only [Text.isControl,Bool.or_eq_true,decide_eq_true_eq,beq_iff_eq] at hctl
    rcases hctl with hlt | heq
    · have hlt : c.toNat < 0x20 := UInt32.lt_iff_toNat_lt.mp hlt
      omega
    · have heq : c.toNat = 0x7F := congrArg UInt32.toNat heq
      omega

/-- What stands between the marks of a temporary name that the file system takes is short enough. -/
theorem length_final (h : Text.utf8Length (tempName final token) ≤ nameBytes) :
    final.length ≤ nameMax := by
  have hsize : ∀ cs : List Char, cs.length ≤ Text.byteSize cs := by
    intro cs
    unfold Text.byteSize
    induction cs with
    | nil => simp
    | cons c cs ih =>
      have hpos := Char.utf8Size_pos c
      simp only [List.length_cons,List.map_cons,List.sum_cons]
      omega
  have hlength := hsize (tempName final token).toList
  rw [Text.utf8Length_eq] at h
  simp only [tempName,String.toList_append,List.length_append,String.length_toList] at hlength
  simp only [tempName,String.toList_append] at h
  unfold nameBytes at h
  unfold nameMax
  omega

theorem nextName_mem {f : Directories.Folder Node} (h : nextName f safe = .ok final) :
    pathExists f final = false ∧ (final = safe ∨ ∃ index, final = numberedName safe index) := by
  unfold nextName at h
  split at h
  · next name hfind =>
    cases h
    refine ⟨by simpa using List.find?_some hfind,?_⟩
    rcases List.mem_cons.mp (List.mem_of_find?_eq_some hfind) with rfl | hnumbered
    · exact Or.inl rfl
    · obtain ⟨index,-,rfl⟩ := List.mem_map.mp hnumbered
      exact Or.inr ⟨index,rfl⟩
  · cases h

theorem numberedName_no_percent {index : ℕ} (h : '%' ∉ safe.toList) :
    '%' ∉ (numberedName safe index).toList := by
  intro hc
  rcases numberedName_chars hc with hold | hmark | hdigit
  · exact h hold
  · simp at hmark
  · simp [Char.isDigit] at hdigit

theorem final_no_percent {f : Directories.Folder Node} (hsafe : validateName raw = some safe)
    (hnext : nextName f safe = .ok final) : '%' ∉ final.toList := by
  have hpercent := validateName_no_percent hsafe
  rcases (nextName_mem hnext).2 with rfl | ⟨index,rfl⟩
  · exact hpercent
  · exact numberedName_no_percent hpercent

/-- A numbered name that is short enough is a name that can be read. -/
theorem validateName_numbered {index : ℕ} (hsafe : validateName raw = some safe)
    (hlength : (numberedName safe index).length ≤ nameMax) :
    validateName (numberedName safe index) = some (numberedName safe index) := by
  have hplain := validateName_plain hsafe
  simp only [plainName,Bool.and_eq_true,decide_eq_true_eq,Bool.not_eq_true',
    List.any_eq_false] at hplain
  obtain ⟨⟨⟨hempty,-⟩,hhead⟩,hchars⟩ := hplain
  apply validateName_of_plain _ (numberedName_no_percent (validateName_no_percent hsafe))
  simp only [plainName,Bool.and_eq_true,decide_eq_true_eq,Bool.not_eq_true',List.any_eq_false]
  refine ⟨⟨⟨?_,hlength⟩,?_⟩,?_⟩
  · intro hnil
    have hheads := numberedName_head index hempty hhead
    have hnone : safe.toList = [] := by
      rw [← List.head?_eq_none_iff,← hheads,hnil]
      rfl
    exact hempty (by simpa using hnone)
  · rw [numberedName_head index hempty hhead]
    exact hhead
  · intro c hc
    rcases numberedName_chars hc with hold | hmark | hdigit
    · exact hchars c hold
    · simp at hmark
      rcases hmark with rfl | rfl | rfl <;> decide
    · exact digit_plain hdigit

/-- A name that a call allocates and then opens a temporary file for is a name that can be read. -/
theorem validateName_final {f : Directories.Folder Node} (hsafe : validateName raw = some safe)
    (hnext : nextName f safe = .ok final)
    (hfits : Text.utf8Length (tempName final token) ≤ nameBytes) :
    validateName final = some final := by
  rcases (nextName_mem hnext).2 with rfl | ⟨index,rfl⟩
  · exact validateName_idem hsafe
  · exact validateName_numbered hsafe (length_final hfits)

theorem hexDigit_ne_percent (n : ℕ) : Json.hexDigit n ≠ '%' := by
  by_cases h : n < 16
  · have hall : ∀ n < 16, Json.hexDigit n ≠ '%' := by decide
    exact hall n h
  · have hlist : "0123456789abcdef".toList.length ≤ n := by
      have hlength : "0123456789abcdef".toList.length = 16 := by decide
      omega
    rw [Json.hexDigit,List.getD_eq_getElem?_getD,List.getElem?_eq_none hlist]
    decide

theorem tempName_head : (tempName final token).toList.head? = some '.' := by
  simp [tempName]

/-- A temporary file is hidden: no name that is asked for leads to it. -/
theorem validateName_temp (hfinal : '%' ∉ final.toList) :
    validateName (tempName final token) = none := by
  apply validateName_hidden tempName_head
  simp only [tempName,String.toList_append,List.mem_append,tokenHex,String.toList_ofList,
    List.mem_map,not_or]
  refine ⟨⟨⟨⟨by decide,hfinal⟩,by decide⟩,?_⟩,by decide⟩
  rintro ⟨i,-,hdigit⟩
  exact hexDigit_ne_percent _ hdigit

end DownloadStore
end Storage
end CloudBrowser
