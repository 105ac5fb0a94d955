import CloudBrowser.StoredNames
import Mathlib.Data.Finset.Basic

/-! The names that are given to files whose own name is taken, by the downloads store and by the
store of the gateway. -/
namespace CloudBrowser
namespace Storage

open CloudFiles
open DownloadStore

variable {ε : Type}

/-- The first of some names that is free, where a look at a name may raise. -/
def firstFree (taken : String → Except ε Bool) (exhausted : ε) : List String → Except ε String
  | [] => .error exhausted
  | name::names =>
    match taken name with
    | .error e => .error e
    | .ok true => firstFree taken exhausted names
    | .ok false => .ok name

/-- The name, and then the numbered ones. -/
def candidates (name : String) (count : ℕ) : List String :=
  name :: (List.range' 1 count).map (numberedName name)

/-- `exists` of a path in a directory with some names; for others the file system may refuse to
look. -/
def existsIn (existing : Finset String) (refused : String → Bool) (name : String) :
    Except StoreError Bool :=
  if name ∉ existing ∧ refused name then .error .other else .ok (name ∈ existing)

def exhausted : StoreError := .valueError "download name space exhausted"

/-- `_next_name`. -/
def nextNameIn (existing : Finset String) (refused : String → Bool) (safe : String) :
    Except StoreError String :=
  firstFree (existsIn existing refused) exhausted (candidates safe 1000)

/-- A look at a set of names never raises. -/
def memberOf (existing : Finset String) (name : String) : Except String Bool :=
  .ok (name ∈ existing)

/-- `allocate_duplicate`, with the text of what it raises. -/
def allocateDuplicate (base : String) (existing : Finset String) : Except String String :=
  firstFree (memberOf existing) "unable to allocate a duplicate name" (candidates base 999)

/-- The store of the model looks at the entries of a directory. -/
theorem nextName_eq (f : Directories.Folder Node) (safe : String) : nextName f safe =
    firstFree (fun name => .ok (pathExists f name)) exhausted (candidates safe 1000) := by
  have hfind : ∀ names : List String, (names.find? fun c => !pathExists f c).elim
      (.error exhausted) .ok = firstFree (fun name => .ok (pathExists f name)) exhausted names := by
    intro names
    induction names with
    | nil => rfl
    | cons name names ih =>
      rw [firstFree,List.find?_cons]
      cases hexists : pathExists f name with
      | true => simpa using ih
      | false => simp
  rw [candidates,← hfind,nextName]
  split
  · next name hfree =>
    rw [hfree]
    rfl
  · next hnone =>
    rw [hnone]
    rfl

section Lengths

variable {name : String} {index : ℕ}

/-- A final dot is left out of the numbered names. -/
def trailingDot (name : String) : ℕ := if name.toList.getLast? = some '.' then 1 else 0

theorem length_splitExtension (name : String) :
    (splitExtension name).1.length+(splitExtension name).2.length+trailingDot name =
      name.length := by
  rcases splitExtension_cases name with ⟨hnone,hsplit⟩ | ⟨stem,extension,hname,hnone,hsplit⟩
  · have hlast : name.toList.getLast? ≠ some '.' := fun h => hnone (List.mem_of_getLast? h)
    rw [hsplit,trailingDot,if_neg hlast]
    simp
  · have hlength : name.length = stem.length+(extension.length+1) := by
      rw [← String.length_toList,hname,List.length_append,List.length_cons]
    rw [hsplit,trailingDot,hname,hlength]
    cases hreverse : extension.reverse with
    | nil =>
      have hempty : extension = [] := List.reverse_eq_nil_iff.mp hreverse
      simp [hempty]
    | cons c cs =>
      have hne : extension ≠ [] := by
        rintro rfl
        cases hreverse
      have hlast : (stem ++ '.'::extension).getLast? ≠ some '.' := by
        intro h
        rw [List.getLast?_append_of_ne_nil _ (List.cons_ne_nil _ _),
          List.getLast?_cons_of_ne_nil hne] at h
        exact hnone (List.mem_of_getLast? h)
      rw [if_neg hlast,if_neg hne,String.length_ofList,String.length_ofList,List.length_cons,
        Nat.add_zero]

theorem length_numberedName (name : String) (index : ℕ) :
    (numberedName name index).length+trailingDot name =
      name.length+3+(Nat.toDigits 10 index).length := by
  have hsplit := length_splitExtension name
  have hdigits : (toString index).length = (Nat.toDigits 10 index).length := by
    simp [toString,Nat.repr]
  have hopen : " (".length = 2 := rfl
  have hclose : ")".length = 1 := rfl
  simp only [numberedName,String.length_append,hdigits,hopen,hclose]
  omega

end Lengths

section Safety

variable {taken : String → Except ε Bool} {spent : ε} {names : List String}
  {name raw final : String} {count : ℕ}

/-- The name, or the numbered one. -/
def candidate (name : String) (index : ℕ) : String :=
  if index = 0 then name else numberedName name index

theorem getElem?_candidates {index : ℕ} (h : index ≤ count) :
    (candidates name count)[index]? = some (candidate name index) := by
  cases index with
  | zero => rfl
  | succ index =>
    have hlt : index < count := h
    simp [candidates,candidate,hlt,Nat.add_comm]

theorem length_candidates : (candidates name count).length = count+1 := by simp [candidates]

theorem firstFree_ok_iff : firstFree taken spent names = .ok final ↔
    ∃ index : ℕ, names[index]? = some final ∧ taken final = .ok false ∧
      ∀ j : ℕ, j < index → ∀ c, names[j]? = some c → taken c = .ok true := by
  induction names with
  | nil => simp [firstFree]
  | cons name names ih =>
    rw [firstFree]
    constructor
    · intro h
      cases htaken : taken name with
      | error e =>
        rw [htaken] at h
        cases h
      | ok b =>
        rw [htaken] at h
        cases b with
        | false =>
          cases h
          exact ⟨0,rfl,htaken,fun j hj => absurd hj (Nat.not_lt_zero j)⟩
        | true =>
          obtain ⟨index,hfinal,hfree,hbefore⟩ := ih.mp h
          refine ⟨index+1,hfinal,hfree,?_⟩
          intro j hj c hc
          cases j with
          | zero =>
            cases hc
            exact htaken
          | succ j => exact hbefore j (Nat.lt_of_succ_lt_succ hj) c hc
    · rintro ⟨index,hfinal,hfree,hbefore⟩
      cases index with
      | zero =>
        cases hfinal
        rw [hfree]
      | succ index =>
        rw [hbefore 0 (Nat.succ_pos index) name rfl]
        exact ih.mpr ⟨index,hfinal,hfree,fun j hj => hbefore (j+1) (Nat.succ_lt_succ hj)⟩

theorem firstFree_candidates_iff : firstFree taken spent (candidates name count) = .ok final ↔
    ∃ index ≤ count, candidate name index = final ∧ taken final = .ok false ∧
      ∀ j < index, taken (candidate name j) = .ok true := by
  rw [firstFree_ok_iff]
  constructor
  · rintro ⟨index,hfinal,hfree,hbefore⟩
    have hle : index ≤ count := by
      have hlt := (List.getElem?_eq_some_iff.mp hfinal).1
      rw [length_candidates] at hlt
      omega
    rw [getElem?_candidates hle] at hfinal
    refine ⟨index,hle,Option.some.inj hfinal,hfree,fun j hj => ?_⟩
    exact hbefore j hj _ (getElem?_candidates (by omega))
  · rintro ⟨index,hle,hfinal,hfree,hbefore⟩
    refine ⟨index,by rw [getElem?_candidates hle,hfinal],hfree,?_⟩
    intro j hj c hc
    rw [getElem?_candidates (by omega)] at hc
    cases hc
    exact hbefore j hj

/-- What is returned is a name that is free, and that both validators leave as it is. -/
def Reusable (existing : Finset String) (result : Except ε String) : Prop :=
  ∀ final, result = .ok final →
    final ∉ existing ∧ safeName final = some final ∧ validateName final = some final

/-- Wherever the names before are taken and one is free, the name is not escaped, and the number
leaves it short enough. -/
def Roomy (taken : String → Except ε Bool) (count : ℕ) (name : String) : Prop :=
  ∀ index ≤ count, (∀ j < index, taken (candidate name j) = .ok true) →
    taken (candidate name index) = .ok false → '%' ∉ name.toList ∧ (0 < index →
      name.length+3+(Nat.toDigits 10 index).length ≤ nameMax+trailingDot name)

theorem percent_numberedName {index : ℕ} (h : '%' ∈ name.toList) :
    '%' ∈ (numberedName name index).toList := by
  rcases splitExtension_cases name with ⟨-,hsplit⟩ | ⟨stem,extension,hname,-,hsplit⟩
  · simp [numberedName,hsplit,h]
  · rw [hname,List.mem_append,List.mem_cons] at h
    simp only [numberedName,hsplit,String.toList_append,String.toList_ofList,List.mem_append]
    rcases h with h | h | h
    · exact .inl (.inl (.inl (.inl h)))
    · cases h
    · right
      rw [if_neg (List.ne_nil_of_mem h),String.toList_ofList]
      exact List.mem_cons_of_mem _ h

/-- A candidate is accepted as it is exactly where the name is and the number leaves room. -/
theorem validateName_candidate {index : ℕ} (hvalid : (safeName name).isSome) :
    validateName (candidate name index) = some (candidate name index) ↔
      '%' ∉ name.toList ∧ (0 < index →
        name.length+3+(Nat.toDigits 10 index).length ≤ nameMax+trailingDot name) := by
  obtain ⟨safe,hsafe⟩ := Option.isSome_iff_exists.mp hvalid
  rw [safeName_eq] at hsafe
  by_cases hpercent : '%' ∈ name.toList
  · have hstays : '%' ∈ (candidate name index).toList := by
      unfold candidate
      split_ifs
      · exact hpercent
      · exact percent_numberedName hpercent
    constructor
    · intro h
      exact absurd hstays (validateName_no_percent h)
    · rintro ⟨h,-⟩
      exact absurd hpercent h
  · have hself : validateName name = some name := by
      rw [hsafe,validateName_self hsafe hpercent]
    simp only [hpercent,not_false_eq_true,true_and]
    by_cases hindex : index = 0
    · simp [candidate,hindex,hself]
    · have hlength := length_numberedName name index
      rw [candidate,if_neg hindex]
      constructor
      · intro h _
        have hplain := validateName_plain h
        rw [plainName_iff] at hplain
        omega
      · intro h
        exact validateName_numbered hself (by have hroom := h (Nat.pos_of_ne_zero hindex); omega)

theorem reusable_iff {existing : Finset String} (hvalid : (safeName name).isSome)
    (hfree : ∀ c, taken c = .ok false → c ∉ existing) :
    Reusable existing (firstFree taken spent (candidates name count)) ↔ Roomy taken count name := by
  constructor
  · intro h index hle hbefore hindex
    have hreturned : firstFree taken spent (candidates name count) = .ok (candidate name index) :=
      firstFree_candidates_iff.mpr ⟨index,hle,rfl,hindex,hbefore⟩
    exact (validateName_candidate hvalid).mp (h _ hreturned).2.2
  · intro h final hresult
    obtain ⟨index,hle,rfl,hindex,hbefore⟩ := firstFree_candidates_iff.mp hresult
    have hvalidated := (validateName_candidate hvalid).mpr (h index hle hbefore hindex)
    exact ⟨hfree _ hindex,by rw [safeName_eq,hvalidated],hvalidated⟩

/-- Which names, taken or not, and which other names beside them make a name that can be used
again of what is allocated. -/
theorem duplicates_reusable_iff (name : String) (hvalid : (safeName name).isSome)
    (existing : Finset String) (refused : String → Bool) :
    (Reusable existing (nextNameIn existing refused name) ↔
      Roomy (existsIn existing refused) 1000 name) ∧
    (Reusable existing (allocateDuplicate name existing) ↔
      Roomy (memberOf existing) 999 name) := by
  constructor
  · apply reusable_iff hvalid
    intro c hc
    unfold existsIn at hc
    split_ifs at hc
    simpa using hc
  · apply reusable_iff hvalid
    intro c hc
    simpa [memberOf] using hc

theorem duplicates_reusable_iff_report :
    (Reusable {"report.pdf"} (nextNameIn {"report.pdf"} (fun _ => false) "report.pdf") ↔
      Roomy (existsIn {"report.pdf"} fun _ => false) 1000 "report.pdf") ∧
    (Reusable {"report.pdf"} (allocateDuplicate "report.pdf" {"report.pdf"}) ↔
      Roomy (memberOf {"report.pdf"}) 999 "report.pdf") :=
  duplicates_reusable_iff "report.pdf" (by decide +kernel) {"report.pdf"} fun _ => false

/-- A name as long as a name may be. -/
def longName : String := String.ofList (List.replicate nameMax 'a')

theorem safeName_longName : safeName longName = some longName := by
  have hpositive : nameMax ≠ 0 := by decide
  rw [safeName_eq]
  apply validateName_of_plain
  · simp [plainName,longName,Text.isControl,List.head?_replicate,hpositive]
  · simp [longName]

/-- Its duplicate is longer, and no name that can be read. -/
theorem long_duplicate_refused : ¬∀ (name : String), (safeName name).isSome →
    ∀ (existing : Finset String) (refused : String → Bool),
      Reusable existing (nextNameIn existing refused name) ∧
        Reusable existing (allocateDuplicate name existing) := by
  intro h
  have hvalid : (safeName longName).isSome := by simp [safeName_longName]
  have hlength : longName.length = nameMax := by simp [longName]
  have hnumbered := length_numberedName longName 1
  have hdot : trailingDot longName ≤ 1 := by
    unfold trailingDot
    split_ifs <;> omega
  have hdigits : (Nat.toDigits 10 1).length = 1 := rfl
  have hne : numberedName longName 1 ≠ longName := by
    intro heq
    rw [heq] at hnumbered
    omega
  have hroomy : Roomy (memberOf {longName}) 999 longName :=
    (reusable_iff hvalid (by simp [memberOf])).mp (h longName hvalid {longName} fun _ => false).2
  have hshort := (hroomy 1 (by omega) (by simp [memberOf,candidate])
    (by simp [memberOf,candidate,hne])).2 (by omega)
  omega

end Safety

end Storage
end CloudBrowser
