import CloudBrowser.FileNames
import Mathlib.Data.Nat.Basic

/-! The identity that the edge vouches for in request headers, and what a client can change of
it that gets a value of its own in front of the edge's. -/
namespace CloudBrowser
namespace EdgeAuth

open CloudFiles (isPrincipal)

section Parsing

/-- The headers of a request; a value that is no string is `none`. -/
abbrev Headers := List (String × Option String)

structure EdgeIdentity where
  email : Option String := none
  sub : Option String := none
  user : Option String := none
  name : Option String := none
  groups : List String := []
  deriving DecidableEq, Repr

def requiredGroup : String := "PMOC_Users"

def maxGroupHeaderBytes : ℕ := 4096

def maxGroups : ℕ := 32

/-- `_present`, for a name in lower case. -/
def isPresent (headers : Headers) (name : String) : Bool :=
  headers.any fun h => Text.lower h.1 = name.toList

/-- `_take`: the value of the header, unless it has two spellings. -/
def take (headers : Headers) (name : String) : Option String :=
  match headers.filter fun h => Text.lower h.1 = name.toList with
  | [h] => h.2
  | _ => none

/-- `str.isspace`, for one character. -/
def isSpace (c : Char) : Bool :=
  (0x09 ≤ c.val && c.val ≤ 0x0D) || (0x1C ≤ c.val && c.val ≤ 0x20) || c.val == 0x85 ||
    c.val == 0xA0 || c.val == 0x1680 || (0x2000 ≤ c.val && c.val ≤ 0x200A) || c.val == 0x2028 ||
    c.val == 0x2029 || c.val == 0x202F || c.val == 0x205F || c.val == 0x3000

/-- `str.strip`. -/
def strip (cs : List Char) : List Char :=
  ((cs.dropWhile isSpace).reverse.dropWhile isSpace).reverse

/-- `raw.rsplit(",", 1)[-1]`: what follows the last comma. -/
def afterLastComma (cs : List Char) : List Char := (cs.reverse.takeWhile (· ≠ ',')).reverse

/-- `_bounded_text`. -/
def boundedText (value : String) : Bool := Text.bounded String.length 256 value

/-- `_scalar_value`. -/
def scalarValue (headers : Headers) (name : String) : Option String := do
  let raw ← take headers name
  let value := String.ofList (strip (afterLastComma raw.toList))
  if boundedText value then some value else none

/-- The groups that a header's value lists, of those that have the form of a group. -/
def groupTokens (raw : String) : List String :=
  ((raw.toList.splitOn ',').map fun token => String.ofList (strip token)).filter fun token =>
    boundedText token && isPrincipal token

/-- `_groups_value`. -/
def groupsValue (headers : Headers) : List String :=
  match take headers "remote-groups" with
  | none => []
  | some raw =>
    if maxGroupHeaderBytes < Text.utf8Length raw then [] else (groupTokens raw).take maxGroups

/-- `str.isalnum` of a character that an address can begin with. -/
def isAlnum (c : Char) : Bool := c.isAlphanum || c.val == 0x212A

def emailAllowed (c : Char) : Bool :=
  c.isLower || c.isDigit || ['.','_','@','+','-'].contains c

/-- `_valid_email`; an address has one `@`. -/
def validEmail (value : String) : Bool :=
  match value.toList.splitOn '@' with
  | [localPart,domain] =>
    value.length ≤ 254 && localPart.head?.any isAlnum && domain.contains '.' &&
      !(['-','.'].any fun c => domain.head? = some c || domain.getLast? = some c) &&
      !(localPart.tails.any (['.','.'].isPrefixOf ·) || domain.tails.any (['.','.'].isPrefixOf ·)) &&
      (Text.lower value).all emailAllowed
  | _ => false

/-- A header that is there must be one that can be read. -/
def acceptable (headers : Headers) (name : String) (valid : String → Bool) : Bool :=
  !isPresent headers name || (scalarValue headers name).any valid

def parseEdgeIdentity (headers : Headers) : Option EdgeIdentity :=
  let sub := scalarValue headers "remote-sub"
  let email := scalarValue headers "remote-email"
  let user := scalarValue headers "remote-user"
  let name := scalarValue headers "remote-name"
  let groups := groupsValue headers
  if !acceptable headers "remote-sub" isPrincipal then none
  else if !acceptable headers "remote-user" isPrincipal then none
  else if !acceptable headers "remote-email" validEmail then none
  else if !acceptable headers "remote-name" boundedText then none
  else if sub = none ∧ user = none ∧ email = none then none
  else some ⟨email.map fun e => String.ofList (Text.lower e),sub,user,name,groups⟩

/-- The PMOC_Users decision. -/
def permitted (headers : Headers) : Bool :=
  (parseEdgeIdentity headers).any fun identity => identity.groups.contains requiredGroup

end Parsing

section Prefixes

variable {α : Type}

/-- The first `n` entries of `l` are those of `p`, over and over. -/
def Repeats (n : ℕ) (p l : List α) : Prop := ∀ i < n, l[i]? = p[i % p.length]?

theorem getElem?_mod_sub {p : List α} {i : ℕ} (h : p.length ≤ i) :
    p[(i-p.length) % p.length]? = p[i % p.length]? := by
  rw [← Nat.mod_eq_sub_mod h]

/-- What is put in front of a list shows in its beginning, unless the beginning repeats it. -/
theorem take_append_eq_take {n : ℕ} {p l : List α} :
    (p ++ l).take n = l.take n ↔ p = [] ∨ Repeats n p l := by
  have hentries : (p ++ l).take n = l.take n ↔ ∀ i < n, (p ++ l)[i]? = l[i]? := by
    constructor
    · intro h i hi
      have hi' : ((p ++ l).take n)[i]? = (l.take n)[i]? := by rw [h]
      rwa [List.getElem?_take_of_lt hi,List.getElem?_take_of_lt hi] at hi'
    · intro h
      apply List.ext_getElem?
      intro i
      by_cases hi : i < n
      · rw [List.getElem?_take_of_lt hi,List.getElem?_take_of_lt hi,h i hi]
      · rw [List.getElem?_take_eq_none (Nat.not_lt.mp hi),List.getElem?_take_eq_none (Nat.not_lt.mp hi)]
  rw [hentries]
  constructor
  · intro h
    by_cases hp : p = []
    · exact .inl hp
    · refine .inr fun i => ?_
      induction i using Nat.strong_induction_on with
      | _ i ih =>
        intro hi
        rw [← h i hi]
        by_cases hlt : i < p.length
        · rw [List.getElem?_append_left hlt,Nat.mod_eq_of_lt hlt]
        · have hle := Nat.not_lt.mp hlt
          have hpos : 0 < p.length := List.length_pos_iff.mpr hp
          rw [List.getElem?_append_right hle,ih (i-p.length) (by omega) (by omega),
            getElem?_mod_sub hle]
  · rintro (rfl | h) i hi
    · rfl
    · by_cases hlt : i < p.length
      · rw [List.getElem?_append_left hlt,h i hi,Nat.mod_eq_of_lt hlt]
      · have hle := Nat.not_lt.mp hlt
        rw [List.getElem?_append_right hle,h (i-p.length) (by omega),getElem?_mod_sub hle,h i hi]

theorem afterLastComma_append (p v : List Char) :
    afterLastComma (p ++ ',' :: v) = afterLastComma v := by
  simp only [afterLastComma,List.reverse_append,List.reverse_cons,List.append_assoc]
  rw [List.takeWhile_append]
  split
  · rename_i hall
    have hwhole : v.reverse.takeWhile (· ≠ ',') = v.reverse :=
      List.IsPrefix.eq_of_length (List.takeWhile_prefix _) hall
    rw [hwhole]
    simp
  · rfl

theorem groupTokens_append (p v : String) :
    groupTokens (p ++ "," ++ v) = groupTokens p ++ groupTokens v := by
  have hlist : (p ++ "," ++ v).toList = p.toList ++ ',' :: v.toList := by simp
  rw [groupTokens,hlist,List.splitOn_append_cons_self,List.map_append,List.filter_append]
  rfl

end Prefixes

section Forgery

variable {before after : Headers} {key p v name : String}

/-- The headers as the edge sends them, with `v` for the value of one of them. -/
def sent (before after : Headers) (key v : String) : Headers := before ++ (key,some v) :: after

/-- The same, where a value of the client has been joined in front of the edge's. -/
def joined (before after : Headers) (key p v : String) : Headers :=
  sent before after key (p ++ "," ++ v)

/-- The header is there under another spelling as well. -/
def Respelled (before after : Headers) (name : String) : Prop :=
  ∃ h ∈ before ++ after, Text.lower h.1 = name.toList

theorem isPresent_sent (v v' : String) :
    isPresent (sent before after key v) name = isPresent (sent before after key v') name := by
  simp [isPresent,sent]

theorem take_other (h : Text.lower key ≠ name.toList) (v v' : String) :
    take (sent before after key v) name = take (sent before after key v') name := by
  simp [take,sent,h]

theorem take_respelled (h : Respelled before after name) (hkey : Text.lower key = name.toList) :
    take (sent before after key v) name = none := by
  obtain ⟨other,hother,hname⟩ := h
  have hmem : other ∈ (before ++ after).filter fun h => Text.lower h.1 = name.toList :=
    List.mem_filter.mpr ⟨hother,decide_eq_true hname⟩
  have hlength := List.length_pos_of_mem hmem
  have hwhole : 2 ≤ ((sent before after key v).filter fun h => Text.lower h.1 = name.toList).length := by
    simp only [sent,List.filter_append,List.filter_cons,hkey,decide_true,if_true,
      List.length_append,List.length_cons] at hlength ⊢
    omega
  unfold take
  split
  · rename_i h hone
    rw [hone] at hwhole
    simp at hwhole
  · rfl

theorem take_alone (h : ¬Respelled before after name) (hkey : Text.lower key = name.toList) :
    take (sent before after key v) name = some v := by
  have hnone : ∀ h ∈ before ++ after, ¬Text.lower h.1 = name.toList := fun x hx hname => h ⟨x,hx,hname⟩
  have hbefore : before.filter (fun h => Text.lower h.1 = name.toList) = [] :=
    List.filter_eq_nil_iff.mpr fun x hx => by simpa using hnone x (by simp [hx])
  have hafter : after.filter (fun h => Text.lower h.1 = name.toList) = [] :=
    List.filter_eq_nil_iff.mpr fun x hx => by simpa using hnone x (by simp [hx])
  simp [take,sent,hbefore,hafter,hkey]

/-- Of a scalar header only what follows the last comma is read. -/
theorem scalarValue_joined (name : String) :
    scalarValue (joined before after key p v) name = scalarValue (sent before after key v) name := by
  by_cases hkey : Text.lower key = name.toList
  · by_cases hrespelled : Respelled before after name
    · simp only [scalarValue,joined,take_respelled hrespelled hkey]
    · simp [scalarValue,joined,take_alone hrespelled hkey,afterLastComma_append]
  · simp only [scalarValue,joined,take_other hkey _ v]

theorem acceptable_joined (name : String) (valid : String → Bool) :
    acceptable (joined before after key p v) name valid =
      acceptable (sent before after key v) name valid := by
  simp only [acceptable,scalarValue_joined]
  rw [joined,isPresent_sent _ v]

/-- Neither of the authoritative headers is malformed, nor the address or the name, and one of
the three that identify somebody is there. -/
def accepted (headers : Headers) : Bool :=
  acceptable headers "remote-sub" isPrincipal && acceptable headers "remote-user" isPrincipal &&
    acceptable headers "remote-email" validEmail && acceptable headers "remote-name" boundedText &&
    !(scalarValue headers "remote-sub" = none && scalarValue headers "remote-user" = none &&
      scalarValue headers "remote-email" = none)

theorem accepted_joined :
    accepted (joined before after key p v) = accepted (sent before after key v) := by
  simp only [accepted,acceptable_joined,scalarValue_joined]

theorem parseEdgeIdentity_eq (headers : Headers) : parseEdgeIdentity headers =
    if accepted headers then some {
      email := (scalarValue headers "remote-email").map fun e => String.ofList (Text.lower e)
      sub := scalarValue headers "remote-sub"
      user := scalarValue headers "remote-user"
      name := scalarValue headers "remote-name"
      groups := groupsValue headers } else none := by
  simp only [parseEdgeIdentity,accepted]
  split_ifs <;> simp_all

/-- A prefix of a header can change the groups at most. -/
theorem parse_joined_iff :
    parseEdgeIdentity (joined before after key p v) = parseEdgeIdentity (sent before after key v) ↔
      accepted (sent before after key v) = true →
        groupsValue (joined before after key p v) = groupsValue (sent before after key v) := by
  simp only [parseEdgeIdentity_eq,accepted_joined,scalarValue_joined]
  by_cases haccepted : accepted (sent before after key v) = true
  · simp [haccepted]
  · simp [haccepted]

theorem utf8Length_joined (p v : String) :
    Text.utf8Length (p ++ "," ++ v) = Text.utf8Length p+1+Text.utf8Length v := by
  have hcomma : ",".utf8ByteSize = 1 := rfl
  simp only [Text.utf8Length,String.utf8ByteSize_append,hcomma]

/-- Where the value of the client has no influence on the groups that are read. -/
inductive Harmless (p v : String) : Prop
  | tooLong (h : maxGroupHeaderBytes < Text.utf8Length v)
  | nothingLost (h : maxGroupHeaderBytes < Text.utf8Length p+1+Text.utf8Length v)
      (h' : groupTokens v = [])
  | nothingAdded (h : Text.utf8Length p+1+Text.utf8Length v ≤ maxGroupHeaderBytes)
      (h' : groupTokens p = [])
  | repeated (h : Text.utf8Length p+1+Text.utf8Length v ≤ maxGroupHeaderBytes)
      (h' : Repeats maxGroups (groupTokens p) (groupTokens v))

theorem groupsValue_joined_iff (hkey : Text.lower key = "remote-groups".toList)
    (h : ¬Respelled before after "remote-groups") :
    groupsValue (joined before after key p v) = groupsValue (sent before after key v) ↔
      Harmless p v := by
  simp only [groupsValue,joined,take_alone h hkey,utf8Length_joined,groupTokens_append]
  by_cases hv : maxGroupHeaderBytes < Text.utf8Length v
  · have hboth : maxGroupHeaderBytes < Text.utf8Length p+1+Text.utf8Length v := by omega
    simp only [hv,hboth,if_true,true_iff]
    exact .tooLong hv
  · by_cases hboth : maxGroupHeaderBytes < Text.utf8Length p+1+Text.utf8Length v
    · simp only [hv,hboth,if_true,if_false]
      constructor
      · intro hnil
        refine .nothingLost hboth ?_
        simpa [maxGroups] using hnil.symm
      · rintro (h | ⟨-,h'⟩ | ⟨h,-⟩ | ⟨h,-⟩)
        · exact absurd h hv
        · simp [h']
        · omega
        · omega
    · simp only [hv,hboth,if_false]
      rw [take_append_eq_take]
      constructor
      · rintro (hnil | hrepeats)
        · exact .nothingAdded (Nat.not_lt.mp hboth) hnil
        · exact .repeated (Nat.not_lt.mp hboth) hrepeats
      · rintro (h | ⟨h,-⟩ | ⟨-,h'⟩ | ⟨-,h'⟩)
        · exact absurd h hv
        · exact absurd h hboth
        · exact .inl h'
        · exact .inr h'

/-- The header is not that of the groups, or it is not read, or what the client has put in front
of it is without influence on the groups. -/
def Uninfluenced (before after : Headers) (key p v : String) : Prop :=
  Text.lower key ≠ "remote-groups".toList ∨ Respelled before after "remote-groups" ∨
    accepted (sent before after key v) = false ∨ Harmless p v

theorem parse_joined_iff_uninfluenced (before after : Headers) (key p v : String) :
    parseEdgeIdentity (joined before after key p v) = parseEdgeIdentity (sent before after key v) ↔
      Uninfluenced before after key p v := by
  rw [parse_joined_iff]
  unfold Uninfluenced
  by_cases hkey : Text.lower key = "remote-groups".toList
  · by_cases hrespelled : Respelled before after "remote-groups"
    · have hsame : groupsValue (joined before after key p v) = groupsValue (sent before after key v) := by
        simp only [groupsValue,joined,take_respelled hrespelled hkey]
      simp [hsame,hrespelled]
    · rw [groupsValue_joined_iff hkey hrespelled]
      cases haccepted : accepted (sent before after key v)
      · simp
      · simp [hkey,hrespelled]
  · have hsame : groupsValue (joined before after key p v) = groupsValue (sent before after key v) := by
      simp only [groupsValue,joined,take_other hkey _ v]
    exact iff_of_true (fun _ => hsame) (.inl hkey)

end Forgery

section Counterexample

def identityHeaderNames : List String :=
  ["remote-sub","remote-email","remote-user","remote-name","remote-groups"]

/-- Somebody who is in another group names the required one. -/
theorem forged_group_permitted : ¬∀ (before after : Headers) (key p v : String),
    (∃ name ∈ identityHeaderNames, Text.lower key = name.toList) →
    parseEdgeIdentity (joined before after key p v) = parseEdgeIdentity (sent before after key v) ∧
      permitted (joined before after key p v) = permitted (sent before after key v) := by
  intro h
  obtain ⟨-,hpermitted⟩ := h [("Remote-User",some "mallory")] [] "Remote-Groups" "PMOC_Users" "guests"
    ⟨"remote-groups",by decide,by decide⟩
  revert hpermitted
  decide +kernel

end Counterexample
end EdgeAuth
end CloudBrowser
