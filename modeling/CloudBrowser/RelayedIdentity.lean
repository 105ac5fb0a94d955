import CloudBrowser.EdgeAuth
import Mathlib.Data.List.Induction

/-! The identity headers that the viewer relays to the router, and the identity that the router
reads from them. -/
namespace CloudBrowser
namespace ViewerSessionSurface

open EdgeAuth

def identityHeaderAllowlist : List String :=
  ["remote-sub","remote-user","remote-email","remote-name","remote-groups"]

/-- One header after those that are relayed already; the first spelling of a name stays. -/
def relayHeader (lowered : Headers) (h : String × Option String) : Headers :=
  let name := String.ofList (Text.lower h.1)
  match h.2 with
  | some value =>
    if name ∈ identityHeaderAllowlist ∧ name ∉ lowered.map Prod.fst then
      lowered ++ [(name,some value)]
    else lowered
  | none => lowered

/-- `_relay_headers`. -/
def relayHeaders (headers : Headers) : Headers := headers.foldl relayHeader []

variable {headers lowered : Headers} {h : String × Option String} {name value : String}

/-- The values under a name that are strings. -/
def stringValues (headers : Headers) (name : String) : List String :=
  (headers.filter fun h => Text.lower h.1 = name.toList).filterMap Prod.snd

theorem lower_allowed (hname : name ∈ identityHeaderAllowlist) : Text.lower name = name.toList := by
  have hall : ∀ name ∈ identityHeaderAllowlist, Text.lower name = name.toList := by decide
  exact hall name hname

theorem relayHeader_allowed (hkeys : ∀ l ∈ lowered, l.1 ∈ identityHeaderAllowlist) :
    ∀ l ∈ relayHeader lowered h, l.1 ∈ identityHeaderAllowlist := by
  unfold relayHeader
  cases h.2 with
  | none => exact hkeys
  | some value =>
    dsimp only
    split_ifs with hnew
    · intro l hl
      rcases List.mem_append.mp hl with hl | hl
      · exact hkeys l hl
      · rw [List.mem_singleton.mp hl]
        exact hnew.1
    · exact hkeys

theorem relayHeaders_allowed (headers : Headers) :
    ∀ l ∈ relayHeaders headers, l.1 ∈ identityHeaderAllowlist := by
  induction headers using List.reverseRecOn with
  | nil => simp [relayHeaders]
  | append_singleton headers h ih =>
    rw [relayHeaders,List.foldl_append]
    exact relayHeader_allowed ih

/-- What is relayed under a name, after one more header. -/
theorem filter_relayHeader (hname : name ∈ identityHeaderAllowlist)
    (hkeys : ∀ l ∈ lowered, l.1 ∈ identityHeaderAllowlist) :
    (relayHeader lowered h).filter (fun l => Text.lower l.1 = name.toList) =
      if Text.lower h.1 = name.toList ∧ lowered.filter (fun l => Text.lower l.1 = name.toList) = []
      then h.2.toList.map fun value => (name,some value)
      else lowered.filter fun l => Text.lower l.1 = name.toList := by
  unfold relayHeader
  cases hvalue : h.2 with
  | none =>
    dsimp only
    split_ifs with hfirst
    · simp [hfirst.2]
    · rfl
  | some value =>
    dsimp only
    by_cases hspelled : Text.lower h.1 = name.toList
    · have hlower : String.ofList (Text.lower h.1) = name := by rw [hspelled,String.ofList_toList]
      have hfresh : name ∉ lowered.map Prod.fst ↔
          lowered.filter (fun l => Text.lower l.1 = name.toList) = [] := by
        rw [List.filter_eq_nil_iff]
        constructor
        · intro hnot l hl heq
          rw [decide_eq_true_eq,lower_allowed (hkeys l hl)] at heq
          exact hnot (List.mem_map.mpr ⟨l,hl,String.toList_injective heq⟩)
        · intro hnone hmem
          obtain ⟨l,hl,rfl⟩ := List.mem_map.mp hmem
          exact hnone l hl (by simp [lower_allowed (hkeys l hl)])
      rw [hlower]
      simp only [hname,hspelled,true_and,hfresh]
      split_ifs with hnil
      · simp [List.filter_append,hnil,lower_allowed hname]
      · rfl
    · have hnot : ¬(Text.lower h.1 = name.toList ∧
          lowered.filter (fun l => Text.lower l.1 = name.toList) = []) :=
        fun hboth => hspelled hboth.1
      rw [if_neg hnot]
      split_ifs with hnew
      · have hother : ¬Text.lower (String.ofList (Text.lower h.1)) = name.toList := by
          rw [lower_allowed hnew.1,String.toList_ofList]
          exact hspelled
        simp [List.filter_append,hother]
      · rfl

/-- Of each identity header the first string is relayed. -/
theorem filter_relayHeaders (headers : Headers) (hname : name ∈ identityHeaderAllowlist) :
    (relayHeaders headers).filter (fun l => Text.lower l.1 = name.toList) =
      (stringValues headers name).head?.toList.map fun value => (name,some value) := by
  induction headers using List.reverseRecOn with
  | nil => rfl
  | append_singleton headers h ih =>
    have hstep :=
      @filter_relayHeader (relayHeaders headers) h name hname (relayHeaders_allowed headers)
    rw [relayHeaders,List.foldl_append]
    rw [relayHeaders] at hstep ih
    simp only [List.foldl_cons,List.foldl_nil,hstep,ih]
    have hvalues : stringValues (headers ++ [h]) name = stringValues headers name ++
        if Text.lower h.1 = name.toList then h.2.toList else [] := by
      simp only [stringValues,List.filter_append,List.filterMap_append]
      split_ifs with hspelled
      · cases hvalue : h.2 <;> simp [hspelled,hvalue]
      · simp [hspelled]
    rw [hvalues]
    by_cases hspelled : Text.lower h.1 = name.toList
    · cases hvalue : stringValues headers name <;> cases h.2 <;> simp [hspelled]
    · simp [hspelled]

/-- The header is not there, or there once and with a string. -/
def Single (headers : Headers) (name : String) : Prop :=
  headers.filter (fun h => Text.lower h.1 = name.toList) = [] ∨
    ∃ key value, headers.filter (fun h => Text.lower h.1 = name.toList) = [(key,some value)]

theorem single_of_take (htake : take headers name = some value) : Single headers name := by
  unfold take at htake
  split at htake
  · next h hone =>
    obtain ⟨key,other⟩ := h
    cases htake
    exact .inr ⟨key,value,hone⟩
  · cases htake

theorem single_of_acceptable {valid : String → Bool}
    (hacceptable : acceptable headers name valid = true) : Single headers name := by
  rw [acceptable,Bool.or_eq_true,Bool.not_eq_true'] at hacceptable
  rcases hacceptable with habsent | hvalid
  · rw [isPresent,List.any_eq_false] at habsent
    exact .inl (List.filter_eq_nil_iff.mpr habsent)
  · cases hscalar : scalarValue headers name with
    | none => simp [hscalar] at hvalid
    | some scalar =>
      obtain ⟨raw,htake,-⟩ := Option.bind_eq_some_iff.mp hscalar
      exact single_of_take htake

theorem take_relayHeaders (hname : name ∈ identityHeaderAllowlist) (hsingle : Single headers name) :
    take (relayHeaders headers) name = take headers name := by
  rw [take,filter_relayHeaders headers hname,take,stringValues]
  rcases hsingle with hnone | ⟨key,value,hone⟩
  · rw [hnone]
    rfl
  · rw [hone]
    rfl

theorem isPresent_relayHeaders (hname : name ∈ identityHeaderAllowlist)
    (hsingle : Single headers name) :
    isPresent (relayHeaders headers) name = isPresent headers name := by
  have hpresent : ∀ headers : Headers, isPresent headers name =
      !(headers.filter fun h => Text.lower h.1 = name.toList).isEmpty := by
    intro headers
    cases hfilter : headers.filter fun h => Text.lower h.1 = name.toList with
    | nil => simpa [isPresent] using hfilter
    | cons h rest =>
      have hmem : h ∈ headers.filter fun h => Text.lower h.1 = name.toList := by simp [hfilter]
      rw [List.mem_filter] at hmem
      simpa [isPresent] using ⟨h.1,⟨h.2,hmem.1⟩,by simpa using hmem.2⟩
  rw [hpresent,hpresent,filter_relayHeaders headers hname,stringValues]
  rcases hsingle with hnone | ⟨key,value,hone⟩
  · rw [hnone]
    rfl
  · rw [hone]
    rfl

theorem scalarValue_relayHeaders (hname : name ∈ identityHeaderAllowlist)
    (hsingle : Single headers name) :
    scalarValue (relayHeaders headers) name = scalarValue headers name := by
  rw [scalarValue,take_relayHeaders hname hsingle,scalarValue]

theorem acceptable_relayHeaders (hname : name ∈ identityHeaderAllowlist)
    (hsingle : Single headers name) (valid : String → Bool) :
    acceptable (relayHeaders headers) name valid = acceptable headers name valid := by
  rw [acceptable,isPresent_relayHeaders hname hsingle,scalarValue_relayHeaders hname hsingle,
    acceptable]

/-- The router reads the identity that the viewer has read. -/
theorem parse_relayHeaders (headers : Headers) (identity : EdgeIdentity)
    (hparse : parseEdgeIdentity headers = some identity)
    (hgroup : requiredGroup ∈ identity.groups) :
    parseEdgeIdentity (relayHeaders headers) = some identity := by
  have hgroups : groupsValue (relayHeaders headers) = groupsValue headers := by
    rw [parseEdgeIdentity_eq] at hparse
    split_ifs at hparse
    cases hparse
    have hsome : ∃ raw, take headers "remote-groups" = some raw := by
      cases htake : take headers "remote-groups" with
      | none => simp [groupsValue,htake] at hgroup
      | some raw => exact ⟨raw,rfl⟩
    obtain ⟨raw,htake⟩ := hsome
    rw [groupsValue,take_relayHeaders (by decide) (single_of_take htake),groupsValue]
  have haccepted : accepted headers = true := by
    rw [parseEdgeIdentity_eq] at hparse
    split_ifs at hparse with haccepted
    exact haccepted
  simp only [accepted,Bool.and_eq_true] at haccepted
  obtain ⟨⟨⟨⟨hsub,huser⟩,hemail⟩,hname⟩,-⟩ := haccepted
  have hsub := single_of_acceptable hsub
  have huser := single_of_acceptable huser
  have hemail := single_of_acceptable hemail
  have hname := single_of_acceptable hname
  rw [← hparse]
  simp only [parseEdgeIdentity,hgroups,acceptable_relayHeaders (by decide) hsub,
    acceptable_relayHeaders (by decide) huser,acceptable_relayHeaders (by decide) hemail,
    acceptable_relayHeaders (by decide) hname,scalarValue_relayHeaders (by decide) hsub,
    scalarValue_relayHeaders (by decide) huser,scalarValue_relayHeaders (by decide) hemail,
    scalarValue_relayHeaders (by decide) hname]

/-- Alice's headers, as an edge sends them. -/
def aliceHeaders : Headers :=
  [("Host",some "viewer"),("Remote-User",some "alice"),("Remote-Groups",some "staff,PMOC_Users")]

theorem parse_relayHeaders_alice : parseEdgeIdentity (relayHeaders aliceHeaders) =
    some { user := some "alice", groups := ["staff","PMOC_Users"] } :=
  parse_relayHeaders aliceHeaders { user := some "alice", groups := ["staff","PMOC_Users"] }
    (by decide +kernel) (by decide)

end ViewerSessionSurface
end CloudBrowser
