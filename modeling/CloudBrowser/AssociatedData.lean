import CloudBrowser.Delimited
import CloudBrowser.GrantCustody
import CloudBrowser.JsonDumps
import CloudBrowser.Quoting

/-! The associated data of a wrapped leg tells its grant, its scope and its name, and does so for
any texts in their place. -/
namespace CloudBrowser
namespace GrantCustody

/-! ### Texts and their bytes -/

theorem asciiBytes_append (s s' : List Char) :
    asciiBytes (s ++ s') = asciiBytes s ++ asciiBytes s' := List.map_append

theorem asciiBytes_injective {s s' : List Char} (hs : s.all (·.toNat < 128) = true)
    (hs' : s'.all (·.toNat < 128) = true) (h : asciiBytes s = asciiBytes s') : s = s' := by
  have htext := congrArg asciiText h
  rw [asciiText_asciiBytes hs,asciiText_asciiBytes hs'] at htext
  simpa using congrArg String.toList htext

theorem ascii_dumpString (s : String) : (Json.dumpString s).all (·.toNat < 128) = true := by
  apply List.all_eq_true.mpr
  intro c hc
  have hsize := Json.utf8Size_dumpString hc
  have hle := Char.utf8Size_eq_one_iff.mp hsize
  have hlt : c.toNat < 128 := by
    have htoNat : c.val.toNat ≤ 127 := hle
    exact Nat.lt_succ_of_le htoNat
  simpa using hlt

/-- A text that is written between its quotes tells where it ends. -/
theorem dumpString_append {s s' : String} {rest rest' : List Char}
    (h : Json.dumpString s ++ rest = Json.dumpString s' ++ rest') : s = s' ∧ rest = rest' := by
  obtain ⟨body,hbody,hread⟩ := Json.quotes_dumpString s rest
  obtain ⟨body',hbody',hread'⟩ := Json.quotes_dumpString s' rest'
  have hsame : body = body' := List.tail_eq_of_cons_eq (hbody.symm.trans (h.trans hbody'))
  rw [hsame,hread'] at hread
  simpa [eq_comm] using hread

/-! ### The scope -/

/-- A member of an object and what comes after it. -/
def member (name value : String) (rest : List Char) : List Char :=
  Json.dumpString name ++ ':'::(Json.dumpString value ++ rest)

theorem member_eq {name value value' : String} {rest rest' : List Char}
    (h : member name value rest = member name value' rest') : value = value' ∧ rest = rest' :=
  dumpString_append (List.cons.inj (List.append_cancel_left h)).2

theorem member_append (name value : String) (rest more : List Char) :
    member name value rest ++ more = member name value (rest ++ more) := by
  simp only [member,List.append_assoc,List.cons_append]

/-- The six texts of a scope, whatever they are. -/
structure ScopeTexts where
  profileId : String
  principalId : String
  siteId : String
  targetTabId : String
  browserId : String
  generation : String
  deriving DecidableEq

def GrantScope.texts (scope : GrantScope) : ScopeTexts :=
  ⟨scope.profileId,scope.principalId,scope.siteId,scope.targetTabId,scope.browserId,
    scope.generation⟩

namespace ScopeTexts

/-- The dictionary that `canonical` gives to `json.dumps`. -/
def fields (scope : ScopeTexts) : List (String × Json) :=
  [("browser_id",.str scope.browserId),("generation",.str scope.generation),
    ("principal_id",.str scope.principalId),("profile_id",.str scope.profileId),
    ("site_id",.str scope.siteId),("target_tab_id",.str scope.targetTabId)]

def canonical (scope : ScopeTexts) : Bytes :=
  Text.encodeUtf8 (String.ofList (Json.dump (fun _ => []) (.obj scope.fields)))

/-- The object of the fields, as text. -/
def text (scope : ScopeTexts) : List Char :=
  '\x7b'::member "browser_id" scope.browserId (','::member "generation" scope.generation
    (','::member "principal_id" scope.principalId (','::member "profile_id" scope.profileId
      (','::member "site_id" scope.siteId (','::member "target_tab_id" scope.targetTabId
        ['\x7d'])))))

end ScopeTexts

/-- The text of the fields tells where it ends. -/
theorem texts_append {scope scope' : ScopeTexts} {rest rest' : List Char}
    (h : scope.text ++ rest = scope'.text ++ rest') : scope = scope' ∧ rest = rest' := by
  simp only [ScopeTexts.text,List.cons_append,member_append] at h
  obtain ⟨hbrowser,h⟩ := member_eq (List.cons.inj h).2
  obtain ⟨hgeneration,h⟩ := member_eq (List.cons.inj h).2
  obtain ⟨hprincipal,h⟩ := member_eq (List.cons.inj h).2
  obtain ⟨hprofile,h⟩ := member_eq (List.cons.inj h).2
  obtain ⟨hsite,h⟩ := member_eq (List.cons.inj h).2
  obtain ⟨htab,h⟩ := member_eq (List.cons.inj h).2
  constructor
  · cases scope
    cases scope'
    cases hbrowser
    cases hgeneration
    cases hprincipal
    cases hprofile
    cases hsite
    cases htab
    rfl
  · exact (List.cons.inj h).2

theorem ascii_member {name value : String} {rest : List Char}
    (h : rest.all (·.toNat < 128) = true) :
    (member name value rest).all (·.toNat < 128) = true := by
  rw [member,List.all_append,ascii_dumpString,List.all_cons,List.all_append,ascii_dumpString,h]
  rfl

theorem ascii_texts (scope : ScopeTexts) : scope.text.all (·.toNat < 128) = true := by
  have hcons : ∀ {c : Char} {rest : List Char}, c.toNat < 128 → rest.all (·.toNat < 128) = true →
      (c::rest).all (·.toNat < 128) = true := by
    intro c rest hc hrest
    rw [List.all_cons,hrest,decide_eq_true hc]
    rfl
  have hcomma : ∀ {rest : List Char}, rest.all (·.toNat < 128) = true →
      (','::rest).all (·.toNat < 128) = true := hcons (by decide)
  apply hcons (by decide)
  apply ascii_member
  apply hcomma
  apply ascii_member
  apply hcomma
  apply ascii_member
  apply hcomma
  apply ascii_member
  apply hcomma
  apply ascii_member
  apply hcomma
  apply ascii_member
  rfl

theorem dump_fields (scope : ScopeTexts) :
    Json.dump (fun _ => []) (.obj scope.fields) = scope.text := by
  have hnames : ["browser_id","generation","principal_id","profile_id","site_id",
      "target_tab_id"].Pairwise (· ≤ ·) := by decide +kernel
  have hsorted : (Json.dumpFields (fun _ => []) scope.fields).Pairwise fun f g => f.1 ≤ g.1 :=
    List.pairwise_map.mp hnames
  rw [Json.dump,hsorted.insertionSort_eq]
  simp only [ScopeTexts.fields,Json.dumpFields,ScopeTexts.text,Json.dump,member,List.map_cons,
    List.map_nil,List.intercalate,List.intersperse,List.flatten_cons,List.flatten_nil,
    List.append_assoc,List.cons_append,List.nil_append,List.append_nil]

theorem canonical_texts (scope : ScopeTexts) : scope.canonical = asciiBytes scope.text := by
  rw [ScopeTexts.canonical,dump_fields]
  exact CloudFiles.encodeUtf8_ascii fun c hc => List.all_eq_true.mp (ascii_texts scope) c hc

/-- The object of the scope's fields, as text. -/
def GrantScope.text (scope : GrantScope) : List Char :=
  '\x7b'::member "browser_id" scope.browserId (','::member "generation" scope.generation
    (','::member "principal_id" scope.principalId (','::member "profile_id" scope.profileId
      (','::member "site_id" scope.siteId (','::member "target_tab_id" scope.targetTabId
        ['\x7d'])))))

theorem canonical_eq (scope : GrantScope) : scope.canonical = asciiBytes scope.text := by
  simp only [GrantScope.canonical,GrantScope.text,member,List.intercalate,List.intersperse,
    List.flatten_cons,List.flatten_nil,List.append_assoc,List.cons_append,List.nil_append,
    List.append_nil]

theorem texts_injective : Function.Injective GrantScope.texts := by
  intro scope scope' h
  cases scope
  cases scope'
  cases h
  rfl

theorem text_injective {scope scope' : GrantScope} (h : scope.text = scope'.text) :
    scope = scope' := by
  have htexts : scope.texts.text ++ [] = scope'.texts.text ++ [] := congrArg (· ++ []) h
  exact texts_injective (texts_append htexts).1

theorem ascii_text (scope : GrantScope) : scope.text.all (·.toNat < 128) = true :=
  ascii_texts scope.texts

/-! ### Quotes -/

/-- The quotes of a text that no backslash escapes, and whether one stands before it. -/
def quotes : Bool → List Char → ℕ
  | _, [] => 0
  | true, _::rest => quotes false rest
  | false, c::rest =>
    if c = '\\' then quotes true rest
    else if c = '"' then quotes false rest+1
    else quotes false rest

theorem quotes_plain {c : Char} (hback : c ≠ '\\') (hquote : c ≠ '"') (rest : List Char) :
    quotes false (c::rest) = quotes false rest := by
  rw [quotes,if_neg hback,if_neg hquote]

/-- After a bar nothing is escaped. -/
theorem quotes_split (escaped : Bool) (before after : List Char) :
    quotes escaped (before ++ '|'::after) = quotes escaped before + quotes false after := by
  induction before generalizing escaped with
  | nil =>
    rw [List.nil_append,quotes,Nat.zero_add]
    cases escaped <;> rfl
  | cons c before ih =>
    cases escaped with
    | true => exact ih false
    | false =>
      rw [List.cons_append,quotes,quotes,ih,ih]
      split_ifs <;> omega

theorem quotes_hexDigit (n : ℕ) (rest : List Char) :
    quotes false (Json.hexDigit n::rest) = quotes false rest := by
  have hdigit : Json.hexDigit n ∈ "0123456789abcdef".toList := by
    rw [Json.hexDigit,List.getD_eq_getElem?_getD]
    cases hn : "0123456789abcdef".toList[n]? with
    | none => exact List.mem_cons_self
    | some c => exact List.mem_of_getElem? hn
  have hall : ("0123456789abcdef".toList.all fun c => c ≠ '\\' ∧ c ≠ '"') = true := rfl
  have hplain := List.all_eq_true.mp hall _ hdigit
  simp only [decide_eq_true_eq] at hplain
  exact quotes_plain hplain.1 hplain.2 rest

theorem quotes_unit (u : ℕ) (rest : List Char) :
    quotes false (Json.escapeUnit u ++ rest) = quotes false rest := by
  have hopen : quotes false (Json.escapeUnit u ++ rest) = quotes false (Json.hexDigit (u/4096)::
      Json.hexDigit (u/256%16)::Json.hexDigit (u/16%16)::Json.hexDigit (u%16)::rest) := rfl
  rw [hopen,quotes_hexDigit,quotes_hexDigit,quotes_hexDigit,quotes_hexDigit]

theorem quotes_escapeChar (c : Char) (rest : List Char) :
    quotes false (Json.escapeChar c ++ rest) = quotes false rest := by
  unfold Json.escapeChar
  split_ifs with hquote hback
  · rfl
  · rfl
  · rfl
  · rfl
  · rfl
  · rfl
  · rfl
  · exact quotes_plain hback hquote rest
  · exact quotes_unit _ rest
  · rw [List.append_assoc,quotes_unit,quotes_unit]

theorem quotes_flatMap (cs rest : List Char) :
    quotes false (cs.flatMap Json.escapeChar ++ rest) = quotes false rest := by
  induction cs with
  | nil => rfl
  | cons c cs ih => rw [List.flatMap_cons,List.append_assoc,quotes_escapeChar,ih]

theorem quotes_dumpString (s : String) (rest : List Char) :
    quotes false (Json.dumpString s ++ rest) = quotes false rest+2 := by
  have hopen : quotes false (Json.dumpString s ++ rest) =
      quotes false (s.toList.flatMap Json.escapeChar ++ ['"'] ++ rest)+1 := rfl
  rw [hopen,List.append_assoc,quotes_flatMap]
  rfl

theorem quotes_member (name value : String) (rest : List Char) :
    quotes false (member name value rest) = quotes false rest+4 := by
  have hcolon : quotes false (':'::(Json.dumpString value ++ rest)) =
      quotes false (Json.dumpString value ++ rest) := rfl
  rw [member,quotes_dumpString,hcolon,quotes_dumpString]

theorem quotes_text (scope : GrantScope) : quotes false scope.text = 24 := by
  have hbrace : ∀ rest, quotes false ('\x7b'::rest) = quotes false rest := fun _ => rfl
  have hcomma : ∀ rest, quotes false (','::rest) = quotes false rest := fun _ => rfl
  simp only [GrantScope.text,hbrace,hcomma,quotes_member]
  rfl

/-- No scope's text stands behind a bar in another's. -/
theorem text_ne_append (scope scope' : GrantScope) (before : List Char) :
    scope.text ≠ before ++ '|'::scope'.text := by
  intro h
  have hcount := quotes_split false before scope'.text
  rw [← h,quotes_text,quotes_text] at hcount
  have hnone : quotes false before = 0 := by omega
  obtain ⟨rest,hrest⟩ : ∃ rest, scope.text = '\x7b' :: '"' :: rest := ⟨_,rfl⟩
  rw [hrest] at h
  cases before with
  | nil => cases (List.cons.inj h).1
  | cons c before =>
    obtain ⟨hc,h⟩ := List.cons.inj h
    cases before with
    | nil => cases (List.cons.inj h).1
    | cons c' before =>
      rw [← hc,← (List.cons.inj h).1] at hnone
      cases hnone

/-! ### The associated data -/

/-- The text of the associated data. -/
def boundText (id : GrantId) (scope : GrantScope) (leg : LegName) : List Char :=
  "cloudbrowser.grant.v1|".toList ++ (id.value.toList ++ '|'::scope.text) ++ '|'::leg.value.toList

theorem aad_eq (id : GrantId) (scope : GrantScope) (leg : LegName) :
    aad id scope leg = asciiBytes (boundText id scope leg) := by
  have hbar (text : List Char) : asciiBytes ('|'::text) = asciiBytes ['|'] ++ asciiBytes text :=
    asciiBytes_append ['|'] text
  unfold aad boundText
  generalize "cloudbrowser.grant.v1|".toList = label
  rw [canonical_eq,asciiBytes_append,asciiBytes_append,asciiBytes_append,hbar scope.text,
    hbar leg.value.toList]
  simp only [List.append_assoc]

theorem ascii_boundText (id : GrantId) (scope : GrantScope) (leg : LegName) :
    (boundText id scope leg).all (·.toNat < 128) = true := by
  have hname : leg.value.toList.all (·.toNat < 128) = true := by
    cases leg <;> decide +kernel
  have hlabel : "cloudbrowser.grant.v1|".toList.all (·.toNat < 128) = true := by decide +kernel
  unfold boundText
  generalize "cloudbrowser.grant.v1|".toList = label at hlabel
  simp only [List.all_append,List.all_cons,hname,hlabel,id.ascii,ascii_text]
  rfl

/-- The name of the leg stands behind the last bar. -/
theorem last_bar {before before' after after' : List Char} (hafter : '|' ∉ after)
    (hafter' : '|' ∉ after') (h : before ++ '|'::after = before' ++ '|'::after') :
    before = before' ∧ after = after' := by
  rcases List.append_eq_append_iff.mp h with ⟨text,rfl,hrest⟩ | ⟨text,rfl,hrest⟩
  · cases text with
    | nil => exact ⟨(List.append_nil _).symm,(List.cons.inj hrest).2⟩
    | cons c text =>
      refine absurd ?_ hafter
      rw [(List.cons.inj hrest).2]
      exact List.mem_append_right _ List.mem_cons_self
  · cases text with
    | nil => exact ⟨List.append_nil _,(List.cons.inj hrest).2.symm⟩
    | cons c text =>
      refine absurd ?_ hafter'
      rw [(List.cons.inj hrest).2]
      exact List.mem_append_right _ List.mem_cons_self

theorem grant_and_scope {id id' : GrantId} {scope scope' : GrantScope}
    (h : id.value.toList ++ '|'::scope.text = id'.value.toList ++ '|'::scope'.text) :
    id.value.toList = id'.value.toList ∧ scope.text = scope'.text := by
  rcases List.append_eq_append_iff.mp h with ⟨text,hid,hrest⟩ | ⟨text,hid,hrest⟩
  · cases text with
    | nil => exact ⟨((List.append_nil _).symm.trans hid.symm),(List.cons.inj hrest).2⟩
    | cons c text => exact absurd (List.cons.inj hrest).2 (text_ne_append _ _ _)
  · cases text with
    | nil => exact ⟨hid.trans (List.append_nil _),(List.cons.inj hrest).2.symm⟩
    | cons c text => exact absurd (List.cons.inj hrest).2 (text_ne_append _ _ _)

/-- Two legs with the same associated data are of the same name, scope and grant. -/
theorem aad_injective {id id' : GrantId} {scope scope' : GrantScope} {leg leg' : LegName}
    (h : aad id scope leg = aad id' scope' leg') : id = id' ∧ scope = scope' ∧ leg = leg' := by
  rw [aad_eq,aad_eq] at h
  have htext := asciiBytes_injective (ascii_boundText id scope leg)
    (ascii_boundText id' scope' leg') h
  have hbars : ∀ leg : LegName, '|' ∉ leg.value.toList := by
    intro leg
    cases leg <;> decide
  unfold boundText at htext
  obtain ⟨hbefore,hname⟩ := last_bar (hbars leg) (hbars leg') htext
  obtain ⟨hid,hscope⟩ := grant_and_scope (List.append_cancel_left hbefore)
  refine ⟨?_,text_injective hscope,?_⟩
  · cases id
    cases id'
    cases String.toList_inj.mp hid
    rfl
  · cases leg <;> cases leg' <;> first | rfl | cases hname

/-! ### Any grant, scope and leg -/

/-- `text.encode("ascii")`, where it does not raise. -/
def encodeAscii (text : String) : Option Bytes :=
  if text.toList.all (·.toNat < 128) then some (asciiBytes text.toList) else none

/-- `_aad`, where neither the grant's id nor the leg's name fails to be encoded. -/
def encodeAad (grantId : String) (scope : ScopeTexts) (leg : String) : Option Bytes := do
  let id ← encodeAscii grantId
  let name ← encodeAscii leg
  return asciiBytes "cloudbrowser.grant.v1|".toList ++ id ++ asciiBytes ['|'] ++ scope.canonical ++
    asciiBytes ['|'] ++ name

/-- The text of the associated data, of any texts. -/
def dataText (grantId : String) (scope : ScopeTexts) (leg : String) : List Char :=
  "cloudbrowser.grant.v1|".toList ++ (grantId.toList ++ '|'::(scope.text ++ '|'::leg.toList))

section Texts

variable {grantId grantId' leg leg' : String} {scope scope' : ScopeTexts} {bytes : Bytes}

theorem encodeAscii_eq_some {text : String} : encodeAscii text = some bytes ↔
    text.toList.all (·.toNat < 128) = true ∧ asciiBytes text.toList = bytes := by
  unfold encodeAscii
  split_ifs with h <;> simp [h]

theorem ascii_dataText : (dataText grantId scope leg).all (·.toNat < 128) = true ↔
    grantId.toList.all (·.toNat < 128) = true ∧ leg.toList.all (·.toNat < 128) = true := by
  have hlabel : "cloudbrowser.grant.v1|".toList.all (·.toNat < 128) = true := by decide +kernel
  have hbar : decide (('|').toNat < 128) = true := by decide
  unfold dataText
  generalize "cloudbrowser.grant.v1|".toList = label at hlabel
  rw [List.all_append,List.all_append,List.all_cons,List.all_append,List.all_cons,hlabel,hbar,
    ascii_texts]
  simp

theorem asciiBytes_dataText : asciiBytes (dataText grantId scope leg) =
    asciiBytes "cloudbrowser.grant.v1|".toList ++ asciiBytes grantId.toList ++ asciiBytes ['|'] ++
      scope.canonical ++ asciiBytes ['|'] ++ asciiBytes leg.toList := by
  have hbar (text : List Char) : asciiBytes ('|'::text) = asciiBytes ['|'] ++ asciiBytes text :=
    asciiBytes_append ['|'] text
  unfold dataText
  generalize "cloudbrowser.grant.v1|".toList = label
  rw [canonical_texts,asciiBytes_append,asciiBytes_append,hbar,asciiBytes_append,hbar leg.toList]
  simp only [List.append_assoc]

theorem encodeAad_eq_some : encodeAad grantId scope leg = some bytes ↔
    (dataText grantId scope leg).all (·.toNat < 128) = true ∧
      asciiBytes (dataText grantId scope leg) = bytes := by
  rw [ascii_dataText,asciiBytes_dataText]
  constructor
  · intro h
    obtain ⟨id,hid,h⟩ := Option.bind_eq_some_iff.mp h
    obtain ⟨name,hname,h⟩ := Option.bind_eq_some_iff.mp h
    obtain ⟨hascii,rfl⟩ := encodeAscii_eq_some.mp hid
    obtain ⟨hascii',rfl⟩ := encodeAscii_eq_some.mp hname
    exact ⟨⟨hascii,hascii'⟩,Option.some.inj h⟩
  · rintro ⟨⟨hid,hname⟩,rfl⟩
    rw [encodeAad,encodeAscii,if_pos hid,encodeAscii,if_pos hname]
    rfl

/-- The associated data that a store binds is that of the texts it holds. -/
theorem encodeAad_texts (id : GrantId) (scope : GrantScope) (leg : LegName) :
    encodeAad id.value scope.texts leg.value = some (aad id scope leg) := by
  have htext : boundText id scope leg = dataText id.value scope.texts leg.value :=
    List.append_assoc _ _ _ |>.trans (congrArg _ (List.append_assoc _ _ _))
  rw [encodeAad_eq_some,← htext,aad_eq]
  exact ⟨ascii_boundText id scope leg,rfl⟩

/-- The id stands before the first bar, if it has none. -/
theorem first_bar {before before' after after' : List Char} (hbefore : '|' ∉ before)
    (hbefore' : '|' ∉ before') (h : before ++ '|'::after = before' ++ '|'::after') :
    before = before' ∧ after = after' := by
  obtain ⟨hhead,htail⟩ := Delimited.takeWhile_head hbefore after
  obtain ⟨hhead',htail'⟩ := Delimited.takeWhile_head hbefore' after'
  rw [h] at hhead htail
  exact ⟨hhead.symm.trans hhead',htail.symm.trans htail'⟩

/-- The associated data tells the grant's id, if that has no bar, every text of the scope and the
name of the leg. -/
theorem data_tells (hbar : '|' ∉ grantId.toList) (hbar' : '|' ∉ grantId'.toList)
    (h : encodeAad grantId scope leg = some bytes)
    (h' : encodeAad grantId' scope' leg' = some bytes) :
    grantId = grantId' ∧ scope = scope' ∧ leg = leg' := by
  obtain ⟨hascii,rfl⟩ := encodeAad_eq_some.mp h
  obtain ⟨hascii',hbytes⟩ := encodeAad_eq_some.mp h'
  have htext := asciiBytes_injective hascii' hascii hbytes
  obtain ⟨hid,hrest⟩ := first_bar hbar' hbar (List.append_cancel_left htext)
  obtain ⟨rfl,hname⟩ := texts_append hrest
  exact ⟨(String.toList_inj.mp hid).symm,rfl,(String.toList_inj.mp (List.cons.inj hname).2).symm⟩

/-- Texts with the characters that the associated data is put together with. -/
def barredScope : ScopeTexts := ⟨"p|\"","|g","\x7b","a,b","\\","é"⟩

theorem data_tells_barred :
    "g1" = "g1" ∧ barredScope = barredScope ∧ "session|\x7b" = "session|\x7b" := by
  have hdata : encodeAad "g1" barredScope "session|\x7b" =
      some (asciiBytes (dataText "g1" barredScope "session|\x7b")) :=
    encodeAad_eq_some.mpr ⟨ascii_dataText.mpr ⟨by decide,by decide⟩,rfl⟩
  exact data_tells (by decide) (by decide) hdata hdata

end Texts

end GrantCustody
end CloudBrowser
