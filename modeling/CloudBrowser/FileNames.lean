import CloudBrowser.JsonText

/-! The names of downloaded files, and the binding of the principal they belong to. -/
namespace CloudBrowser
namespace CloudFiles

def isAscii (c : Char) : Bool := c.val < 0x80

/-- `unquote_to_bytes` of an ASCII text; a `%` without two hex digits stands for itself. -/
def unquoteToBytes : List Char → Bytes
  | [] => []
  | '%'::x::y::rest =>
    match Json.hexValue x, Json.hexValue y with
    | some high, some low => UInt8.ofNat (16*high+low) :: unquoteToBytes rest
    | _, _ => 0x25 :: unquoteToBytes (x::y::rest)
  | c::rest => UInt8.ofNat c.toNat :: unquoteToBytes rest

/-- `urllib.parse.unquote` with strict errors: each ASCII run is unquoted on its own. -/
def unquote (s : String) : Option String :=
  if '%' ∉ s.toList then some s
  else do
    let parts ← (s.toList.splitBy fun a b => isAscii a == isAscii b).mapM fun run =>
      if run.all isAscii then Text.decodeUtf8 (unquoteToBytes run) else some (String.ofList run)
    return String.join parts

def nameMax : ℕ := 255

/-- A name whose characters allow it: not hidden, without separators and controls. -/
def plainName (name : String) : Bool :=
  name ≠ "" && name.length ≤ nameMax && name.toList.head? ≠ some '.' &&
    !name.toList.any fun c => ['/','\\'].contains c || Text.isControl c

def validateName (raw : String) : Option String :=
  if raw = "" ∨ nameMax*3 < raw.length then none
  else do
    let name ← unquote raw
    if '%' ∈ name.toList then none
    else if plainName name then some name
    else none

theorem validateName_plain {raw name : String} (h : validateName raw = some name) : plainName name = true := by
  unfold validateName at h
  split_ifs at h
  obtain ⟨name',-,h⟩ := Option.bind_eq_some_iff.mp h
  split_ifs at h with _ hplain
  cases h
  exact hplain

/-- A leading letter or digit, and then up to 255 of these and of the extra characters. -/
def matchesName (extra : List Char) (s : String) : Bool :=
  match s.toList with
  | [] => false
  | c::cs => c.isAlphanum && cs.length ≤ 255 && cs.all fun c => c.isAlphanum || extra.contains c

def isPrincipal (s : String) : Bool := matchesName ['.','_','@',':','+','-'] s

/-- An empty token passes for the default. -/
def isToken (s : String) : Bool := s = "" || matchesName ['.','_',':','-'] s

structure PrincipalBinding where
  principalId : String
  profileId : String := "profile-unassigned"
  browserId : String := "browser-unassigned"
  generation : String := "generation-0"
  requestId : String := ""
  principal : isPrincipal principalId = true
  tokens : [profileId,browserId,generation,requestId].all isToken = true
  deriving DecidableEq

/-- The constructor, which raises `ValueError`. -/
def PrincipalBinding.build (principalId profileId browserId generation requestId : String) :
    Option PrincipalBinding :=
  if hprincipal : isPrincipal principalId = true then
    if htokens : [profileId,browserId,generation,requestId].all isToken = true then
      some ⟨principalId,profileId,browserId,generation,requestId,hprincipal,htokens⟩
    else none
  else none

example : validateName "report%20%C3%A9.pdf" = some "report é.pdf" := by decide +kernel

end CloudFiles
end CloudBrowser
