import CloudBrowser.ListedDownloads

/-! The two validators of file names, and the way of a validated name from the gateway through the
downloads service to the file that the store opens. -/
namespace CloudBrowser

namespace Storage

open CloudFiles

variable {raw name : String}

/-! ### What a read finds -/

/-- A regular file that is not too long. -/
def withinLimit (limit : ℕ) : Option Node → Option Bytes
  | some (.file content _) => if content.length ≤ limit then some content else none
  | _ => none

namespace DownloadStore

variable (store : DownloadStore) (p : String)

/-- What the directories of a principal have under a name. -/
def nodesUnder (name : String) (disk : Disk) : Except StoreError (List (Option Node)) :=
  (store.storageDirs p disk).map fun dirs => dirs.map (·.find name)

/-- A read looks under its name only. -/
theorem read_eq_nodes {disk : Disk} (h : validateName raw = some name) :
    store.read p raw disk = (store.nodesUnder p name disk).map fun nodes =>
      nodes.findSome? (withinLimit store.maxFileBytes) := by
  rw [read,h,nodesUnder]
  cases store.storageDirs p disk with
  | error e => rfl
  | ok dirs =>
    show Except.ok _ =
      Except.ok ((dirs.map (·.find name)).findSome? (withinLimit store.maxFileBytes))
    rw [List.findSome?_map]
    rfl

end DownloadStore
end Storage

namespace FilesGateway

open CloudFiles
open Storage

namespace DownloadsService

variable (service : DownloadsService)

/-- The name that `read_file` of the service passes on to the store. -/
def namePassed (name : String) : Option String :=
  if name = "" ∨ 1024 < name.length then none
  else if '/' ∈ name.toList ∨ '\\' ∈ name.toList ∨ name = ".." then none
  else safeName name

/-- The name under which a request of a path makes the store open a file: it is taken from the path,
checked by the handler, by the service, and by the store. -/
def openedName (path : String) : Option String := do
  let name ← service.extractName path
  let safe ← safeName name
  let passed ← namePassed safe
  safeName passed

/-- The reply, once the store has been read. -/
def fileReply (name : String) : Except StoreError (Option Bytes) → Reply
  | .ok (some payload) => bytes payload name
  | .ok none => .error 404 "not_found"
  | .error _ => unavailable

/-- The reply to a request for the file of a name, where that is what the store reads. -/
def replyFor (h : TrustedHeaders) (name : String) (disk : Disk) : Reply :=
  if checkTrustedSecret h.trustedSecret service.trustedSecret = false then .error 401 "unauthorized"
  else match defaultIdentityResolver h with
    | none => unavailable
    | some identity => fileReply name (service.store.read identity.principalId name disk)

end DownloadsService

section Way

variable {raw name : String} {service : DownloadsService}

theorem namePassed_validated (h : validateName raw = some name) :
    DownloadsService.namePassed name = some name := by
  have hbound := validateName_plain h
  rw [plainName_iff] at hbound
  obtain ⟨hlength,hdots,hmarks,-⟩ := hbound
  simp only [not_or,not_lt] at hlength hdots hmarks
  have hshort : ¬(name = "" ∨ 1024 < name.length) := by
    have hmax : nameMax = 255 := rfl
    rw [not_or]
    exact ⟨hlength.1,by omega⟩
  rw [DownloadsService.namePassed,if_neg hshort,
    if_neg (not_or.mpr ⟨hmarks.1,not_or.mpr ⟨hmarks.2.1,hdots.2.1⟩⟩),safeName_eq]
  exact validateName_idem h

/-- Quoted by the client and checked three times by the service, a validated name comes back. -/
theorem openedName_link (h : validateName raw = some name) :
    service.openedName (fileLink name) = some name := by
  have hsafe : safeName name = some name := by rw [safeName_eq,validateName_idem h]
  rw [DownloadsService.openedName,extractName_link]
  simp only [Option.bind_eq_bind,Option.bind_some,hsafe,namePassed_validated h]

theorem readFile_service (h : validateName raw = some name) (identity : PrincipalIdentity)
    (disk : Disk) : service.readFile identity name disk =
      service.store.read identity.principalId name disk := by
  have hpassed := namePassed_validated h
  unfold DownloadsService.namePassed at hpassed
  split_ifs at hpassed with hlength hpath
  rw [DownloadsService.readFile,if_neg hlength,if_neg hpath,validateName_idem h]

/-- The reply to the path of a name is what the store has under that name. -/
theorem doGet_fileLink (h : validateName raw = some name) (headers : TrustedHeaders) (disk : Disk) :
    service.doGet headers (fileLink name) disk = service.replyFor headers name disk := by
  rw [DownloadsService.doGet,DownloadsService.replyFor,fileLink,
    if_neg (fileRoute_append_ne (by decide) _)]
  by_cases hsecret : checkTrustedSecret headers.trustedSecret service.trustedSecret = false
  · rw [if_pos hsecret,if_pos hsecret]
  · rw [if_neg hsecret,if_neg hsecret]
    cases defaultIdentityResolver headers with
    | none => rfl
    | some identity =>
      dsimp only
      rw [if_neg (fileRoute_append_ne (by decide) _),← fileLink,DownloadsService.getFile,
        extractName_link]
      dsimp only
      rw [validateName_idem h]
      dsimp only
      rw [readFile_service h]
      rcases service.store.read identity.principalId name disk with e | _ | payload <;> rfl

/-- What the client does with a reply to its request for a file. -/
def DownloadsClient.fileOutcome : Except ClientError Reply → Except ClientError (Option Bytes)
  | .ok (.file payload) => .ok (some payload)
  | .ok _ => .error (.client "invalid downloads response")
  | .error (.http status errorCode) =>
    if status = 404 then .ok none else .error (.http status errorCode)
  | .error e => .error e

theorem readFile_client (client : DownloadsClient) (binding : PrincipalBinding) {requestId : String}
    (disk : Disk) (h : validateName raw = some name) (hrequest : requestId ≠ "") :
    client.readFile service binding requestId disk raw = DownloadsClient.fileOutcome
      (client.received (service.replyFor (client.headers binding requestId) name disk)) := by
  have hhead : (fileLink name).toList.head? = some '/' := by
    rw [fileLink,String.toList_append]
    rfl
  have hquery : '?' ∉ (fileLink name).toList := not_mem_link (by decide) (by decide)
  have hfragment : '#' ∉ (fileLink name).toList := not_mem_link (by decide) (by decide)
  rw [DownloadsClient.readFile,h]
  dsimp only
  rw [DownloadsClient.request,if_neg (by simp [hhead,hquery,hfragment]),if_neg hrequest,
    doGet_fileLink h]
  rcases client.received (service.replyFor (client.headers binding requestId) name disk) with
    (_ | _ | _ | ⟨status,code⟩) | (_ | _ | _ | _ | _) <;> rfl

end Way

/-- The validators are one function, which leaves what it returns as it is; and a name that the
gateway has validated reaches the store as that name, whose file is what the client gets. -/
theorem validators_agree :
    (∀ raw, safeName raw = validateName raw) ∧
    (∀ raw name, validateName raw = some name → validateName name = some name) ∧
    (∀ raw name, safeName raw = some name → safeName name = some name) ∧
    ∀ raw name, validateName raw = some name → ∀ (client : DownloadsClient)
      (service : DownloadsService) (binding : PrincipalBinding) (requestId : String) (disk : Disk),
      requestId ≠ "" →
      service.openedName (fileLink name) = some name ∧
      client.readFile service binding requestId disk raw = DownloadsClient.fileOutcome
        (client.received (service.replyFor (client.headers binding requestId) name disk)) ∧
      ∀ disk' p, service.store.nodesUnder p name disk = service.store.nodesUnder p name disk' →
        service.store.read p name disk = service.store.read p name disk' := by
  refine ⟨safeName_eq,fun raw name h => validateName_idem h,?_,?_⟩
  · intro raw name h
    rw [safeName_eq] at h ⊢
    exact validateName_idem h
  · intro raw name h client service binding requestId disk hrequest
    refine ⟨openedName_link h,readFile_client client binding disk h hrequest,?_⟩
    intro disk' p hsame
    rw [service.store.read_eq_nodes p (validateName_idem h),hsame,
      service.store.read_eq_nodes p (validateName_idem h)]

/-- A name with two escapes, over a store with its file. -/
theorem validators_agree_report :
    office.service.openedName (fileLink "report é.pdf") = some "report é.pdf" ∧
    office.client.readFile office.service alice "req-0" (after "report é.pdf")
        "report%20%C3%A9.pdf" = DownloadsClient.fileOutcome (office.client.received
      (office.service.replyFor (office.client.headers alice "req-0") "report é.pdf"
        (after "report é.pdf"))) :=
  have h := validators_agree.2.2.2 "report%20%C3%A9.pdf" "report é.pdf" (by decide +kernel)
    office.client office.service alice "req-0" (after "report é.pdf") (by decide)
  ⟨h.1,h.2.1⟩

end FilesGateway
end CloudBrowser
