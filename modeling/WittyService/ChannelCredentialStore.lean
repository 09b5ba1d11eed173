import Mathlib.Data.List.Lex
import WittyService.JsonText
import WittyService.KeyOrder
import WittyService.OrderedDict

/-! The credential files. Text is the list of its code points and a file the list of its bytes.
Every call of the operating system may fail. -/
namespace WittyService

open JsonText Utf8Text

abbrev CodePoints := List ℕ

def CREDENTIAL_FILE_VERSION : CodePoints := text "1"
def INSTANCE_REF_PREFIX : CodePoints := text "chan"
def PROVISIONING_REF_PREFIX : CodePoints := text "prov"
def DIRECTORY_MODE : ℕ := 0o700
def FILE_MODE : ℕ := 0o600
def GROUP_OTHER_BITS : ℕ := 0o077

structure CredentialEntry where
  ref : CodePoints
  kind : CodePoints
  values : OrderedDict CodePoints CodePoints
  createdAt : CodePoints
  updatedAt : CodePoints
  expiresAt : Option CodePoints

/-- What the store raises. A reason is given up to the text of the exception it quotes. -/
inductive CredentialError where
  | storeUnavailable (reason : String)
  | insecureMode (kind : String) (mode : ℕ)
  | insecureOwner (kind : String) (uid : ℕ)
  | invalidReference
  | notJson
  | notObject
  | unsupportedVersion (version : Option JsonText.Value)
  | valuesNotObject
  | unicodeError
  | osError

/-- What the interpreter makes of a value that is no string, and of a number that is written in
another way than the one of the files. -/
structure Interpreter where
  str : JsonText.Value → CodePoints
  isOne : CodePoints → Bool
  truthy : CodePoints → Bool

structure CredentialFile where
  content : List ℕ
  mode : ℕ
  uid : ℕ

structure CredentialDirectory where
  mode : ℕ
  uid : ℕ
  files : CodePoints → Option CredentialFile

structure ChannelCredentialStore where
  euid : ℕ
  directory : Option CredentialDirectory

/-- Which calls of `read` raise an `OSError`. -/
structure ReadCalls where
  existsFails : Bool
  statFails : Bool
  readFails : Bool

def ReadCalls.fine : ReadCalls := ⟨false, false, false⟩

/-- Which calls of `write` raise, the mode `mkdir` leaves, how many bytes `os.write` stores when it
does not raise, and the parts of the temporary name that are not fixed. -/
structure WriteCalls where
  directoryExistsFails : Bool
  mkdirFails : Bool
  mkdirMode : ℕ
  chmodDirectoryFails : Bool
  statDirectoryFails : Bool
  reading : ReadCalls
  pid : CodePoints
  suffix : CodePoints
  openFails : Bool
  openMode : ℕ
  stored : Option ℕ
  fsyncFails : Bool
  closeFails : Bool
  chmodFails : Bool
  replaceFails : Bool
  unlinkFails : Bool

namespace ChannelCredentialStore

/-- `payload.get(key)` of an object, the last binding counting. -/
def get (members : List (CodePoints × JsonText.Value)) (key : String) : Option JsonText.Value :=
  (members.reverse.find? fun m => m.1 = text key).map Prod.snd

variable (py : Interpreter)

def strOf : JsonText.Value → CodePoints
  | .str s => s
  | v => py.str v

/-- `value or default`, as a text. -/
def strOr (value : Option JsonText.Value) (default : CodePoints) : CodePoints :=
  match value with
  | none | some .null | some (.bool false) | some (.str []) | some (.arr []) | some (.obj []) =>
    default
  | some (.num literal) => if py.truthy literal then py.str (.num literal) else default
  | some v => strOf py v

def isVersion : Option JsonText.Value → Bool
  | some (.num literal) => literal = CREDENTIAL_FILE_VERSION || py.isOne literal
  | some (.bool b) => b
  | _ => false

/-- `{str(key): str(value) for key, value in values.items()}`. -/
def valuesOf (members : List (CodePoints × JsonText.Value)) : OrderedDict CodePoints CodePoints :=
  members.foldl (fun d m => d.set m.1 (strOf py m.2)) OrderedDict.empty

def kindFor (ref : CodePoints) : CodePoints :=
  if INSTANCE_REF_PREFIX.isPrefixOf ref then text "instance" else text "provisioning"

def decodePayload (ref : CodePoints) : JsonText.Value → Except CredentialError CredentialEntry
  | .obj payload =>
    if !isVersion py (get payload "version") then
      .error (.unsupportedVersion (get payload "version"))
    else
      match get payload "values" with
      | some (.obj values) => .ok {
          ref := ref
          kind := strOr py (get payload "kind") (kindFor ref)
          values := valuesOf py values
          createdAt := strOr py (get payload "created_at") []
          updatedAt := strOr py (get payload "updated_at") []
          expiresAt := (get payload "expires_at").bind fun
            | .null => none
            | v => some (strOf py v) }
      | _ => .error .valuesNotObject
  | _ => .error .notObject

def universalNewlines : CodePoints → CodePoints
  | 13 :: 10 :: t => 10 :: universalNewlines t
  | 13 :: t => 10 :: universalNewlines t
  | c :: t => c :: universalNewlines t
  | [] => []

def readContent (ref : CodePoints) (content : List ℕ) : Except CredentialError CredentialEntry :=
  match Utf8Text.decode content with
  | none => .error .unicodeError
  | some raw =>
    match loads (universalNewlines raw) with
    | none => .error .notJson
    | some payload => decodePayload py ref payload

def isLowerHex (c : ℕ) : Bool := isDigit c || (97 ≤ c && c ≤ 102)

/-- `_REF_PATTERN`, whose end may stand before a last newline, and the known prefixes. -/
def isValidRef (ref : CodePoints) : Bool :=
  let digest := ref.drop 5
  let digest := if digest.getLast? = some 10 then digest.dropLast else digest
  ((INSTANCE_REF_PREFIX ++ text "_").isPrefixOf ref ||
    (PROVISIONING_REF_PREFIX ++ text "_").isPrefixOf ref) &&
    digest.length = 32 && digest.all isLowerHex

/-- `_path_for`, as the name in the directory. -/
def pathFor (ref : CodePoints) : Except CredentialError CodePoints :=
  if isValidRef ref then .ok (ref ++ text ".json") else .error .invalidReference

def assertOwnerOnly (euid : ℕ) (statFails : Bool) (kind : String) (mode uid : ℕ) :
    Except CredentialError Unit :=
  if statFails then .error (.storeUnavailable s!"cannot stat the credential {kind}: ")
  else if mode &&& GROUP_OTHER_BITS ≠ 0 then .error (.insecureMode kind mode)
  else if uid ≠ euid then .error (.insecureOwner kind uid)
  else .ok ()

variable (s : ChannelCredentialStore)

def file (name : CodePoints) : Option CredentialFile := s.directory.bind fun d => d.files name

def put (name : CodePoints) (file : Option CredentialFile) : ChannelCredentialStore :=
  { s with directory := s.directory.map fun d =>
      { d with files := fun other => if other = name then file else d.files other } }

def read (calls : ReadCalls) (ref : CodePoints) :
    Except CredentialError (Option CredentialEntry) :=
  (pathFor ref).bind fun path =>
    if calls.existsFails then .error .osError
    else
      match s.file path with
      | none => .ok none
      | some file =>
        (assertOwnerOnly s.euid calls.statFails "file" file.mode file.uid).bind fun _ =>
          if calls.readFails then
            .error (.storeUnavailable "cannot read the credential file: ")
          else (readContent py ref file.content).map some

/-- `ensure_ready`. A directory it has made stays when what follows fails. -/
def ensureReady (calls : WriteCalls) : Except CredentialError Unit × ChannelCredentialStore :=
  if calls.directoryExistsFails then (.error .osError, s)
  else
    match s.directory with
    | some d => (assertOwnerOnly s.euid calls.statDirectoryFails "directory" d.mode d.uid, s)
    | none =>
      let unusable : CredentialError :=
        .storeUnavailable "cannot create the credential directory: "
      if calls.mkdirFails then (.error unusable, s)
      else if calls.chmodDirectoryFails then
        (.error unusable, { s with directory := some ⟨calls.mkdirMode, s.euid, fun _ => none⟩ })
      else
        (assertOwnerOnly s.euid calls.statDirectoryFails "directory" DIRECTORY_MODE s.euid,
          { s with directory := some ⟨DIRECTORY_MODE, s.euid, fun _ => none⟩ })

/-- What is written of an entry: its values as a dict and its times as texts. -/
structure Payload where
  ref : CodePoints
  values : OrderedDict CodePoints CodePoints
  createdAt : CodePoints
  updatedAt : CodePoints
  expiresAt : Option CodePoints

/-- `json.dumps(payload, ensure_ascii=False, sort_keys=True)`. -/
def Payload.dumps (p : Payload) : CodePoints :=
  renderObject [
    (text "created_at", renderString p.createdAt),
    (text "expires_at", (p.expiresAt.map renderString).getD (text "null")),
    (text "kind", renderString (kindFor p.ref)),
    (text "ref", renderString p.ref),
    (text "updated_at", renderString p.updatedAt),
    (text "values", renderObject
      ((KeyOrder.sortBy Prod.fst p.values.entries).map fun m => (m.1, renderString m.2))),
    (text "version", CREDENTIAL_FILE_VERSION)]

/-- The entry that `write` returns. -/
def Payload.entry (p : Payload) : CredentialEntry :=
  ⟨p.ref, kindFor p.ref, p.values, p.createdAt, p.updatedAt, p.expiresAt⟩

/-- The steps of `write` before it opens the temporary file. -/
def prepare (calls : WriteCalls) (ref : CodePoints) (values : OrderedDict CodePoints CodePoints)
    (now : CodePoints) (expiresAt : Option CodePoints) :
    Except CredentialError (CodePoints × Payload × List ℕ) × ChannelCredentialStore :=
  let (ready, s) := s.ensureReady calls
  (ready.bind fun _ => (pathFor ref).bind fun path =>
    (s.read py calls.reading ref).bind fun existing =>
      let payload : Payload :=
        ⟨ref, values, (existing.map CredentialEntry.createdAt).getD now, now, expiresAt⟩
      match Utf8Text.encode payload.dumps with
      | none => .error .unicodeError
      | some data => .ok (path, payload, data), s)

def tmpName (calls : WriteCalls) (ref : CodePoints) : CodePoints :=
  text "." ++ ref ++ text "." ++ calls.pid ++ text "." ++ calls.suffix ++ text ".tmp"

/-- The steps of `write` from the temporary file on. What `os.write` returns is not looked at. -/
def store (calls : WriteCalls) (tmp path : CodePoints) (data : List ℕ) :
    Except CredentialError Unit × ChannelCredentialStore :=
  let failed : CredentialError := .storeUnavailable "cannot write the credential file: "
  let unlinked (s : ChannelCredentialStore) := if calls.unlinkFails then s else s.put tmp none
  if calls.openFails ∨ (s.file tmp).isSome then (.error failed, unlinked s)
  else
    match calls.stored with
    | none => (.error failed, unlinked (s.put tmp (some ⟨[], calls.openMode, s.euid⟩)))
    | some count =>
      let content := data.take count
      let opened := s.put tmp (some ⟨content, calls.openMode, s.euid⟩)
      if calls.fsyncFails ∨ calls.closeFails ∨ calls.chmodFails then
        (.error failed, unlinked opened)
      else
        let closed := s.put tmp (some ⟨content, FILE_MODE, s.euid⟩)
        if calls.replaceFails then (.error failed, unlinked closed)
        else (.ok (), (closed.put tmp none).put path (some ⟨content, FILE_MODE, s.euid⟩))

def write (calls : WriteCalls) (ref : CodePoints) (values : OrderedDict CodePoints CodePoints)
    (now : CodePoints) (expiresAt : Option CodePoints) :
    Except CredentialError CredentialEntry × ChannelCredentialStore :=
  match s.prepare py calls ref values now expiresAt with
  | (.error e, s) => (.error e, s)
  | (.ok (path, payload, data), s) =>
    let (result, s) := s.store calls (tmpName calls ref) path data
    (result.map fun _ => payload.entry, s)

def delete (unlinkFails : Bool) (ref : CodePoints) :
    Except CredentialError Bool × ChannelCredentialStore :=
  match pathFor ref with
  | .error e => (.error e, s)
  | .ok path =>
    if unlinkFails then (.error (.storeUnavailable "cannot delete the credential file: "), s)
    else (.ok (s.file path).isSome, s.put path none)

end ChannelCredentialStore

end WittyService
