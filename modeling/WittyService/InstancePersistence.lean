import WittyService.CredentialWrites
import WittyService.QrRotation

/-! How an instance is stored: its credential goes into a file and the rest into a row, and what
was stored is taken back when a later step fails. -/
namespace WittyService

open JsonText Utf8Text ChannelCredentialStore

structure AdapterClass where
  configFields : List CodePoints
  maskFields : List CodePoints
  requiredCredentials : List CodePoints

abbrev CredentialMap := OrderedDict CodePoints CodePoints

structure CredentialMaterial where
  config : CredentialMap
  secrets : CredentialMap
  mask : CodePoints

structure ChannelInstanceRow where
  id : CodePoints
  channel : CodePoints
  displayName : Option CodePoints
  ownerRef : Option CodePoints
  agentId : Option CodePoints
  status : CodePoints
  generation : ℕ
  config : CredentialMap
  credentialRef : Option CodePoints
  credentialMask : Option CodePoints

inductive PersistError where
  | adapterUnknown (channel : CodePoints)
  | credentialsInvalid (channel reason : CodePoints)
  | store (error : CredentialError)
  | database
  | instanceNotFound (id : CodePoints)

/-- The credential files and the rows of `channel_instances`. -/
structure ChannelStorage where
  store : ChannelCredentialStore
  rows : CodePoints → Option ChannelInstanceRow

structure PersistCalls where
  write : WriteCalls
  createInstance : RowUpdate
  updateInstance : RowUpdate
  deleteInstance : RowUpdate
  unlinkFails : Bool

def PersistCalls.CleanupFine (calls : PersistCalls) : Prop :=
  calls.deleteInstance = .done ∧ calls.unlinkFails = false

structure InstanceRequest where
  channel : CodePoints
  credentials : CredentialMap
  ownerRef : Option CodePoints
  agentId : Option CodePoints
  displayName : Option CodePoints

def maskCredential (value : CodePoints) : CodePoints :=
  if value.length < 8 then List.replicate value.length 42
  else value.take 4 ++ text "****" ++ value.drop (value.length - 4)

namespace AdapterClass

variable (cls : AdapterClass) (credentials : CredentialMap)

def select (p : CodePoints → Bool) : CredentialMap :=
  credentials.keep fun m => p m.1

/-- `credentials.get(field)`, when it is not empty. -/
def given (field : CodePoints) : Option CodePoints :=
  (credentials.get? field).filter (· ≠ [])

def splitCredentials : CredentialMaterial where
  config := select credentials fun field => field ∈ cls.configFields
  secrets := select credentials fun field => field ∉ cls.configFields
  mask := (text ",").intercalate
    (cls.maskFields.filterMap fun field => (given credentials field).map maskCredential)

def missing : List CodePoints :=
  cls.requiredCredentials.filter fun field => (given credentials field).isNone

end AdapterClass

namespace ChannelStorage

variable (s : ChannelStorage)

def setRow (id : CodePoints) (row : Option ChannelInstanceRow) : ChannelStorage :=
  { s with rows := fun other => if other = id then row else s.rows other }

/-- `create_instance`; a row with the id makes it raise. -/
def createInstance (update : RowUpdate) (row : ChannelInstanceRow) :
    Except PersistError ChannelInstanceRow × ChannelStorage :=
  if (s.rows row.id).isSome then (.error .database, s)
  else
    match update with
    | .done => (.ok row, s.setRow row.id (some row))
    | .raises => (.error .database, s)
    | .raisesCommitted => (.error .database, s.setRow row.id (some row))

/-- `update_instance` of the config. -/
def updateInstance (update : RowUpdate) (id : CodePoints) (config : CredentialMap) :
    Except PersistError (Option ChannelInstanceRow) × ChannelStorage :=
  match s.rows id with
  | none => (.ok none, s)
  | some row =>
    let row := { row with config := config }
    match update with
    | .done => (.ok (some row), s.setRow id (some row))
    | .raises => (.error .database, s)
    | .raisesCommitted => (.error .database, s.setRow id (some row))

def deleteInstance (update : RowUpdate) (id : CodePoints) :
    Except PersistError Bool × ChannelStorage :=
  match s.rows id, update with
  | none, _ => (.ok false, s)
  | some _, .done => (.ok true, s.setRow id none)
  | some _, .raises => (.error .database, s)
  | some _, .raisesCommitted => (.error .database, s.setRow id none)

def deleteCredential (unlinkFails : Bool) (ref : CodePoints) :
    Except PersistError Bool × ChannelStorage :=
  match s.store.delete unlinkFails ref with
  | (.ok deleted, store) => (.ok deleted, { s with store := store })
  | (.error e, store) => (.error (.store e), { s with store := store })

def dropCredential (calls : PersistCalls) (ref : CodePoints) (error : PersistError) :
    Except PersistError ChannelInstanceRow × ChannelStorage :=
  match s.deleteCredential calls.unlinkFails ref with
  | (.ok _, dropped) => (.error error, dropped)
  | (.error e, dropped) => (.error e, dropped)

def rollBack (calls : PersistCalls) (id ref : CodePoints) (error : PersistError) :
    Except PersistError ChannelInstanceRow × ChannelStorage :=
  match s.deleteInstance calls.deleteInstance id with
  | (.ok _, deleted) => deleted.dropCredential calls ref error
  | (.error e, deleted) => (.error e, deleted)

def storeInstance (py : Interpreter) (calls : PersistCalls) (id ref now : CodePoints)
    (request : InstanceRequest) (material : CredentialMaterial) :
    Except PersistError ChannelInstanceRow × ChannelStorage :=
  match s.store.write py calls.write ref material.secrets now none with
  | (.error e, store) => (.error (.store e), { s with store := store })
  | (.ok _, store) =>
    let row : ChannelInstanceRow := {
      id := id
      channel := request.channel
      displayName := request.displayName
      ownerRef := request.ownerRef
      agentId := request.agentId
      status := text "pending"
      generation := 1
      config := .empty
      credentialRef := some ref
      credentialMask := some material.mask }
    match { s with store := store }.createInstance calls.createInstance row with
    | (.error e, s) => s.dropCredential calls ref e
    | (.ok row, s) =>
      match s.updateInstance calls.updateInstance row.id material.config with
      | (.error e, s) => s.rollBack calls row.id ref e
      | (.ok none, s) => s.rollBack calls row.id ref (.instanceNotFound row.id)
      | (.ok (some updated), s) => (.ok updated, s)

def checkCredentials (adapter : Option AdapterClass) (request : InstanceRequest) :
    Except PersistError CredentialMaterial :=
  match adapter with
  | none => .error (.adapterUnknown request.channel)
  | some cls =>
    let material := cls.splitCredentials request.credentials
    if material.secrets.entries.isEmpty then
      .error (.credentialsInvalid request.channel (text "no secret fields were provided"))
    else if !(cls.missing request.credentials).isEmpty then
      .error (.credentialsInvalid request.channel
        (text "missing required fields: " ++
          (text ", ").intercalate (cls.missing request.credentials)))
    else .ok material

def persistInstanceFromCredentials (py : Interpreter)
    (adapterFor : CodePoints → Option AdapterClass) (refForInstance : CodePoints → CodePoints)
    (calls : PersistCalls) (id now : CodePoints) (request : InstanceRequest) :
    Except PersistError ChannelInstanceRow × ChannelStorage :=
  match checkCredentials (adapterFor request.channel) request with
  | .error e => (.error e, s)
  | .ok material => s.storeInstance py calls id (refForInstance id) now request material

/-- The row with its config and the credential file are there and hold what was given. -/
structure Stored (py : Interpreter) (id ref : CodePoints) (material : CredentialMaterial) :
    Prop where
  row : ∃ row, s.rows id = some row ∧ row.config = material.config ∧ row.credentialRef = some ref
  file : ∃ entry, s.store.read py .fine ref = .ok (some entry) ∧
    entry.values.entries.Perm material.secrets.entries

/-- Neither the row nor the credential file is there. -/
structure Absent (id ref : CodePoints) : Prop where
  row : s.rows id = none
  file : ∀ path, pathFor ref = .ok path → s.store.file path = none

/-- The credential is stored whole or an error follows, and no row is created by a call that
raises. -/
def StepsWhole (py : Interpreter) (calls : PersistCalls) (ref now : CodePoints)
    (secrets : CredentialMap) : Prop :=
  ∀ written, (s.store.write py calls.write ref secrets now none).1 = .ok written →
    calls.createInstance ≠ .raisesCommitted ∧
      (calls.createInstance = .done → calls.updateInstance = .done →
        StoresAll py s.store calls.write ref secrets now none)

section Steps

variable {s} {py : Interpreter} {calls : PersistCalls} {id ref now path : CodePoints}
  {error : PersistError} {request : InstanceRequest} {material : CredentialMaterial}

theorem dropCredential_eq (hpath : pathFor ref = .ok path) (hfine : calls.CleanupFine) :
    (s.dropCredential calls ref error).2 = { s with store := s.store.put path none } := by
  unfold dropCredential deleteCredential ChannelCredentialStore.delete
  rw [hpath]
  dsimp only
  rw [hfine.2, if_neg Bool.false_ne_true]

variable {row : ChannelInstanceRow}

theorem rollBack_eq (hpath : pathFor ref = .ok path)
    (hfine : calls.CleanupFine) (hrow : s.rows id = some row) :
    (s.rollBack calls id ref error).2 =
      { s.setRow id none with store := s.store.put path none } := by
  unfold rollBack deleteInstance
  rw [hrow, hfine.1]
  exact dropCredential_eq hpath hfine

theorem file_put_none (store : ChannelCredentialStore) (path : CodePoints) :
    (store.put path none).file path = none := by
  rw [file_put, if_pos rfl]
  cases store.directory with
  | none | some d => rfl

theorem read_absent (py : Interpreter) {store : ChannelCredentialStore}
    (hpath : pathFor ref = .ok path)
    (hfile : store.file path = none) : store.read py .fine ref = .ok none := by
  unfold ChannelCredentialStore.read
  rw [hpath]
  simp only [Except.bind, ReadCalls.fine, Bool.false_eq_true, if_false, hfile]

theorem createInstance_new (hrow : s.rows row.id = none)
    (update : RowUpdate) : s.createInstance update row =
      match update with
      | .done => (.ok row, s.setRow row.id (some row))
      | .raises => (.error .database, s)
      | .raisesCommitted => (.error .database, s.setRow row.id (some row)) := by
  unfold createInstance
  rw [hrow, if_neg (by decide)]

theorem updateInstance_row (hrow : s.rows id = some row)
    (update : RowUpdate) (config : CredentialMap) : s.updateInstance update id config =
      match update with
      | .done => (.ok (some { row with config := config }),
          s.setRow id (some { row with config := config }))
      | .raises => (.error .database, s)
      | .raisesCommitted => (.error .database,
        s.setRow id (some { row with config := config })) := by
  unfold updateInstance
  rw [hrow]

@[simp] theorem setRow_same (row : Option ChannelInstanceRow) : (s.setRow id row).rows id = row :=
  if_pos rfl

theorem absent_put (hpath : pathFor ref = .ok path) {rows : CodePoints → Option ChannelInstanceRow}
    (hrow : rows id = none) (store : ChannelCredentialStore) :
    Absent ⟨store.put path none, rows⟩ id ref := by
  refine ⟨hrow, fun other hother => ?_⟩
  cases hpath.symm.trans hother
  exact file_put_none store path

theorem storeInstance_iff (hrow : s.rows id = none)
    (hfile : ∀ path, pathFor ref = .ok path → s.store.file path = none)
    (hfine : calls.CleanupFine) :
    ((s.storeInstance py calls id ref now request material).2.Stored py id ref material ∨
        (s.storeInstance py calls id ref now request material).2.Absent id ref) ↔
      s.StepsWhole py calls ref now material.secrets := by
  unfold storeInstance StepsWhole
  rcases s.store.write_cases py calls.write ref material.secrets now none with
    ⟨e, he, hsame, -⟩ | ⟨written, path, hwritten, hpath, hread⟩
  · rcases hwrite : s.store.write py calls.write ref material.secrets now none with ⟨result, store⟩
    rw [hwrite] at he hsame
    subst he
    refine iff_of_true (.inr ⟨hrow, ?_⟩) nofun
    intro path hpath
    exact (hsame path hpath).file.trans (hfile path hpath)
  rcases hwrite : s.store.write py calls.write ref material.secrets now none with ⟨result, store⟩
  rw [hwrite] at hwritten hread
  subst hwritten
  dsimp only
  rw [createInstance_new hrow]
  cases hcreate : calls.createInstance with
  | raises =>
    rw [dropCredential_eq hpath hfine]
    exact iff_of_true (.inr (absent_put hpath hrow store)) fun _ _ => ⟨nofun, nofun⟩
  | raisesCommitted =>
    rw [dropCredential_eq hpath hfine]
    refine iff_of_false ?_ fun h => (h written rfl).1 rfl
    rintro (hstored | habsent)
    · -- the row is there, but its file has been deleted
      obtain ⟨entry, hentry, -⟩ := hstored.file
      have hnone := read_absent py hpath (file_put_none store path)
      cases hnone.symm.trans hentry
    · have hnone := habsent.row
      simp [setRow] at hnone
  | done =>
    dsimp only
    rw [updateInstance_row (setRow_same _)]
    cases hupdate : calls.updateInstance with
    | raises | raisesCommitted =>
      rw [rollBack_eq hpath hfine (setRow_same _)]
      exact iff_of_true (.inr (absent_put hpath (setRow_same none) store)) fun _ _ => ⟨nofun, nofun⟩
    | done =>
      constructor
      · rintro (hstored | habsent)
        · exact fun _ _ => ⟨nofun, fun _ _ => hread.mpr hstored.file⟩
        · have hnone := habsent.row
          rw [setRow_same] at hnone
          cases hnone
      · intro hwhole
        have hstores := (hwhole written rfl).2 rfl rfl
        exact .inl ⟨⟨_, setRow_same _, rfl, rfl⟩, hread.mp hstores⟩

end Steps

/-- The instance with its credential is there, or neither. -/
def AllOrNone (py : Interpreter) (adapter : Option AdapterClass) (request : InstanceRequest)
    (id ref : CodePoints) : Prop :=
  (∃ material, checkCredentials adapter request = .ok material ∧ s.Stored py id ref material) ∨
    s.Absent id ref

/-- `persist_instance_from_credentials` is all or nothing exactly when its steps are whole. -/
theorem persist_all_or_none_iff (py : Interpreter) (adapterFor : CodePoints → Option AdapterClass)
    (refForInstance : CodePoints → CodePoints) (calls : PersistCalls) (id now : CodePoints)
    (request : InstanceRequest) (hrow : s.rows id = none)
    (hfile : ∀ path, pathFor (refForInstance id) = .ok path → s.store.file path = none)
    (hfine : calls.CleanupFine) :
    (s.persistInstanceFromCredentials py adapterFor refForInstance calls id now
        request).2.AllOrNone py (adapterFor request.channel) request id (refForInstance id) ↔
      ∀ material, checkCredentials (adapterFor request.channel) request = .ok material →
        s.StepsWhole py calls (refForInstance id) now material.secrets := by
  unfold persistInstanceFromCredentials AllOrNone
  cases hcheck : checkCredentials (adapterFor request.channel) request with
  | error e => exact iff_of_true (.inr ⟨hrow, hfile⟩) nofun
  | ok material =>
    have hiff := @storeInstance_iff s py calls id (refForInstance id) now request material hrow
      hfile hfine
    constructor
    · rintro (⟨other, hother, hstored⟩ | habsent) _ ⟨⟩
      · cases hother
        exact hiff.mp (.inl hstored)
      · exact hiff.mp (.inr habsent)
    · intro hwhole
      rcases hiff.mpr (hwhole material rfl) with hstored | habsent
      · exact .inl ⟨material, rfl, hstored⟩
      · exact .inr habsent

section Example

def qqAdapterClass : AdapterClass where
  configFields := [text "app_id", text "sandbox", text "use_markdown", text "owner_user_openid"]
  maskFields := [text "app_id"]
  requiredCredentials := [text "app_id", text "secret"]

def qqRequest : InstanceRequest where
  channel := text "qq_bot"
  credentials := (OrderedDict.empty.set (text "app_id") (text "a")).set (text "secret") (text "s")
  ownerRef := none
  agentId := none
  displayName := none

/-- Every call succeeds, apart from `create_instance`. -/
def creating (createInstance : RowUpdate) : PersistCalls where
  write := { shortWrite with stored := some 1000 }
  createInstance := createInstance
  updateInstance := .done
  deleteInstance := .done
  unlinkFails := false

def emptyStorage : ChannelStorage := ⟨emptyStore, fun _ => none⟩

theorem emptyStorage_file (path : CodePoints) : emptyStorage.store.file path = none := rfl

theorem persist_all_or_none_iff_qq :
    (emptyStorage.persistInstanceFromCredentials plainInterpreter (fun _ => some qqAdapterClass)
        (fun _ => shortRef) (creating .done) (text "i") [] qqRequest).2.AllOrNone plainInterpreter
          (some qqAdapterClass) qqRequest (text "i") shortRef ↔
      ∀ material, checkCredentials (some qqAdapterClass) qqRequest = .ok material →
        emptyStorage.StepsWhole plainInterpreter (creating .done) shortRef [] material.secrets :=
  persist_all_or_none_iff emptyStorage plainInterpreter (fun _ => some qqAdapterClass)
    (fun _ => shortRef) (creating .done) (text "i") [] qqRequest rfl
    (fun path _ => emptyStorage_file path) ⟨rfl, rfl⟩

def qqSecrets : CredentialMap := (qqAdapterClass.splitCredentials qqRequest.credentials).secrets

theorem qqSecrets_written : (emptyStore.write plainInterpreter (creating .raisesCommitted).write
    shortRef qqSecrets [] none).1.toBool = true := by
  decide +kernel

/-- When `create_instance` raises after its commit, the row stays without its credential. -/
theorem created_row_without_credential :
    ¬ ∀ (py : Interpreter) (adapterFor : CodePoints → Option AdapterClass)
      (refForInstance : CodePoints → CodePoints) (calls : PersistCalls) (s : ChannelStorage)
      (id now : CodePoints) (request : InstanceRequest), s.rows id = none →
      (∀ path, pathFor (refForInstance id) = .ok path → s.store.file path = none) →
      calls.CleanupFine →
      (s.persistInstanceFromCredentials py adapterFor refForInstance calls id now
        request).2.AllOrNone py (adapterFor request.channel) request id (refForInstance id) := by
  intro h
  have hall := h plainInterpreter (fun _ => some qqAdapterClass) (fun _ => shortRef)
    (creating .raisesCommitted) emptyStorage (text "i") [] qqRequest rfl
    (fun path _ => emptyStorage_file path) ⟨rfl, rfl⟩
  have hcheck : checkCredentials (some qqAdapterClass) qqRequest =
      .ok (qqAdapterClass.splitCredentials qqRequest.credentials) := by rfl
  unfold persistInstanceFromCredentials AllOrNone at hall
  have hwhole := (storeInstance_iff rfl (fun path _ => emptyStorage_file path)
    ⟨rfl, rfl⟩).mp (hall.imp_left fun ⟨material, hmaterial, hstored⟩ => by
      cases hmaterial
      exact hstored)
  cases hwrite : (emptyStore.write plainInterpreter (creating .raisesCommitted).write shortRef
      qqSecrets [] none).1 with
  | error e =>
    have hwritten := qqSecrets_written
    rw [hwrite] at hwritten
    cases hwritten
  | ok written => exact (hwhole written hwrite).1 rfl

end Example

end ChannelStorage

end WittyService
