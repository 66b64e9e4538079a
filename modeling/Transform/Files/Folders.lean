import Transform.Files.Upload
import Transform.Lib.Forest
import Transform.Lib.Watch

/-!
# Files.Folders — the folders of a user

`create_folder`, `move_folder` and `delete_folder` of the file service with the statements of the folder repository
under them, over the tables of folders and files.  A parent link is a foreign key: the database refuses one that leads
nowhere, and deletes a folder together with all that lies below it.

A loop of the source takes a number of rounds; a call that would need more ends with `unfinished`.
-/

namespace Transform.Files

open Lib Conversions

/-! ## Rows and statements -/

section Rows

/-- A row of `user_folders` with its timestamps. -/
structure FolderRow extends UserFolder where
  createdAt : Instant
  updatedAt : Instant
  deriving DecidableEq, Repr

inductive FolderError
  | folderNotFound (message : String)
  | folderNameConflict (message : String)
  | assertion
  | raised (e : PyError)
  | unfinished
  deriving DecidableEq, Repr

def FolderError.notFound : FolderError := .folderNotFound "Folder not found"

def FolderError.conflict : FolderError := .folderNameConflict "A folder with this name already exists"

/-- The statements of a call, each with its commit, and what it asks of storage, the clock and the id generator. -/
inductive FolderOp
  | uuid4
  | utcNow
  | getById (folderId : String)
  | insertFolder (row : FolderRow)
  | refresh (folderId : String)
  | updateParent (folderId : String) (parentId : Option String) (updatedAt : Instant)
  | selectChildren (frontier : List String)
  | selectFileKeys (folderIds : List String)
  | deleteTree (withFiles : Bool) (folderIds : List String)
  | removeObject (objectKey : String)

abbrev FolderOp.Ans : FolderOp → Type
  | .uuid4 => String
  | .utcNow => Instant
  | .getById _ => Option FolderRow
  | .insertFolder _ => Unit
  | .refresh _ => FolderRow
  | .updateParent _ _ _ => Bool
  | .selectChildren _ => List String
  | .selectFileKeys _ => List String
  | .deleteTree _ _ => Unit
  | .removeObject _ => Unit

abbrev FolderSig : Sig := ⟨FolderOp, FolderOp.Ans, PyError⟩

abbrev FolderM (α : Type) : Type := Act FolderSig FolderError α

def onFolders (op : FolderOp) : FolderM op.Ans := (ask (S := FolderSig) op).mapError .raised

end Rows

/-! ## The repository -/

section Repository

/-- `SQLUserFolderRepository.create`. -/
def createRow (userId : ℤ) (name : String) (parentId : Option String) : FolderM FolderRow := do
  let id ← onFolders .uuid4
  let createdAt ← onFolders .utcNow
  let updatedAt ← onFolders .utcNow
  onFolders (.insertFolder { id, userId, parentId, name, createdAt, updatedAt })
  onFolders (.refresh id)

/-- `SQLUserFolderRepository.move`. -/
def moveRow (folderId : String) (parentId : Option String) : FolderM Bool := do
  let updatedAt ← onFolders .utcNow
  onFolders (.updateParent folderId parentId updatedAt)

/-- The breadth-first walk of `delete_with_descendants`: the folders found, level by level. -/
def collectDescendants : ℕ → List String → List String → FolderM (List String)
  | _, [], folderIds => pure folderIds
  | 0, _ :: _, _ => .throw .unfinished
  | rounds + 1, frontier, folderIds => do
    let children ← onFolders (.selectChildren frontier)
    collectDescendants rounds children (folderIds ++ children)

/-- `delete_with_descendants`: the keys of the files and the ids of the folders that were deleted. -/
def deleteWithDescendants (rounds : ℕ) (folderId : String) : FolderM (List String × List String) := do
  let folderIds ← collectDescendants rounds [folderId] []
  let allIds := folderId :: folderIds
  let fileKeys ← onFolders (.selectFileKeys allIds)
  onFolders (.deleteTree (!fileKeys.isEmpty) allIds)
  pure (fileKeys, allIds)

/-- The breadth-first walk of `list_subtree_ids`, which leaves out what it has seen. -/
def collectUnseen : ℕ → List String → List String → List String → FolderM (List String)
  | _, [], descendants, _ => pure descendants
  | 0, _ :: _, _, _ => .throw .unfinished
  | rounds + 1, frontier, descendants, seen => do
    let found ← onFolders (.selectChildren frontier)
    let children := found.filter (· ∉ seen)
    collectUnseen rounds children (descendants ++ children) (seen ++ children)

/-- `list_subtree_ids`. -/
def listSubtreeIds (rounds : ℕ) (folderId : String) : FolderM (List String) :=
  collectUnseen rounds [folderId] [] [folderId]

end Repository

/-! ## The service -/

section Service

/-- `FileService.get_folder`. -/
def getOwnFolder (userId : ℤ) (folderId : String) : FolderM FolderRow := do
  match ← onFolders (.getById folderId) with
  | none => .throw .notFound
  | some folder => if folder.userId = userId then pure folder else .throw .notFound

/-- An `IntegrityError` of a statement becomes a name conflict. -/
def refusing {α : Type} (p : FolderM α) : FolderM α := p.tryCatch fun
  | .raised e => if e.cls = .integrityError then .throw .conflict else .throw (.raised e)
  | e => .throw e

def createFolder (userId : ℤ) (name : String) (parentId : Option String) : FolderM FolderRow := do
  match parentId with
  | some parentId => let _ ← getOwnFolder userId parentId
  | none => pure ()
  refusing (createRow userId (strip name) parentId)

/-- The walk of `_is_descendant` upwards from a folder that was read. -/
def climb (ancestorId : String) : ℕ → List String → Option FolderRow → FolderM Bool
  | 0, _, _ => .throw .unfinished
  | rounds + 1, seen, current =>
    match current.bind (·.parentId) with
    | none => pure false
    | some parentId =>
      if parentId ∈ seen then pure true
      else if parentId = ancestorId then pure true
      else do
        let next ← onFolders (.getById parentId)
        climb ancestorId rounds (seen ++ [parentId]) next

/-- `_is_descendant`. -/
def isDescendant (rounds : ℕ) (folderId ancestorId : String) : FolderM Bool := do
  let current ← onFolders (.getById folderId)
  climb ancestorId rounds [] current

/-- The checks of `move_folder` on the new parent. -/
def checkParent (rounds : ℕ) (userId : ℤ) (folder : FolderRow) : Option String → FolderM Unit
  | none => pure ()
  | some parentId => do
    let _ ← getOwnFolder userId parentId
    if parentId = folder.id then .throw .conflict
    else if ← isDescendant rounds parentId folder.id then .throw .conflict
    else pure ()

def moveFolder (rounds : ℕ) (userId : ℤ) (folderId : String) (parentId : Option String) : FolderM FolderRow := do
  let folder ← getOwnFolder userId folderId
  checkParent rounds userId folder parentId
  let moved ← refusing (moveRow folder.id parentId)
  if moved then
    match ← onFolders (.getById folder.id) with
    | some updated => pure updated
    | none => .throw .assertion
  else .throw .notFound

/-- The objects of deleted files, one after the other. -/
def removeObjects : List String → FolderM Unit
  | [] => pure ()
  | key :: keys => do
    onFolders (.removeObject key)
    removeObjects keys

def deleteFolder (rounds : ℕ) (userId : ℤ) (folderId : String) : FolderM Unit := do
  let folder ← getOwnFolder userId folderId
  let (fileKeys, _) ← deleteWithDescendants rounds folder.id
  removeObjects fileKeys

end Service

/-! ## The tables -/

section Tables

structure FolderWorld where
  folders : List FolderRow := []
  files : List UserFile := []

/-- A call on the folders. -/
inductive FolderParty
  | create (userId : ℤ) (name : String) (parentId : Option String)
  | move (userId : ℤ) (folderId : String) (parentId : Option String)
  | delete (userId : ℤ) (folderId : String)

def FolderParty.program (rounds : ℕ) : FolderParty → Proc FolderSig Unit
  | .create userId name parentId => thread (createFolder userId name parentId)
  | .move userId folderId parentId => thread (moveFolder rounds userId folderId parentId)
  | .delete userId folderId => thread (deleteFolder rounds userId folderId)

namespace FolderWorld

variable (w : FolderWorld)

def getFolder (folderId : String) : Option FolderRow := w.folders.find? (·.id = folderId)

def links (folderId : String) : Option (Option String) := (w.getFolder folderId).map (·.parentId)

/-- One of the ids lies on the way up from a folder. -/
def reaches (folderIds : List String) : ℕ → String → Bool
  | 0, folderId => folderId ∈ folderIds
  | steps + 1, folderId => folderId ∈ folderIds || match w.links folderId with
    | some (some parentId) => reaches folderIds steps parentId
    | _ => false

/-- Deleting the folders deletes what lies below them. -/
def cascades (folderIds : List String) (folderId : String) : Bool := w.reaches folderIds w.folders.length folderId

def children (frontier : List String) : List String :=
  (w.folders.filter fun row => row.parentId.any (· ∈ frontier)).map (·.id)

def fileKeys (folderIds : List String) : List String :=
  (w.files.filter fun file => file.folderId.any (· ∈ folderIds)).map (·.fileKey)

def setParent (folderId : String) (parentId : Option String) (updatedAt : Instant) : FolderWorld :=
  { w with folders := w.folders.map fun row => if row.id = folderId then { row with parentId, updatedAt } else row }

/-- The files of the folders go with them where the statement for them is run; a file left without its folder is filed
at the root. -/
def deleteTree (withFiles : Bool) (folderIds : List String) : FolderWorld :=
  { folders := w.folders.filter fun row => !w.cascades folderIds row.id
    files := (w.files.filter fun file => !(withFiles && file.folderId.any (· ∈ folderIds))).map fun file =>
      if file.folderId.any (w.cascades folderIds) then { file with folderId := none } else file }

/-- No other folder of the user has the name under the parent; at the root names may repeat. -/
def nameFree (row : UserFolder) : Prop :=
  ∀ other ∈ w.folders, other.id ≠ row.id → other.userId = row.userId → other.parentId = row.parentId →
    other.name = row.name → row.parentId = none

instance (row : UserFolder) : Decidable (w.nameFree row) := by
  unfold nameFree
  infer_instance

/-- The parent of a row is a folder. -/
def parentKnown (parentId : Option String) : Prop := ∀ p ∈ parentId, w.links p ≠ none

instance (parentId : Option String) : Decidable (w.parentKnown parentId) := by
  unfold parentKnown
  infer_instance

/-- What a statement does. -/
def apply : Event FolderSig → FolderWorld
  | ⟨.insertFolder row, _, true, _⟩ => { w with folders := w.folders ++ [row] }
  | ⟨.updateParent folderId parentId updatedAt, _, true, _⟩ => w.setParent folderId parentId updatedAt
  | ⟨.deleteTree withFiles folderIds, _, true, _⟩ => w.deleteTree withFiles folderIds
  | _ => w

/-- Rows are read as they stand, in any order; a key that repeats or leads nowhere is refused. -/
def Allowed : Event FolderSig → Prop
  | ⟨.getById folderId, .ok row, _, _⟩ => row = w.getFolder folderId
  | ⟨.refresh folderId, .ok row, _, _⟩ => w.getFolder folderId = some row
  | ⟨.insertFolder row, _, took, _⟩ =>
    took = true → w.links row.id = none ∧ w.parentKnown row.parentId ∧ w.nameFree row.toUserFolder
  | ⟨.updateParent folderId parentId _, out, took, _⟩ =>
    (∀ moved, out = .ok moved → moved = (w.getFolder folderId).isSome) ∧
      (took = true → ∀ row ∈ w.getFolder folderId, w.parentKnown parentId ∧
        w.nameFree { row.toUserFolder with parentId })
  | ⟨.selectChildren frontier, .ok ids, _, _⟩ => ids.Perm (w.children frontier)
  | ⟨.selectFileKeys folderIds, .ok keys, _, _⟩ => keys.Perm (w.fileKeys folderIds)
  | _ => True

end FolderWorld

/-- Calls on the folders of any users, interleaved statement by statement.  A session may answer `getById` with a row
that it holds from before. -/
def folderSystem : Sys FolderSig where
  World := FolderWorld
  Tag := FolderParty
  spawn w _ party p w' := w' = w ∧ ∃ rounds, p = party.program rounds
  Allowed w _ _ ev := w.Allowed ev ∨ ∃ folderId, ev.op = .getById folderId
  apply w _ _ ev := w.apply ev

/-- One call that runs by itself. -/
def folderAlone : Monitor FolderSig FolderWorld := ⟨fun _ _ => True, fun w ev => w.Allowed ev, fun w ev => w.apply ev⟩

end Tables

end Transform.Files
