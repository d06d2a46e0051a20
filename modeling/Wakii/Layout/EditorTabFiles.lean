import Wakii.Layout.CommandTypes

/-!
# Which file an editor tab shows

A tab names its file by its bare path, or by an id that also names the owner.
-/

namespace Wakii.EditorTabFiles

open Wakii.CommandTypes Wakii.LayoutModel Wakii.OwnedEditorFile

variable {P : Type} (runtime : LayoutRuntime P)

def editorTabShowsFile (entityId : String) (file : LayoutEditorFile P) (worktreeId : String) :
    Bool :=
  entityId = file.filePath || (runtime.layoutOwnerIsMain &&
      entityId = ownedEditorFileId file.filePath worktreeId file.runtimeEnvironmentId)

def editorFileKey (file : LayoutEditorFile P) : String :=
  if runtime.layoutOwnerIsMain then
    ownedEditorFileId file.filePath "" file.runtimeEnvironmentId
  else file.filePath

def sameEditorFile (left right : LayoutEditorFile P) : Bool :=
  editorFileKey runtime left = editorFileKey runtime right

def isClaimed (workspace : WorkspaceLayout P) (file : LayoutEditorFile P) : Bool :=
  (workspace.tabs.map (·.entityId)).contains
    (ownedEditorFileId file.filePath workspace.worktreeId file.runtimeEnvironmentId)

/-- The files an id shows; where there are several, those no owned id claims. -/
def editorTabFiles (workspace : WorkspaceLayout P) (entityId : String) :
    List (LayoutEditorFile P) :=
  let shown := (workspace.editorFiles.getD []).filter fun file =>
    editorTabShowsFile runtime entityId file workspace.worktreeId
  let unclaimed := shown.filter fun file => !isClaimed workspace file
  if shown.length < 2 || unclaimed.isEmpty then shown else unclaimed

def editorTabFile (workspace : WorkspaceLayout P) (entityId : String) :
    Option (LayoutEditorFile P) :=
  if runtime.layoutOwnerIsMain then (editorTabFiles runtime workspace entityId).head?
  else (workspace.editorFiles.getD []).find? fun file =>
    editorTabShowsFile runtime entityId file workspace.worktreeId

/-- Whether an id shows a record of the workspace, which equal records share. -/
def showsRecord (workspace : WorkspaceLayout P) (entityId : String)
    (file : LayoutEditorFile P) : Bool :=
  (editorTabFiles runtime workspace entityId).any fun shown =>
    shown.filePath = file.filePath && shown.runtimeEnvironmentId = file.runtimeEnvironmentId

def keptAfterEditorClose (before after : WorkspaceLayout P) (entityId : String)
    (file : LayoutEditorFile P) : Bool :=
  !showsRecord runtime before entityId file ||
    after.tabs.any fun tab => showsRecord runtime before tab.entityId file

def editorOpenFileId (workspace : WorkspaceLayout P) (file : LayoutEditorFile P) : String :=
  let shown := workspace.tabs.find? fun tab =>
    tab.contentKind = some .editor &&
      (editorTabFile runtime workspace tab.entityId).any (sameEditorFile runtime · file)
  (shown.map (·.entityId)).getD
    (ownedEditorFileId file.filePath workspace.worktreeId file.runtimeEnvironmentId)

end Wakii.EditorTabFiles
