import Wakii.Library.UriComponent

/-!
# Editor file keys

An editor file is addressed by its path and its owner.  Strings have no lone
surrogates, on which `encodeURIComponent` throws; texts may have them.
-/

namespace Wakii.OwnedEditorFile

def trim (text : String) : String := (Text.trim (Text.ofString text)).asString

def encodeURIComponent (text : String) : String :=
  ((UriComponent.encodeURIComponent (Text.ofString text)).getD []).asString

/-- Nothing where an error is thrown. -/
def ownedEditorFileId? (filePath worktreeId : Text) (runtimeEnvironmentId : Option Text) :
    Option Text := do
  let trimmed := Text.trim (runtimeEnvironmentId.getD [])
  let worktree ← UriComponent.encodeURIComponent worktreeId
  let runtimeKey ← UriComponent.encodeURIComponent
    (if trimmed = [] then Text.ofString "local" else trimmed)
  let file ← UriComponent.encodeURIComponent filePath
  return Text.ofString "editor:" ++ worktree ++ 0x3A :: runtimeKey ++ 0x3A :: file

def ownedEditorFileId (filePath worktreeId : String)
    (runtimeEnvironmentId : Option String) : String :=
  ((ownedEditorFileId? (Text.ofString filePath) (Text.ofString worktreeId)
    (runtimeEnvironmentId.map Text.ofString)).getD []).asString

end Wakii.OwnedEditorFile
