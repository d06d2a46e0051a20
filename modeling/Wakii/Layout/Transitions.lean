import Wakii.Layout.Commands

/-!
# Runtime transitions

Facts of processes, hosts and owners that the runtime reports; no client sends
one.  A lost lease unbinds its panes, an exit that is proven retires its pane.
-/

namespace Wakii.Transitions

open OrderedCollections
open Wakii.CommandSteps Wakii.CommandTypes Wakii.LayoutCommands Wakii.LayoutModel
open Wakii.PaneCommands Wakii.TerminalOwners

variable {P : Type}

/-! ## Process exits -/

structure ExitedSurface where
  worktreeId : String
  terminalTabId : String
  leafId : String
  ptyId : String
  incarnationId : Option String := none
deriving DecidableEq

structure ProcessExitFacts where
  exitCode : ℤ
  isLocal : Bool
  spawnedFresh : Bool
  tabHadPaneAtConnect : Bool
  restored : Bool
  inputWritten : Bool
  outputReceived : Bool
  attachAbsent : Bool := false
deriving DecidableEq

inductive ExitVerdict where
  | retire | keep | unbind
deriving DecidableEq

/-- A host's status that is not negative proves that the process ended. -/
def isProvenProcessExit (exitCode : ℤ) : Bool := 0 ≤ exitCode

def exitVerdict (facts : ProcessExitFacts) (paneCount : ℕ) : ExitVerdict :=
  if facts.attachAbsent || !isProvenProcessExit facts.exitCode then .unbind
  else if facts.isLocal && facts.exitCode ≠ 0 then .keep
  else if facts.inputWritten then .retire
  else if paneCount ≤ 1 then if facts.spawnedFresh then .keep else .retire
  else if facts.tabHadPaneAtConnect && !facts.restored && !facts.outputReceived then .keep
  else .retire

inductive ExitedLocation (P : Type) where
  | gone
  | replaced
  | found (location : TerminalTabLocation P)

def locateExitedSurface (model : WorkspaceLayoutModel P) (surface : ExitedSurface) :
    ExitedLocation P :=
  match (findTerminalTab model surface.terminalTabId).filter fun location =>
      layoutContainsLeafId location.tab.panes.root surface.leafId with
  | none => .gone
  | some location =>
    let leaf := leafOf location.workspace surface.leafId
    let isOtherIncarnation := (given surface.incarnationId).any fun incarnationId =>
      (given leaf.incarnationId).any (· ≠ incarnationId)
    if isOtherIncarnation then .replaced
    else if (given leaf.ptyId).any (· ≠ surface.ptyId) then .replaced
    else .found location

def applyProcessExit (model : WorkspaceLayoutModel P) (surface : ExitedSurface)
    (facts : ProcessExitFacts) : LayoutOutcome P :=
  let unchanged : LayoutOutcome P :=
    { model, result := {}, effects := {}, outcomes := none }
  match locateExitedSurface model surface with
  | .replaced => unchanged
  | .gone =>
    -- A proven exit counts even when its pane was gone.
    if exitVerdict facts 1 = .unbind then unchanged
    else
      { unchanged with
        model := updateLegacyPersistence model { model } [surface.worktreeId] }
  | .found location =>
    let leafId := surface.leafId
    match exitVerdict facts (leafIdsOf location.tab).length with
    | .keep => { unchanged with outcomes := leafOutcome leafId (some .exited) }
    | .unbind =>
      let leaf := released (leafOf location.workspace leafId)
      let next := withWorkspace { model } location.workspaceKey
        (setLeaf location.workspace leafId leaf)
      { unchanged with
        model := updateLegacyPersistence model next []
        outcomes := leafOutcome leafId none }
    | .retire =>
      let retired := retireTerminalPane { model } location leafId
      { unchanged with
        model := updateLegacyPersistence model retired [surface.worktreeId]
        outcomes := leafOutcome leafId none }

/-! ## The other transitions -/

inductive LayoutTransition where
  | processStarted (workspace paneKey ptyId : String) (incarnationId : Option String)
  | processExited (surface : ExitedSurface) (exit : ProcessExitFacts)
  | sshLeaseTerminated (ptyIds : List String)
  | ownerRemoved (workspaces : List String)
  | identityRenamed (fromKey toKey : String)
deriving DecidableEq

def boundElsewhere (model : WorkspaceLayoutModel P) (leafId : String)
    (binding : TerminalBinding) : Bool :=
  model.workspaces.values.any fun workspace =>
    (ModelRules.leafEntries workspace).any fun entry =>
      entry.1 ≠ leafId && isSameTerminal entry.2.binding binding

/-- The leaf with the started terminal; an incarnation it has stays where the
start names none. -/
def startedLeaf (leaf : LayoutLeaf P) (ptyId : String) (incarnationId : Option String) :
    LayoutLeaf P :=
  { leaf with ptyId := some ptyId, incarnationId := incarnationId.or leaf.incarnationId }

def processStarted (edit : LayoutEdit P) (workspaceKey paneKey ptyId : String)
    (incarnationId : Option String) : Applied P :=
  match edit.workspace? workspaceKey with
  | none => refuse .paneNotFound
  | some workspace =>
    match locatePane workspace paneKey with
    | none => refuse .paneNotFound
    | some pane =>
      if boundElsewhere edit.model pane.leafId ⟨some ptyId, incarnationId⟩ then
        refuse .paneAlreadyBound
      else
        applied (withWorkspace edit workspaceKey (setLeaf workspace pane.leafId
          (startedLeaf (leafOf workspace pane.leafId) ptyId incarnationId)))

def holdsLease (ptyIds : List String) (workspace : WorkspaceLayout P) : Bool :=
  (ModelRules.leafEntries workspace).any fun entry => entry.2.ptyId.any ptyIds.contains

/-- Unbinds the panes of a workspace whose lease ended; their incarnations stay. -/
def withoutLeases (ptyIds : List String) (workspace : WorkspaceLayout P) : WorkspaceLayout P :=
  ((ModelRules.leafEntries workspace).filter fun entry =>
    entry.2.ptyId.any ptyIds.contains).foldl
      (fun updated entry => setLeaf updated entry.1 { entry.2 with ptyId := none }) workspace

/-- A lost lease is no evidence that a process exited. -/
def sshLeaseTerminated (edit : LayoutEdit P) (ptyIds : List String) : LayoutEdit P :=
  edit.model.workspaces.pairs.foldl
    (fun next entry =>
      if holdsLease ptyIds entry.2 then
        withWorkspace next entry.1 (withoutLeases ptyIds entry.2)
      else next) edit

def withoutKeys {V : Type} (record : Option (OrderedMap String V)) (keys : List String) :
    Option (OrderedMap String V) :=
  record.map (·.eraseAll keys)

def removeWorkspaces (edit : LayoutEdit P) (keys : List String) : LayoutEdit P :=
  let records := edit.model.records
  { edit with
    model := { edit.model with
      workspaces := edit.model.workspaces.eraseAll keys
      records := { records with
        defaultTabsAppliedByWorkspace := withoutKeys records.defaultTabsAppliedByWorkspace keys
        clientHostedBrowserPagesByWorkspace :=
          withoutKeys records.clientHostedBrowserPagesByWorkspace keys } } }

def renamedKey (key fromKey toKey : String) : String :=
  if key = fromKey then toKey else key

def rekey {V : Type} (record : OrderedMap String V) (fromKey toKey : String) :
    OrderedMap String V :=
  OrderedMap.ofPairs (record.pairs.map fun entry => (renamedKey entry.1 fromKey toKey, entry.2))

def renameWorkspace (edit : LayoutEdit P) (fromKey toKey : String) : Option (LayoutEdit P) :=
  match edit.workspace? fromKey with
  | none => some edit
  | some workspace =>
    if fromKey = toKey then some edit
    else if (edit.workspace? toKey).isSome then none
    else
      let renamed := { workspace with
        worktreeId := renamedKey workspace.worktreeId fromKey toKey }
      let model := edit.model
      some {
        model := { model with
          workspaces := (model.workspaces.set toKey renamed).erase fromKey
          records := { model.records with
            defaultTabsAppliedByWorkspace :=
              model.records.defaultTabsAppliedByWorkspace.map (rekey · fromKey toKey)
            clientHostedBrowserPagesByWorkspace :=
              model.records.clientHostedBrowserPagesByWorkspace.map (rekey · fromKey toKey) }
          legacy := { model.legacy with
            terminalRowOwners := rekey model.legacy.terminalRowOwners fromKey toKey } }
        written := edit.written ++ [toKey] }

def applyTransition (edit : LayoutEdit P) : LayoutTransition → Applied P
  | .processStarted workspace paneKey ptyId incarnationId =>
    processStarted edit workspace paneKey ptyId incarnationId
  | .processExited .. => applied edit
  | .sshLeaseTerminated ptyIds => applied (sshLeaseTerminated edit ptyIds)
  | .ownerRemoved workspaces => applied (removeWorkspaces edit workspaces)
  | .identityRenamed fromKey toKey =>
    match renameWorkspace edit fromKey toKey with
    | some renamed => applied renamed
    | none => refuse .workspaceExists

def applyLayoutTransition (model : WorkspaceLayoutModel P) (transition : LayoutTransition) :
    Except LayoutRefusalCode (LayoutOutcome P) :=
  match transition with
  | .processExited surface exit => .ok (applyProcessExit model surface exit)
  | _ => do
    let applied ← applyTransition { model } transition
    return {
      model := updateLegacyPersistence model applied.edit []
      result := applied.result
      effects := applied.effects
      outcomes := applied.outcomes }

end Wakii.Transitions
