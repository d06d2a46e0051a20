import Wakii.Layout.Commands
import Wakii.Layout.EditorMovesSound
import Wakii.Layout.PaneCommandsSound

/-!
# Every command keeps a layout sound

One lemma for each command says what it keeps, under what its ids and its
terminals must be; here they are put together, for one command and for a run of
them.
-/

namespace Wakii.CommandsSound

open OrderedCollections
open Wakii.CommandSteps Wakii.CommandTypes Wakii.ContentCommands Wakii.ContentCommandsSound
open Wakii.EditorMovesSound Wakii.GroupCommands Wakii.GroupCommandsSound
open Wakii.LayoutCommands Wakii.LayoutModel Wakii.LayoutSoundness Wakii.ModelRules
open Wakii.PaneCommands Wakii.PaneCommandsSound Wakii.TabCommands
open Wakii.TabCommandsSound Wakii.TerminalOwners

variable {P : Type}

/-! ## What commands are given -/

/-- The ids a context mints are no tab's, no group's and no pane's. -/
structure FreshContext (workspaces : Workspaces P) (context : LayoutContext) : Prop where
  tabs : ∀ count, Unused WorkspaceLayout.tabIds workspaces (context.mintId count)
  groups : ∀ count, Unused WorkspaceLayout.groupIds workspaces (context.mintId count)
  panes : ∀ count, Unused WorkspaceLayout.paneIds workspaces (context.mintLeafId count)

/-- The ids a new terminal tab is given are new, and the terminal it adopts is
shown in no pane. -/
structure SuppliedFree (workspaces : Workspaces P) (command : CreateTerminalTab)
    (context : LayoutContext) : Prop where
  tab : ∀ tabId ∈ command.tabId, Unused WorkspaceLayout.tabIds workspaces tabId
  pane : ∀ leafId ∈ command.leafId, Unused WorkspaceLayout.paneIds workspaces leafId
  terminal : ∀ adoption ∈ command.adopt, TerminalFree workspaces (newLeafId command context)
      (adoptedLeaf ({} : LayoutLeaf P) adoption).binding

/-- A terminal that is adopted is bound to no pane but the one that takes it; a
tab that is made has new ids. -/
structure TerminalOpenFree (edit : LayoutEdit P) (command : CreateTerminalTab)
    (context : LayoutContext) : Prop where
  held : ∀ adoption ∈ command.adopt, ∀ held,
    heldPaneOfTerminal (workspaceOrEmpty edit command.workspace) adoption = some held →
      AdoptionFree edit.model.workspaces (workspaceOrEmpty edit command.workspace) adoption held
  made : command.initial.all (admitsInitialSurface edit.model command.workspace) →
    heldFor (workspaceOrEmpty edit command.workspace) command = none →
      SuppliedFree edit.model.workspaces command context

def suppliedBrowserTabId (command : OpenBrowserTab) : Option String :=
  command.tabId.or (command.browserTabId.or command.pageId)

/-- What a command supplies for what it makes is new, unless it finds the tab
there already or checks the id itself. -/
def Admissible (runtime : LayoutRuntime P) (edit : LayoutEdit P) (context : LayoutContext) :
    LayoutCommand P → Prop
  | .createTerminalTab command => TerminalOpenFree edit command context
  | .splitPane _ _ _ _ _ newLeafId =>
    ∀ leafId ∈ newLeafId, Unused WorkspaceLayout.paneIds edit.model.workspaces leafId
  | .movePaneToNewTab command =>
    (∀ tabId ∈ command.windowDetach.bind (·.tabId),
      Unused WorkspaceLayout.tabIds edit.model.workspaces tabId) ∧
    DetachFree edit.model.workspaces (workspaceOrEmpty edit command.workspace) command.leafId
      command.windowDetach
  | .openBrowserTab command =>
    given command.browserTabId = none → ∀ tabId ∈ suppliedBrowserTabId command,
      Unused WorkspaceLayout.tabIds edit.model.workspaces tabId
  | .openAgentSessionTab command =>
    runtime.layoutOwnerIsMain = false →
      command.initial.all (admitsInitialSurface edit.model command.workspace) →
        ∀ tabId, given command.tabId = some tabId →
          (findTab (workspaceOrEmpty edit command.workspace) tabId).any
            (isSessionTab command) = false →
              Unused WorkspaceLayout.tabIds edit.model.workspaces tabId
  | .openSimulatorTab command =>
    command.tabId = "" → Unused WorkspaceLayout.tabIds edit.model.workspaces command.tabId
  | .applyDefaultTabs workspace tabs =>
    workspace ∉ edit.model.records.defaultTabsAppliedByWorkspace.getD ∅ →
      DefaultTabsFree edit.model.workspaces tabs
  | _ => True

/-! ## Opens, where a new group stands ready -/

variable {command : CreateTerminalTab} {context : LayoutContext}

theorem terminalOpenFree_of_sameTabs {edit next : LayoutEdit P} (hsame : SameTabs edit next)
    (hfree : TerminalOpenFree edit command context) :
    TerminalOpenFree next command context := by
  refine ⟨fun adoption hadoption held hheld hother => ?_, fun hadmitted hnone => ?_⟩
  · rw [hsame.heldPaneOfTerminal] at hheld
    rw [hsame.leafOf] at hother ⊢
    exact hsame.terminalFree (hfree.held adoption hadoption held hheld hother)
  · have hall : command.initial.all (admitsInitialSurface edit.model command.workspace) := by
      rw [← funext (hsame.admits command.workspace)]
      exact hadmitted
    have hnone' : heldFor (workspaceOrEmpty edit command.workspace) command = none := by
      simpa only [heldFor, hsame.heldPaneOfTerminal] using hnone
    obtain ⟨htab, hpane, hterminal⟩ := hfree.made hall hnone'
    exact ⟨fun tabId htabId => hsame.unusedTab (htab tabId htabId),
      fun leafId hleafId => hsame.unusedPane (hpane leafId hleafId),
      fun adoption hadoption => hsame.terminalFree (hterminal adoption hadoption)⟩

theorem terminalTabFree_of_supplied {workspaces : Workspaces P}
    (hmintedTab : Unused WorkspaceLayout.tabIds workspaces (context.mintId 0))
    (hmintedPane : Unused WorkspaceLayout.paneIds workspaces (context.mintLeafId 0))
    (hfree : SuppliedFree workspaces command context) :
    TerminalTabFree workspaces command context := by
  refine ⟨?_, ?_, hfree.terminal⟩
  · rw [newTabId]
    cases htab : command.tabId with
    | none => exact hmintedTab
    | some tabId => exact hfree.tab tabId htab
  · rw [newLeafId]
    cases hleaf : command.leafId with
    | none => exact hmintedPane
    | some leafId => exact hfree.pane leafId hleaf

theorem browserTabId_cases (command : OpenBrowserTab) (context : LayoutContext) :
    (browserTabIds command context).tabId =
      (suppliedBrowserTabId command).getD (context.mintId 0) := by
  rw [browserTabIds, suppliedBrowserTabId]
  cases command.tabId <;> cases command.browserTabId <;> cases command.pageId <;> rfl

section Commands

variable (runtime : LayoutRuntime P) {edit : LayoutEdit P} {context : LayoutContext}
  (hsound : LayoutSound noSpare edit.model.workspaces)
  (hfresh : FreshContext edit.model.workspaces context)

include hsound hfresh

variable {command : LayoutCommand P}

section

variable (hadmissible : Admissible runtime edit context command)
include hadmissible

theorem keeps_applyOpen : Keeps noSpare (applyOpen runtime edit context command) := by
  cases command with
  | createTerminalTab command =>
    rw [applyOpen]
    refine keeps_openInNewGroup runtime hsound _ fun spare next hsame hnext => ?_
    have hfree := terminalOpenFree_of_sameTabs hsame hadmissible
    exact keeps_createTerminalTab runtime hnext rfl context hfree.held
      fun hadmitted hnone => terminalTabFree_of_supplied (hsame.unusedTab (hfresh.tabs 0))
        (hsame.unusedPane (hfresh.panes 0)) (hfree.made hadmitted hnone)
  | openEditorTab command =>
    exact keeps_openInNewGroup runtime hsound _ fun spare next hsame hnext =>
      keeps_openEditorTab runtime hnext command (hsame.unusedTab (hfresh.tabs 0))
  | openBrowserTab command =>
    refine keeps_openInNewGroup runtime hsound _ fun spare next hsame hnext =>
      keeps_openBrowserTab runtime hnext fun hgiven => hsame.unusedTab ?_
    rw [browserTabId_cases]
    cases hsupplied : suppliedBrowserTabId command with
    | none => exact hfresh.tabs 0
    | some tabId => exact hadmissible hgiven tabId hsupplied
  | openAgentSessionTab command =>
    refine keeps_openInNewGroup runtime hsound _ fun spare next hsame hnext =>
      keeps_openAgentSessionTab runtime hnext (hsame.unusedTab (hfresh.tabs 0)) ?_
    intro hmain hadmitted tabId htabId hother
    rw [hsame.findTab] at hother
    rw [funext (hsame.admits command.workspace)] at hadmitted
    exact hsame.unusedTab (hadmissible hmain hadmitted tabId htabId hother)
  | openSimulatorTab command =>
    exact keeps_openInNewGroup runtime hsound _ fun spare next hsame hnext =>
      keeps_openSimulatorTab runtime hnext context fun hempty =>
        hsame.unusedTab (hadmissible hempty)
  | _ => exact keeps_refuse _

/-- A command inside a workspace keeps the layout sound. -/
theorem keeps_applyInWorkspace {workspace : WorkspaceLayout P}
    (hlookup : edit.workspace? command.workspace = some workspace) :
    Keeps noSpare (applyInWorkspace runtime edit workspace context command) := by
  cases command with
  | splitPane key tabId leafId direction ratio newLeafId =>
    refine keeps_splitPane hsound hlookup tabId leafId direction ratio ?_
    cases hleaf : newLeafId with
    | none => exact hfresh.panes 0
    | some added => exact hadmissible added hleaf
  | closePane key tabId leafId userPaneClose =>
    exact keeps_closePane hsound hlookup tabId leafId userPaneClose
  | closeTabs command => exact keeps_closeTabs runtime hsound hlookup rfl context.now
  | moveTab command => exact keeps_moveTab hsound hlookup runtime rfl
  | splitGroup key tabId besideGroupId direction =>
    exact keeps_splitGroup hsound hlookup runtime tabId besideGroupId direction (hfresh.groups 0)
  | setGroupRatios key groupLayout ratios =>
    exact keeps_setGroupRatios hsound hlookup groupLayout ratios
  | setPaneRatios key tabId root ratios =>
    exact keeps_setPaneRatios hsound hlookup runtime tabId root ratios
  | movePane key tabId leafId targetLeafId side =>
    exact keeps_movePane hsound hlookup tabId leafId targetLeafId side
  | equalizePanes key tabId => exact keeps_equalizePanes hsound hlookup runtime tabId
  | movePaneToNewTab command =>
    obtain ⟨htab, hfree⟩ := hadmissible
    have hheld : workspaceOrEmpty edit command.workspace = workspace :=
      workspaceOrEmpty_of_lookup hlookup
    rw [hheld] at hfree
    refine keeps_movePaneToNewTab runtime hsound hlookup rfl ?_ hfree
    rw [movedTabId]
    cases htabId : command.windowDetach.bind (·.tabId) with
    | none => exact hfresh.tabs 0
    | some tabId => exact htab tabId htabId
  | renameTab key tabId title => exact keeps_renameTab hsound hlookup tabId title
  | renamePane key tabId leafId title => exact keeps_renamePane hsound hlookup tabId leafId title
  | setPaneGrid key tabId leafId grid => exact keeps_setPaneGrid hsound hlookup tabId leafId grid
  | releasePaneTerminal key tabId leafId ptyId =>
    exact keeps_releasePaneTerminal hsound hlookup tabId leafId ptyId
  | setTabProps command => exact keeps_setTabProps hsound hlookup rfl
  | setChatPane key tabId leafId => exact keeps_setChatPane hsound hlookup tabId leafId
  | promotePreviewTab key tabId => exact keeps_promotePreviewTab hsound hlookup tabId
  | moveTabToWorkspace command => exact keeps_moveTabToWorkspace runtime hsound hlookup context
  | renameEditorFiles key renames alsoIn =>
    exact keeps_renameEditorFiles hsound key renames alsoIn
  | openBrowserPage key browserTabId pageId =>
    exact keeps_withRecord hsound hlookup browserTabId _
  | closeBrowserPage key browserTabId pageId =>
    rw [applyInWorkspace, closeBrowserPage, withPageIds]
    exact keeps_withRecord hsound hlookup browserTabId _
  | replaceBrowserPage key browserTabId pageId newPageId =>
    exact keeps_withRecord hsound hlookup browserTabId _
  | setBrowserTabProfile key browserTabId profileId sessionPartition =>
    rw [applyInWorkspace, setBrowserTabProfile]
    exact keeps_withRecord hsound hlookup browserTabId _
  | startPane key paneKey => exact keeps_startPane hsound hlookup paneKey context
  | restartPane key paneKey => exact keeps_restartPane hsound hlookup paneKey
  | sleep key paneKeys records recordOnly =>
    exact keeps_sleep hsound hlookup paneKeys records recordOnly
  | wake key paneKeys recordOnly => exact keeps_wake hsound hlookup paneKeys recordOnly
  | _ => exact keeps_refuse _

theorem keeps_applyCommand : Keeps noSpare (applyCommand runtime edit command context) := by
  unfold applyCommand
  split
  · exact keeps_setDefaultTabsApplied hsound _
  next key tabs =>
    by_cases hdone : key ∈ edit.model.records.defaultTabsAppliedByWorkspace.getD ∅
    · rw [applyDefaultTabs, if_pos hdone]
      exact keeps_applied hsound
    · exact keeps_applyDefaultTabs runtime hsound key context (hadmissible hdone)
  · split
    · exact keeps_applyOpen runtime hsound hfresh hadmissible
    · cases hlookup : edit.workspace? command.workspace with
      | some workspace =>
        exact keeps_applyInWorkspace runtime hsound hfresh hadmissible hlookup
      | none =>
        unfold applyWithoutWorkspace
        dsimp only
        split
        · exact keeps_applied hsound
        · exact keeps_applied hsound
        · exact keeps_refuse _

end

end Commands

/-! ## Models -/

/-- A model the check passes, in whose workspaces groups have ids of their own. -/
structure Sound (model : WorkspaceLayoutModel P) : Prop where
  checked : checkWorkspaceLayoutModelRules [model] = []
  groups : GroupsDistinct model
  layout : LayoutSound noSpare model.workspaces

variable {model : WorkspaceLayoutModel P}

theorem sound_of_layout (hlayout : LayoutSound noSpare model.workspaces) : Sound model :=
  ⟨((sound_iff model).mp hlayout).1, ((sound_iff model).mp hlayout).2, hlayout⟩

theorem sound_applyLayoutCommand {runtime : LayoutRuntime P}
    (hsound : LayoutSound noSpare model.workspaces) {command : LayoutCommand P}
    (hfresh : FreshContext model.workspaces context)
    (hadmissible : Admissible runtime { model } context command) {outcome : LayoutOutcome P}
    (houtcome : applyLayoutCommand runtime model command context = .ok outcome) :
    LayoutSound noSpare outcome.model.workspaces := by
  obtain ⟨applied, happlied, hworkspaces⟩ := applyLayoutCommand_cases houtcome
  have hedit : LayoutSound noSpare ({ model } : LayoutEdit P).model.workspaces := hsound
  rw [hworkspaces]
  exact keeps_applyCommand runtime hedit hfresh hadmissible applied happlied

def stepCommand (runtime : LayoutRuntime P) (model : WorkspaceLayoutModel P)
    (sent : LayoutCommand P × LayoutContext) : WorkspaceLayoutModel P :=
  match applyLayoutCommand runtime model sent.1 sent.2 with
  | .ok outcome => outcome.model
  | .error _ => model

def runCommands (runtime : LayoutRuntime P) (model : WorkspaceLayoutModel P)
    (sent : List (LayoutCommand P × LayoutContext)) : WorkspaceLayoutModel P :=
  sent.foldl (stepCommand runtime) model

def AdmissibleRun (runtime : LayoutRuntime P) :
    WorkspaceLayoutModel P → List (LayoutCommand P × LayoutContext) → Prop
  | _, [] => True
  | model, sent :: rest =>
    FreshContext model.workspaces sent.2 ∧ Admissible runtime { model } sent.2 sent.1 ∧
      AdmissibleRun runtime (stepCommand runtime model sent) rest

theorem sound_runCommands {runtime : LayoutRuntime P}
    {sent : List (LayoutCommand P × LayoutContext)}
    (hsound : LayoutSound noSpare model.workspaces)
    (hadmissible : AdmissibleRun runtime model sent) :
    LayoutSound noSpare (runCommands runtime model sent).workspaces := by
  induction sent generalizing model with
  | nil => exact hsound
  | cons first rest ih =>
    obtain ⟨hfresh, hfirst, hrest⟩ := hadmissible
    refine ih ?_ hrest
    rw [stepCommand]
    cases houtcome : applyLayoutCommand runtime model first.1 first.2 with
    | error code => exact hsound
    | ok outcome => exact sound_applyLayoutCommand hsound hfresh hfirst houtcome

/-- A command that does not refuse leaves a sound model, and so does any run of
commands. -/
theorem commands_keep_sound (runtime : LayoutRuntime P) {model : WorkspaceLayoutModel P}
    (hchecked : checkWorkspaceLayoutModelRules [model] = [])
    (hgroups : GroupsDistinct model) :
    (∀ command context outcome, FreshContext model.workspaces context →
      Admissible runtime { model } context command →
        applyLayoutCommand runtime model command context = .ok outcome → Sound outcome.model) ∧
      ∀ sent, AdmissibleRun runtime model sent → Sound (runCommands runtime model sent) := by
  have hlayout := (sound_iff model).mpr ⟨hchecked, hgroups⟩
  exact ⟨fun command context outcome hfresh hadmissible houtcome =>
      sound_of_layout (sound_applyLayoutCommand hlayout hfresh hadmissible houtcome),
    fun sent hadmissible => sound_of_layout (sound_runCommands hlayout hadmissible)⟩

/-! ## Models that pass the check -/

def plainRuntime : LayoutRuntime Unit where
  layoutOwnerIsMain := true
  evenRatio := ()
  isNearEven _ := true
  share _ _ := ()
  roundRatio ratio := ratio

def newIds : LayoutContext where
  mintId _ := "new"
  mintLeafId _ := "new"
  now := 0

def modelOf (workspaces : List (String × WorkspaceLayout Unit)) : WorkspaceLayoutModel Unit where
  hostId := "local"
  workspaces := OrderedMap.ofPairs workspaces
  records := {}
  legacy := { terminalRowOwners := ∅ }

def shell (id leafId : String) : LayoutTab Unit :=
  .terminal
    { id, entityId := id, createdAt := 0, customTitle := none, color := none
      terminal := {}, panes := { root := some (.leaf leafId) } }

def repeatedGroup : WorkspaceLayoutModel Unit :=
  modelOf [("w", {
    worktreeId := "w"
    tabs := [shell "t" "p", shell "u" "q"]
    groups := [⟨"g", ["t"]⟩, ⟨"g", ["u"]⟩]
    groupLayout := some (.split { direction := .horizontal, ratio := none } (.leaf "g")
      (.leaf "h")) })]

def repeatedLeaf : WorkspaceLayoutModel Unit :=
  modelOf [("w", {
    worktreeId := "w"
    tabs := [shell "t" "p", shell "u" "q"]
    groups := [⟨"g", ["t"]⟩, ⟨"h", ["u"]⟩]
    groupLayout := some (.split { direction := .horizontal, ratio := none } (.leaf "g")
      (.leaf "g")) })]

/-- A pane shows a relay terminal; one in another workspace lost its lease of it. -/
def staleIncarnation : WorkspaceLayoutModel Unit :=
  modelOf [ ("w", {
      worktreeId := "w"
      tabs := [shell "t" "p"]
      groups := [⟨"g", ["t"]⟩]
      leaves := some (OrderedMap.ofPairs [("p",
        { ptyId := some "ssh:c@@pty-1", incarnationId := some "i" })]) }),
    ("x", {
      worktreeId := "x"
      tabs := [shell "u" "q"]
      groups := [⟨"g", ["u"]⟩]
      leaves := some (OrderedMap.ofPairs [("q", { incarnationId := some "i" })]) })]

def leavesBreach (model : WorkspaceLayoutModel Unit) (command : LayoutCommand Unit) : Bool :=
  match applyLayoutCommand plainRuntime model command newIds with
  | .ok outcome => checkWorkspaceLayoutModelRules [outcome.model] ≠ []
  | .error _ => false

variable {model : WorkspaceLayoutModel Unit}

theorem fresh_newIds
    (hnew : model.workspaces.values.all fun workspace => "new" ∉ workspace.tabIds &&
      "new" ∉ workspace.groupIds && "new" ∉ workspace.paneIds) :
    FreshContext model.workspaces newIds := by
  have hnone : ∀ key workspace, model.workspaces.lookup key = some workspace →
      ("new" ∉ workspace.tabIds ∧ "new" ∉ workspace.groupIds) ∧ "new" ∉ workspace.paneIds := by
    intro key workspace hlookup
    have hmem := List.all_eq_true.mp hnew workspace (OrderedMap.mem_values.mpr ⟨key, hlookup⟩)
    simpa using hmem
  exact ⟨fun _ key workspace hlookup => (hnone key workspace hlookup).1.1,
    fun _ key workspace hlookup => (hnone key workspace hlookup).1.2,
    fun _ key workspace hlookup => (hnone key workspace hlookup).2⟩

theorem unused_of_all {idsOf : WorkspaceLayout Unit → List String} {id : String}
    (hunused : model.workspaces.values.all fun workspace => decide (id ∉ idsOf workspace)) :
    Unused idsOf model.workspaces id := fun key _ hlookup =>
  of_decide_eq_true (List.all_eq_true.mp hunused _ (OrderedMap.mem_values.mpr ⟨key, hlookup⟩))

theorem isSameTerminal_relay (left : TerminalBinding) :
    isSameTerminal left ⟨some "ssh:c@@pty-1", none⟩ = false := by
  have hrepeats : isRepeatingRelayPtyId "ssh:c@@pty-1" = true := by decide +kernel
  obtain ⟨ptyId, incarnationId⟩ := left
  cases ptyId with
  | none => rfl
  | some ptyId =>
    by_cases hsame : "ssh:c@@pty-1" = ptyId
    · subst hsame
      cases incarnationId <;> simp [isSameTerminal, hrepeats]
    · simp [isSameTerminal, hsame]

/-- A second terminal tab opens beside the first. -/
theorem commands_keep_sound_terminal : Sound (runCommands plainRuntime (modelOf [("w", {
        worktreeId := "w", tabs := [shell "t" "p"], groups := [⟨"g", ["t"]⟩] })])
      [(.createTerminalTab { workspace := "w", tabId := some "u", leafId := some "q" },
        newIds)]) := by
  have hmodel : checkWorkspaceLayoutModelRules [modelOf [("w", {
      worktreeId := "w", tabs := [shell "t" "p"], groups := [⟨"g", ["t"]⟩] })]] = [] := by
    decide +kernel
  have hgroups : GroupsDistinct (modelOf [("w", {
      worktreeId := "w", tabs := [shell "t" "p"], groups := [⟨"g", ["t"]⟩] })]) := by
    intro key workspace hlookup
    have hmem := OrderedMap.mem_values.mpr ⟨key, hlookup⟩
    rw [List.mem_singleton.mp hmem]
    exact ⟨List.nodup_singleton "g", List.nodup_nil⟩
  refine (commands_keep_sound plainRuntime hmodel hgroups).2 _ ⟨fresh_newIds ?_, ?_, trivial⟩
  · decide +kernel
  · refine ⟨fun adoption hadoption => (by cases hadoption), fun _ _ =>
      ⟨fun tabId htab => ?_, fun leafId hleaf => ?_,
        fun adoption hadoption => (by cases hadoption)⟩⟩
    · cases htab
      exact unused_of_all (by decide +kernel)
    · cases hleaf
      exact unused_of_all (by decide +kernel)

/-- The check alone is not kept: not where groups or leaves of the tree repeat,
not by default tabs of one id, not where a pane kept the incarnation of the
terminal it is given. -/
theorem commands_may_breach : (checkWorkspaceLayoutModelRules [repeatedGroup] = [] ∧
      FreshContext repeatedGroup.workspaces newIds ∧
      leavesBreach repeatedGroup (.closeTabs { workspace := "w", tabIds := ["t"] }) = true) ∧
    (checkWorkspaceLayoutModelRules [repeatedLeaf] = [] ∧
      FreshContext repeatedLeaf.workspaces newIds ∧
      leavesBreach repeatedLeaf (.closeTabs { workspace := "w", tabIds := ["t"] }) = true) ∧
    (checkWorkspaceLayoutModelRules [modelOf []] = [] ∧
      FreshContext (modelOf []).workspaces newIds ∧
      Unused WorkspaceLayout.tabIds (modelOf []).workspaces "t" ∧
      Unused WorkspaceLayout.paneIds (modelOf []).workspaces "p" ∧
      Unused WorkspaceLayout.paneIds (modelOf []).workspaces "q" ∧
      leavesBreach (modelOf []) (.applyDefaultTabs "w"
        [⟨"t", "p", none, none, none⟩, ⟨"t", "q", none, none, none⟩]) = true) ∧
    (checkWorkspaceLayoutModelRules [staleIncarnation] = [] ∧
      FreshContext staleIncarnation.workspaces newIds ∧
      TerminalFree staleIncarnation.workspaces "q" ⟨some "ssh:c@@pty-1", none⟩ ∧
      leavesBreach staleIncarnation (.createTerminalTab {
        workspace := "x"
        adopt := some { ptyId := "ssh:c@@pty-1", recordedPaneKey := some "u:q" } }) = true) := by
  refine ⟨⟨?_, fresh_newIds ?_, ?_⟩, ⟨?_, fresh_newIds ?_, ?_⟩,
    ⟨?_, fresh_newIds ?_, unused_of_all ?_, unused_of_all ?_, unused_of_all ?_, ?_⟩,
    ⟨?_, fresh_newIds ?_, fun _ _ _ _ _ => isSameTerminal_relay _, ?_⟩⟩
  all_goals decide +kernel

end Wakii.CommandsSound
