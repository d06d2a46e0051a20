import Wakii.Layout.CommandsSound
import Wakii.Layout.Transitions

/-!
# Transitions keep a layout sound

Only a start binds a pane.  Its guard compares the terminal as it was reported,
while a pane that is given no incarnation keeps its old one, so a start of an id
that repeats is safe where the terminal under the kept incarnation is shown in no
other pane.
-/

namespace Wakii.TransitionsSound

open List OrderedCollections OrderedMap
open Wakii.CommandSteps Wakii.CommandTypes Wakii.CommandsSound
open Wakii.LayoutCommands Wakii.LayoutModel Wakii.LayoutSoundness Wakii.ModelRules
open Wakii.StepsSound Wakii.TabCommandsSound Wakii.TerminalOwners
open Wakii.Transitions

variable {P : Type} {spare : String → String → Prop} {edit : LayoutEdit P} {key : String}
  {workspace : WorkspaceLayout P}

/-! ## Starts -/

/-- The pane of a start that names no incarnation, of an id that repeats, may take the
terminal under the incarnation it keeps. -/
def KeptFree (edit : LayoutEdit P) (workspaceKey paneKey ptyId : String)
    (incarnationId : Option String) : Prop :=
  ∀ workspace pane kept, edit.workspace? workspaceKey = some workspace →
    locatePane workspace paneKey = some pane → incarnationId = none →
      isRepeatingRelayPtyId ptyId = true →
        (leafOf workspace pane.leafId).incarnationId = some kept →
          TerminalFree edit.model.workspaces pane.leafId ⟨some ptyId, some kept⟩

variable {model : WorkspaceLayoutModel P}

theorem terminalFree_of_not_boundElsewhere {leafId : String}
    {binding : TerminalBinding} (hfree : boundElsewhere model leafId binding = false) :
    TerminalFree model.workspaces leafId binding := by
  intro key workspace other hlookup hother
  cases hleaf : workspace.leaf? other with
  | none =>
    rw [bindingOf_unbound hleaf]
    exact isSameTerminal_unbound_left rfl binding
  | some leaf =>
    rw [WorkspaceLayout.bindingOf, hleaf]
    by_contra hsame
    rw [Bool.not_eq_false] at hsame
    rw [boundElsewhere, ← Bool.not_eq_true, any_eq_true] at hfree
    apply hfree
    refine ⟨workspace, mem_values.mpr ⟨key, hlookup⟩, ?_⟩
    rw [any_eq_true]
    refine ⟨(other, leaf), mem_leafEntries.mpr hleaf, ?_⟩
    rw [Bool.and_eq_true, decide_eq_true_eq]
    exact ⟨hother, hsame⟩

/-- An id that does not repeat is taken under no incarnation where it is taken under one. -/
theorem isSameTerminal_without_incarnation {ptyId : String}
    (hrepeats : isRepeatingRelayPtyId ptyId = false) {left : TerminalBinding} {kept : String}
    (hsame : isSameTerminal left ⟨some ptyId, some kept⟩ = true) :
    isSameTerminal left ⟨some ptyId, none⟩ = true := by
  obtain ⟨leftPty, leftIncarnation⟩ := left
  cases leftPty with
  | none => exact absurd hsame Bool.false_ne_true
  | some other =>
    rw [isSameTerminal, Bool.and_eq_true, decide_eq_true_eq] at hsame ⊢
    obtain rfl := Option.some.inj hsame.1
    cases leftIncarnation <;> exact ⟨rfl, by rw [hrepeats, Bool.not_false]⟩

/-- A started process is bound to its pane. -/
theorem keeps_processStarted (hsound : LayoutSound spare edit.model.workspaces)
    (workspaceKey paneKey ptyId : String) (incarnationId : Option String)
    (hkept : KeptFree edit workspaceKey paneKey ptyId incarnationId) :
    Keeps spare (processStarted edit workspaceKey paneKey ptyId incarnationId) := by
  rw [processStarted]
  cases hlookup : edit.workspace? workspaceKey with
  | none => exact keeps_refuse _
  | some workspace =>
    dsimp only
    cases hpane : locatePane workspace paneKey with
    | none => exact keeps_refuse _
    | some pane =>
      dsimp only
      split
      · exact keeps_refuse _
      next hguard =>
        rw [Bool.not_eq_true] at hguard
        have hworkspace := hsound.workspace workspaceKey workspace hlookup
        have hbinding : TerminalFree edit.model.workspaces pane.leafId (startedLeaf
            (leafOf workspace pane.leafId) ptyId incarnationId).binding := by
          cases hincarnation : incarnationId with
          | some given =>
            rw [hincarnation] at hguard
            exact terminalFree_of_not_boundElsewhere hguard
          | none =>
            cases hleaf : (leafOf workspace pane.leafId).incarnationId with
            | some kept =>
              rw [startedLeaf, hleaf]
              cases hrepeats : isRepeatingRelayPtyId ptyId with
              | true => exact hkept workspace pane kept hlookup hpane hincarnation hrepeats hleaf
              | false =>
                rw [hincarnation] at hguard
                intro key workspace other hheld hother
                by_contra hsame
                have hfree := terminalFree_of_not_boundElsewhere hguard key workspace other hheld
                  hother
                rw [isSameTerminal_without_incarnation hrepeats
                  (Bool.not_eq_false _ ▸ hsame)] at hfree
                cases hfree
            | none =>
              rw [hincarnation] at hguard
              rw [startedLeaf, hleaf]
              exact terminalFree_of_not_boundElsewhere hguard
        apply keeps_applied
        refine hsound.set (workspaceOrEmpty_of_lookup hlookup)
          (sound_setLeaf hworkspace (mem_of_locatePane hpane) ?_)
          (fun _ _ _ hgroup => hgroup) (replaces_setLeaf hbinding)
        exact PanesSound.leafOf_single hworkspace.panes pane.leafId

/-! ## Lost leases -/

theorem sound_unbound {spare : String → Prop} {original : WorkspaceLayout P}
    (horiginal : WorkspaceSound spare original) {entries : List (String × LayoutLeaf P)}
    (hentries : ∀ entry ∈ entries, original.leaf? entry.1 = some entry.2)
    {current : WorkspaceLayout P} (hcurrent : WorkspaceSound spare current)
    (hpanes : current.paneIds = original.paneIds) :
    WorkspaceSound spare (entries.foldl
        (fun updated entry => setLeaf updated entry.1 { entry.2 with ptyId := none }) current) ∧
      Evolves [] [] current (entries.foldl
        (fun updated entry => setLeaf updated entry.1 { entry.2 with ptyId := none }) current) := by
  induction entries generalizing current with
  | nil => exact ⟨hcurrent, Evolves.refl current⟩
  | cons entry rest ih =>
    have hleaf := hentries entry mem_cons_self
    have hmem : entry.1 ∈ current.paneIds := by
      rw [hpanes]
      exact horiginal.panes.held entry.1 entry.2 hleaf
    have hstep : WorkspaceSound spare (setLeaf current entry.1 { entry.2 with ptyId := none }) :=
      sound_setLeaf hcurrent hmem (horiginal.panes.single entry.1 entry.2 hleaf)
    obtain ⟨hlast, hevolves⟩ := ih
      (fun other hother => hentries other (mem_cons_of_mem entry hother)) hstep hpanes
    exact ⟨hlast, (evolves_setLeaf (Or.inr rfl)).trans hevolves⟩

theorem sound_withoutLeases {spare : String → Prop} (hsound : WorkspaceSound spare workspace)
    (ptyIds : List String) :
    WorkspaceSound spare (withoutLeases ptyIds workspace) ∧
      Evolves [] [] workspace (withoutLeases ptyIds workspace) :=
  sound_unbound hsound (fun _ hentry => mem_leafEntries.mp (mem_of_mem_filter hentry))
    hsound rfl

theorem sound_foldl_leases (ptyIds : List String)
    {entries : List (String × WorkspaceLayout P)} (hkeys : (entries.map Prod.fst).Nodup)
    {edit : LayoutEdit P} (hsound : LayoutSound spare edit.model.workspaces)
    (hheld : ∀ entry ∈ entries, edit.workspace? entry.1 = some entry.2) :
    LayoutSound spare (entries.foldl (fun next entry =>
      if holdsLease ptyIds entry.2 then
        withWorkspace next entry.1 (withoutLeases ptyIds entry.2)
      else next) edit).model.workspaces := by
  induction entries generalizing edit with
  | nil => exact hsound
  | cons entry rest ih =>
    rw [map_cons, nodup_cons] at hkeys
    have hlookup := hheld entry mem_cons_self
    have hrest : ∀ other ∈ rest, edit.workspace? other.1 = some other.2 := fun other hother =>
      hheld other (mem_cons_of_mem entry hother)
    rw [foldl_cons]
    split
    · refine ih hkeys.2 (sound_write hsound (workspaceOrEmpty_of_lookup hlookup)
        (sound_withoutLeases (hsound.workspace entry.1 entry.2 hlookup) ptyIds)) ?_
      intro other hother
      have hdiffer : other.1 ≠ entry.1 := fun hsame =>
        hkeys.1 (mem_map.mpr ⟨other, hother, hsame⟩)
      rw [LayoutEdit.workspace?, LayoutEdit.workspaces_withWorkspace, lookup_set, if_neg hdiffer]
      exact hrest other hother
    · exact ih hkeys.2 hsound hrest

theorem sound_sshLeaseTerminated (hsound : LayoutSound spare edit.model.workspaces)
    (ptyIds : List String) :
    LayoutSound spare (sshLeaseTerminated edit ptyIds).model.workspaces := by
  refine sound_foldl_leases ptyIds ?_ hsound fun entry hentry => mem_pairs.mp hentry
  rw [map_fst_pairs]
  exact edit.model.workspaces.nodupKeys

/-! ## Removed and renamed workspaces -/

/-- Every workspace is one of those before, under the same key or another. -/
theorem sound_rekeyed {workspaces workspaces' : Workspaces P}
    (hsound : LayoutSound noSpare workspaces) {origin : String → String}
    (hframe : ∀ key workspace, workspaces'.lookup key = some workspace →
      ∃ old, workspaces.lookup (origin key) = some old ∧ SameFrame old workspace)
    (hdiffer : ∀ key key', key ∈ workspaces' → key' ∈ workspaces' → key ≠ key' →
      origin key ≠ origin key') : LayoutSound noSpare workspaces' := by
  have hmem : ∀ {key workspace}, workspaces'.lookup key = some workspace → key ∈ workspaces' :=
    fun hlookup => AList.lookup_isSome.mp (by rw [hlookup]; rfl)
  refine ⟨fun key workspace hlookup => ?_, ?_, ?_, ?_⟩
  · obtain ⟨old, hold, hsame⟩ := hframe key workspace hlookup
    exact hsame.sound (hsound.workspace (origin key) old hold)
  · intro key key' workspace workspace' hkeys hlookup hlookup'
    obtain ⟨old, hold, hsame⟩ := hframe key workspace hlookup
    obtain ⟨old', hold', hsame'⟩ := hframe key' workspace' hlookup'
    rw [hsame.tabIds, hsame'.tabIds]
    exact hsound.tabs _ _ old old' (hdiffer key key' (hmem hlookup) (hmem hlookup') hkeys) hold
      hold'
  · intro key key' workspace workspace' hkeys hlookup hlookup'
    obtain ⟨old, hold, hsame⟩ := hframe key workspace hlookup
    obtain ⟨old', hold', hsame'⟩ := hframe key' workspace' hlookup'
    rw [hsame.paneIds, hsame'.paneIds]
    exact hsound.panes _ _ old old' (hdiffer key key' (hmem hlookup) (hmem hlookup') hkeys) hold
      hold'
  · intro key key' workspace workspace' leafId leafId' hlookup hlookup' hleaf
    obtain ⟨old, hold, hsame⟩ := hframe key workspace hlookup
    obtain ⟨old', hold', hsame'⟩ := hframe key' workspace' hlookup'
    rw [hsame.bindingOf, hsame'.bindingOf]
    exact hsound.terminals _ _ old old' leafId leafId' hold hold' hleaf

theorem sound_removeWorkspaces (hsound : LayoutSound noSpare edit.model.workspaces)
    (keys : List String) :
    LayoutSound noSpare (removeWorkspaces edit keys).model.workspaces := by
  refine sound_rekeyed hsound (fun key workspace hlookup => ?_) fun _ _ _ _ hkeys => hkeys
  have hkept : (edit.model.workspaces.eraseAll keys).lookup key = some workspace := hlookup
  rw [lookup_eraseAll] at hkept
  split at hkept
  · cases hkept
  · exact ⟨workspace, hkept, rfl, rfl, rfl, rfl, rfl⟩

/-- Renaming a workspace keeps the layout sound. -/
theorem sound_renameWorkspace (hsound : LayoutSound noSpare edit.model.workspaces)
    {fromKey toKey : String} {renamed : LayoutEdit P}
    (hrenamed : renameWorkspace edit fromKey toKey = some renamed) :
    LayoutSound noSpare renamed.model.workspaces := by
  rw [renameWorkspace] at hrenamed
  cases hlookup : edit.workspace? fromKey with
  | none =>
    rw [hlookup] at hrenamed
    cases hrenamed
    exact hsound
  | some workspace =>
    rw [hlookup] at hrenamed
    dsimp only at hrenamed
    split at hrenamed
    · cases hrenamed
      exact hsound
    next hkeys =>
      split at hrenamed
      · cases hrenamed
      · cases hrenamed
        have hstay : ∀ key, ((edit.model.workspaces.set toKey { workspace with
            worktreeId := renamedKey workspace.worktreeId fromKey toKey }).erase
              fromKey).lookup key =
              if key = fromKey then none else if key = toKey then some { workspace with
                worktreeId := renamedKey workspace.worktreeId fromKey toKey }
              else edit.model.workspaces.lookup key := by
          intro key
          rw [lookup_erase_eq, lookup_set]
        refine @sound_rekeyed P _ _ hsound (fun key => if key = toKey then fromKey else key)
          (fun key renamed hheld => ?_) fun key key' hkey hkey' hdiffer => ?_
        · dsimp only at hheld
          rw [hstay] at hheld
          by_cases hfrom : key = fromKey
          · rw [if_pos hfrom] at hheld
            cases hheld
          · rw [if_neg hfrom] at hheld
            by_cases hto : key = toKey
            · rw [if_pos hto, Option.some.injEq] at hheld
              rw [if_pos hto, ← hheld]
              exact ⟨workspace, hlookup, rfl, rfl, rfl, rfl, rfl⟩
            · rw [if_neg hto] at hheld
              rw [if_neg hto]
              exact ⟨renamed, hheld, rfl, rfl, rfl, rfl, rfl⟩
        · have hnotFrom : ∀ other, other ∈ (edit.model.workspaces.set toKey { workspace with
              worktreeId := renamedKey workspace.worktreeId fromKey toKey }).erase fromKey →
                other ≠ fromKey := by
            rintro other hother rfl
            rw [← AList.lookup_isSome, hstay, if_pos rfl] at hother
            cases hother
          have hkeyNot := hnotFrom key hkey
          have hkeyNot' := hnotFrom key' hkey'
          by_cases hto : key = toKey
          · rw [if_pos hto, if_neg (fun hto' => hdiffer (hto.trans hto'.symm))]
            exact hkeyNot'.symm
          · rw [if_neg hto]
            by_cases hto' : key' = toKey
            · rw [if_pos hto']
              exact hkeyNot
            · rw [if_neg hto']
              exact hdiffer

/-! ## Exits -/

theorem located {surface : ExitedSurface} {location : TerminalTabLocation P}
    (hfound : locateExitedSurface model surface = .found location) :
    model.workspaces.lookup location.workspaceKey = some location.workspace ∧
      LayoutTab.terminal location.tab ∈ location.workspace.tabs ∧
        surface.leafId ∈ leafIdsOf location.tab := by
  rw [locateExitedSurface] at hfound
  split at hfound
  · cases hfound
  next found hlocated =>
    dsimp only at hfound
    split at hfound
    · cases hfound
    · split at hfound
      · cases hfound
      · cases hfound
        rw [Option.filter_eq_some_iff] at hlocated
        obtain ⟨hterminal, hcontains⟩ := hlocated
        obtain ⟨entry, hentry, hfoundIn⟩ := exists_of_findSome?_eq_some hterminal
        obtain ⟨tab, htab, hlocation⟩ := Option.map_eq_some_iff.mp hfoundIn
        obtain ⟨held, hheld, hasTerminal⟩ := exists_of_findSome?_eq_some htab
        rw [Option.filter_eq_some_iff] at hasTerminal
        subst hlocation
        refine ⟨mem_pairs.mp hentry, ?_, mem_leavesOf_of_contains hcontains⟩
        cases held with
        | terminal terminal =>
          cases hasTerminal.1
          exact hheld
        | content content => cases hasTerminal.1

theorem sound_applyProcessExit
    (hsound : LayoutSound noSpare model.workspaces) (surface : ExitedSurface)
    (facts : ProcessExitFacts) :
    LayoutSound noSpare (applyProcessExit model surface facts).model.workspaces := by
  rw [applyProcessExit]
  cases hlocated : locateExitedSurface model surface with
  | replaced => exact hsound
  | gone =>
    dsimp only
    split
    · exact hsound
    · exact hsound
  | found location =>
    obtain ⟨hlookup, htab, hleaf⟩ := located hlocated
    have hworkspace := hsound.workspace _ _ hlookup
    have hmodel : LayoutSound noSpare ({ model } : LayoutEdit P).model.workspaces := hsound
    have hheld : ({ model } : LayoutEdit P).workspace? location.workspaceKey =
        some location.workspace := hlookup
    dsimp only
    cases exitVerdict facts (leafIdsOf location.tab).length with
    | keep => exact hsound
    | unbind =>
      refine sound_write hmodel (workspaceOrEmpty_of_lookup hheld)
        ⟨sound_setLeaf hworkspace (mem_paneIds htab hleaf) ?_, evolves_setLeaf (Or.inr rfl)⟩
      exact PanesSound.leafOf_single hworkspace.panes surface.leafId
    | retire =>
      exact sound_write hmodel (workspaceOrEmpty_of_lookup hheld)
        (sound_retirePane hworkspace htab hleaf)

/-! ## Transitions -/

/-- A transition that is no start is always safe. -/
def StartFree (model : WorkspaceLayoutModel P) : LayoutTransition → Prop
  | .processStarted workspace paneKey ptyId incarnationId =>
    KeptFree { model } workspace paneKey ptyId incarnationId
  | _ => True

theorem sound_applyLayoutTransition
    (hsound : LayoutSound noSpare model.workspaces) {transition : LayoutTransition}
    (hfree : StartFree model transition) {outcome : LayoutOutcome P}
    (houtcome : applyLayoutTransition model transition = .ok outcome) :
    LayoutSound noSpare outcome.model.workspaces := by
  have hmodel : LayoutSound noSpare ({ model } : LayoutEdit P).model.workspaces := hsound
  have hothers : ∀ {result : Except LayoutRefusalCode (LayoutApplied P)}, Keeps noSpare result →
      (result.bind fun applied => .ok (⟨updateLegacyPersistence model applied.edit [],
        applied.result, applied.effects, applied.outcomes⟩ : LayoutOutcome P)) = .ok outcome →
      LayoutSound noSpare outcome.model.workspaces := by
    intro result hkeeps hresult
    cases hcase : result with
    | error code =>
      rw [hcase] at hresult
      cases hresult
    | ok applied =>
      rw [hcase] at hresult
      rw [← Except.ok.inj hresult]
      exact hkeeps applied hcase
  cases transition with
  | processStarted workspace paneKey ptyId incarnationId =>
    exact hothers (keeps_processStarted hmodel workspace paneKey ptyId incarnationId hfree) houtcome
  | processExited surface exit =>
    rw [← Except.ok.inj houtcome]
    exact sound_applyProcessExit hsound surface exit
  | sshLeaseTerminated ptyIds =>
    exact hothers (keeps_applied (sound_sshLeaseTerminated hmodel ptyIds)) houtcome
  | ownerRemoved workspaces =>
    exact hothers (keeps_applied (sound_removeWorkspaces hmodel workspaces)) houtcome
  | identityRenamed fromKey toKey =>
    refine hothers ?_ houtcome
    rw [applyTransition]
    cases hrenamed : renameWorkspace ({ model } : LayoutEdit P) fromKey toKey with
    | none => exact keeps_refuse _
    | some renamed => exact keeps_applied (sound_renameWorkspace hmodel hrenamed)

def stepTransition (model : WorkspaceLayoutModel P) (transition : LayoutTransition) :
    WorkspaceLayoutModel P :=
  match applyLayoutTransition model transition with
  | .ok outcome => outcome.model
  | .error _ => model

def runTransitions (model : WorkspaceLayoutModel P) (transitions : List LayoutTransition) :
    WorkspaceLayoutModel P :=
  transitions.foldl stepTransition model

/-- Every start of a run is safe where it happens. -/
def StartFreeRun : WorkspaceLayoutModel P → List LayoutTransition → Prop
  | _, [] => True
  | model, transition :: rest =>
    StartFree model transition ∧ StartFreeRun (stepTransition model transition) rest

theorem sound_runTransitions {transitions : List LayoutTransition}
     (hsound : LayoutSound noSpare model.workspaces)
    (hfree : StartFreeRun model transitions) :
    LayoutSound noSpare (runTransitions model transitions).workspaces := by
  induction transitions generalizing model with
  | nil => exact hsound
  | cons transition rest ih =>
    refine ih ?_ hfree.2
    rw [stepTransition]
    cases houtcome : applyLayoutTransition model transition with
    | error code => exact hsound
    | ok outcome => exact sound_applyLayoutTransition hsound hfree.1 houtcome

/-- Runs of transitions keep a sound model, where every start that names no
incarnation, of an id that repeats, finds the terminal free under the one its pane kept. -/
theorem transitions_keep_sound {model : WorkspaceLayoutModel P}
    (hchecked : checkWorkspaceLayoutModelRules [model] = [])
    (hgroups : GroupsDistinct model) (transitions : List LayoutTransition)
    (hfree : StartFreeRun model transitions) :
    Sound (runTransitions model transitions) ∧
      TerminalsApart (runTransitions model transitions).workspaces := by
  have hlayout := sound_runTransitions ((sound_iff model).mpr ⟨hchecked, hgroups⟩) hfree
  exact ⟨sound_of_layout hlayout, hlayout.terminals⟩

/-- A relay terminal is lost and bound again in the place of another. -/
theorem transitions_keep_sound_lease : Sound (runTransitions staleIncarnation
        [.sshLeaseTerminated ["ssh:c@@pty-1"],
          .processStarted "w" "t:p" "ssh:c@@pty-1" (some "j")]) ∧
      TerminalsApart (runTransitions staleIncarnation [.sshLeaseTerminated ["ssh:c@@pty-1"],
          .processStarted "w" "t:p" "ssh:c@@pty-1" (some "j")]).workspaces := by
  refine transitions_keep_sound (by decide +kernel) (fun key workspace hlookup => ?_) _
    ⟨trivial, fun _ _ _ _ _ hnone => (by cases hnone), trivial⟩
  have hmem := mem_values.mpr ⟨key, hlookup⟩
  rcases mem_cons.mp hmem with rfl | hmem
  · exact ⟨nodup_singleton "g", nodup_nil⟩
  · rw [mem_singleton.mp hmem]
    exact ⟨nodup_singleton "g", nodup_nil⟩

/-- A pane whose lease was lost keeps the incarnation; started without one on the
relay id of another pane, it shows that pane's terminal. -/
theorem start_shows_terminal_twice : checkWorkspaceLayoutModelRules [staleIncarnation] = [] ∧
      ¬ checkWorkspaceLayoutModelRules [runTransitions staleIncarnation
        [.processStarted "x" "u:q" "ssh:c@@pty-1" none]] = [] := by
  decide +kernel

/-! ## Commands among transitions -/

inductive LayoutEvent (P : Type) where
  | command (sent : LayoutCommand P × LayoutContext)
  | transition (transition : LayoutTransition)

def stepEvent (runtime : LayoutRuntime P) (model : WorkspaceLayoutModel P) :
    LayoutEvent P → WorkspaceLayoutModel P
  | .command sent => stepCommand runtime model sent
  | .transition transition => stepTransition model transition

def SafeEvent (runtime : LayoutRuntime P) (model : WorkspaceLayoutModel P) :
    LayoutEvent P → Prop
  | .command sent => AdmissibleRun runtime model [sent]
  | .transition transition => StartFreeRun model [transition]

def SafeRun (runtime : LayoutRuntime P) : WorkspaceLayoutModel P → List (LayoutEvent P) → Prop
  | _, [] => True
  | model, event :: rest => SafeEvent runtime model event ∧
      SafeRun runtime (stepEvent runtime model event) rest

/-- However commands and transitions interleave, the layout stays sound and no
terminal is shown in two panes. -/
theorem interleaved_keep_sound (runtime : LayoutRuntime P) {model : WorkspaceLayoutModel P}
    (hchecked : checkWorkspaceLayoutModelRules [model] = []) (hgroups : GroupsDistinct model)
    {events : List (LayoutEvent P)} (hsafe : SafeRun runtime model events) :
    Sound (events.foldl (stepEvent runtime) model) ∧
      TerminalsApart (events.foldl (stepEvent runtime) model).workspaces := by
  suffices hlayout : LayoutSound noSpare (events.foldl (stepEvent runtime) model).workspaces from
    ⟨sound_of_layout hlayout, hlayout.terminals⟩
  have hsound := (sound_iff model).mpr ⟨hchecked, hgroups⟩
  clear hchecked hgroups
  induction events generalizing model with
  | nil => exact hsound
  | cons event rest ih =>
    refine ih hsafe.2 ?_
    cases event with
    | command sent => exact sound_runCommands hsound hsafe.1
    | transition transition => exact sound_runTransitions hsound hsafe.1

/-- A tab of one workspace is closed between the loss of a lease and a start in another. -/
theorem interleaved_keep_sound_lease : Sound ([.transition (.sshLeaseTerminated ["ssh:c@@pty-1"]),
      .command (.closeTabs { workspace := "x", tabIds := ["u"] }, newIds),
      .transition (.processStarted "w" "t:p" "ssh:c@@pty-1" (some "j"))].foldl
        (stepEvent plainRuntime) staleIncarnation) := by
  refine (interleaved_keep_sound plainRuntime ?_ (fun key workspace hlookup => ?_) ?_).1
  · decide +kernel
  · rcases mem_cons.mp (mem_values.mpr ⟨key, hlookup⟩) with rfl | hmem
    · exact ⟨nodup_singleton "g", nodup_nil⟩
    · rw [mem_singleton.mp hmem]
      exact ⟨nodup_singleton "g", nodup_nil⟩
  · exact ⟨⟨trivial, trivial⟩, ⟨fresh_newIds (by decide +kernel), trivial, trivial⟩,
      ⟨fun _ _ _ _ _ hnone => (by cases hnone), trivial⟩, trivial⟩

end Wakii.TransitionsSound
