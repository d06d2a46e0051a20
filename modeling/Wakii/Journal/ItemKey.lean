import Wakii.Journal.JournalItemKeys
import Wakii.Layout.OwnedEditorFile

/-!
# Journal item keys

The keys of the journal's items.  Strings here have no lone surrogates.
-/

namespace Wakii.ItemKey

inductive AgentJournalItemIdentity where
  | codex (threadId turnId : String) (ordinal : ℕ)
  | claude (sessionId uuid : String)
  | orca (clientMessageId : String)
  | legacy (agent sessionId recordId : String)
deriving DecidableEq

def decodeURIComponent (text : String) : Option String :=
  (UriComponent.decodeURIComponent (Text.ofString text)).map Text.asString

def AgentJournalItemIdentity.toTexts :
    AgentJournalItemIdentity → JournalItemKeys.AgentJournalItemIdentity
  | .codex threadId turnId ordinal =>
    .codex (Text.ofString threadId) (Text.ofString turnId) ordinal
  | .claude sessionId uuid => .claude (Text.ofString sessionId) (Text.ofString uuid)
  | .orca clientMessageId => .orca (Text.ofString clientMessageId)
  | .legacy agent sessionId recordId =>
    .legacy (Text.ofString agent) (Text.ofString sessionId) (Text.ofString recordId)

def agentJournalItemKey (identity : AgentJournalItemIdentity) : String :=
  ((JournalItemKeys.agentJournalItemKey ⟨identity.toTexts, none⟩).getD []).asString

def agentJournalSubmissionKey (clientMessageId : String) : String :=
  agentJournalItemKey (.orca clientMessageId)

/-- The turn a conversation command reports in, keyed by its submission. -/
def structuredAgentSessionCommandTurnIdentity (clientMessageId : String) :
    AgentJournalItemIdentity :=
  .orca ("command-turn:" ++ clientMessageId)

/-- Recovers the identity from a key.  `safeOrdinal text` is `Number(text)` where
that is a non-negative safe integer. -/
def parseAgentJournalItemKey (safeOrdinal : String → Option ℕ) (key : String) :
    Option AgentJournalItemIdentity := do
  let parts ← ((Text.ofString key).splitOn JournalItemKeys.keyDelimiter).mapM
    JournalItemKeys.decodePart
  match parts.map fun part => part.1.asString with
  | ["codex", threadId, turnId, ordinal] =>
    return .codex threadId turnId (← safeOrdinal ordinal)
  | ["claude", sessionId, uuid] => return .claude sessionId uuid
  | ["orca", clientMessageId] => return .orca clientMessageId
  | ["legacy", agent, sessionId, recordId] => return .legacy agent sessionId recordId
  | _ => none

example : parseAgentJournalItemKey (fun _ => none)
    (agentJournalItemKey (structuredAgentSessionCommandTurnIdentity "a:é")) =
      some (structuredAgentSessionCommandTurnIdentity "a:é") := by decide +kernel

end Wakii.ItemKey
