import Wakii.Journal.ItemKey

/-!
# Which terminal a pane shows

A terminal is named by its PTY id and, where one was recorded, by the
incarnation that ran it.  Relay ids repeat across relay restarts, so one of them
without an incarnation proves nothing.
-/

namespace Wakii.TerminalOwners

open Wakii.ItemKey Wakii.OwnedEditorFile

/-! ## Execution hosts -/

inductive ExecutionHostKind where
  | localHost | ssh | runtime
deriving DecidableEq

def afterStart (start text : String) : Option String :=
  if start.toList.isPrefixOf text.toList then
    some (String.ofList (text.toList.drop start.toList.length))
  else none

/-- The part after a host's scheme: an unencoded `|` would name another host. -/
def readHostPart (encoded : String) : Option String :=
  if encoded = "" || encoded.toList.contains '|' then none
  else (decodeURIComponent encoded).filter (· ≠ "")

def executionHostKind (value : String) : Option ExecutionHostKind :=
  let normalized := trim value
  if normalized = "" then none
  else if normalized = "local" then some .localHost
  else
    match afterStart "ssh:" normalized with
    | some encoded => (readHostPart encoded).map fun _ => .ssh
    | none =>
      match afterStart "runtime:" normalized with
      | some encoded => (readHostPart encoded).map fun _ => .runtime
      | none => none

def isTerminalOwnerPartition (hostId : String) : Bool :=
  executionHostKind hostId = some .localHost || executionHostKind hostId = some .ssh

/-! ## PTY ids -/

def splitAtSeparator : List Char → Option (List Char × List Char)
  | '@' :: '@' :: rest => some ([], rest)
  | first :: rest =>
    (splitAtSeparator rest).map fun parts => (first :: parts.1, parts.2)
  | [] => none

structure ParsedSshPtyId where
  connectionId : String
  relayPtyId : String
deriving DecidableEq

def parseAppSshPtyId (ptyId : String) : Option ParsedSshPtyId := do
  let rest ← afterStart "ssh:" ptyId
  let (encodedConnectionId, relayPtyId) ← splitAtSeparator rest.toList
  if encodedConnectionId.isEmpty || relayPtyId.isEmpty then none
  else
    let connectionId ← decodeURIComponent (String.ofList encodedConnectionId)
    return ⟨connectionId, String.ofList relayPtyId⟩

def isRepeatingRelayPtyId (ptyId : String) : Bool :=
  match (parseAppSshPtyId ptyId).bind fun parsed => afterStart "pty-" parsed.relayPtyId with
  | none => false
  | some digits => digits ≠ "" && digits.toList.all Char.isDigit

/-! ## Terminals -/

structure TerminalBinding where
  ptyId : Option String
  incarnationId : Option String
deriving DecidableEq

def unbound : TerminalBinding := ⟨none, none⟩

/-- Incarnations identify terminals; without one, only an id that does not
repeat does. -/
def isSameTerminal (left right : TerminalBinding) : Bool :=
  match left.ptyId with
  | none => false
  | some ptyId =>
    right.ptyId = some ptyId &&
      match left.incarnationId, right.incarnationId with
      | some leftIncarnation, some rightIncarnation => leftIncarnation = rightIncarnation
      | _, _ => !isRepeatingRelayPtyId ptyId

theorem isSameTerminal_comm (left right : TerminalBinding) :
    isSameTerminal left right = isSameTerminal right left := by
  obtain ⟨leftPty, leftIncarnation⟩ := left
  obtain ⟨rightPty, rightIncarnation⟩ := right
  cases leftPty with
  | none => cases rightPty <;> simp [isSameTerminal]
  | some ptyId =>
    cases rightPty with
    | none => simp [isSameTerminal]
    | some other =>
      by_cases hptyId : ptyId = other
      · subst hptyId
        cases leftIncarnation <;> cases rightIncarnation <;>
          simp [isSameTerminal, eq_comm]
      · simp [isSameTerminal, hptyId, Ne.symm hptyId]

@[simp]
theorem isSameTerminal_unbound_left {left : TerminalBinding} (hleft : left.ptyId = none)
    (right : TerminalBinding) : isSameTerminal left right = false := by
  simp [isSameTerminal, hleft]

@[simp]
theorem isSameTerminal_unbound_right {right : TerminalBinding} (hright : right.ptyId = none)
    (left : TerminalBinding) : isSameTerminal left right = false := by
  rw [isSameTerminal_comm, isSameTerminal_unbound_left hright]

end Wakii.TerminalOwners
