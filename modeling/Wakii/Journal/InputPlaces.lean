import Mathlib.Data.Int.ConditionallyCompleteOrder
import Wakii.Journal.JournalRows
import Wakii.Library.AvlTree
import Wakii.Library.OrderedMap

/-!
# The index of input places

The coordinates of the current cards and inputs, in one search tree for each
epoch and one for all of them.  Each subtree keeps what the queries ask of its
entries together.
-/

namespace Wakii.InputPlaces

open Wakii.JournalRows OrderedCollections SearchTrees Std

variable {P : Type}

structure InputMaximum where
  id : String
  value : ℤ
  tie : ℤ
deriving DecidableEq

/-- What a group of places holds first of each kind, and its latest position. -/
structure InputPlaceQuery (P : Type) where
  head : Option (QueuedMessageRow P)
  command : Option (QueuedMessageRow P)
  waiting : Option (QueuedMessageRow P)
  handoff : Option (QueuedMessageRow P)
  position : WithBot ℤ
  maximum : Option InputMaximum
deriving DecidableEq

structure Entry (P : Type) where
  id : String
  sequence : ℤ
  domain : Option String
  tie : Option ℤ
  head : Option (QueuedMessageRow P)
  command : Option (QueuedMessageRow P)
  waiting : Option (QueuedMessageRow P)
  handoff : Option (QueuedMessageRow P)
  position : ℤ
  maximum : Option InputMaximum
deriving DecidableEq

def Entry.toQuery (entry : Entry P) : InputPlaceQuery P :=
  { head := entry.head, command := entry.command, waiting := entry.waiting,
    handoff := entry.handoff, position := entry.position, maximum := entry.maximum }

def empty : InputPlaceQuery P :=
  { head := none, command := none, waiting := none, handoff := none, position := ⊥,
    maximum := none }

def first : Option (QueuedMessageRow P) → Option (QueuedMessageRow P) → Option (QueuedMessageRow P)
  | none, other => other
  | some card, none => some card
  | some card, some other => if other.position < card.position then some other else some card

def greater : Option InputMaximum → Option InputMaximum → Option InputMaximum
  | none, other => other
  | some held, none => some held
  | some held, some other =>
    if other.value > held.value || other.value = held.value && other.tie > held.tie then
      some other
    else some held

def mergeInputPlaces (places others : InputPlaceQuery P) : InputPlaceQuery P where
  head := first places.head others.head
  command := first places.command others.command
  waiting := first places.waiting others.waiting
  handoff := first places.handoff others.handoff
  position := max places.position others.position
  maximum := greater places.maximum others.maximum

@[simp]
theorem first_none (card : Option (QueuedMessageRow P)) : first card none = card := by
  cases card <;> rfl

theorem first_assoc (one two three : Option (QueuedMessageRow P)) :
    first (first one two) three = first one (first two three) := by
  cases one with
  | none => rfl
  | some one =>
    cases two with
    | none => rw [first_none]; rfl
    | some two =>
      cases three with
      | none => rw [first_none, first_none]
      | some three => grind [first]

@[simp]
theorem greater_none (held : Option InputMaximum) : greater held none = held := by
  cases held <;> rfl

theorem greater_assoc (one two three : Option InputMaximum) :
    greater (greater one two) three = greater one (greater two three) := by
  cases one with
  | none => rfl
  | some one =>
    cases two with
    | none => rw [greater_none]; rfl
    | some two =>
      cases three with
      | none => rw [greater_none, greater_none]
      | some three => grind [greater]

/-- Merging is associative, and the query of no places changes nothing. -/
instance : Monoid (InputPlaceQuery P) where
  mul := mergeInputPlaces
  one := empty
  mul_assoc one two three := by
    change mergeInputPlaces (mergeInputPlaces one two) three =
      mergeInputPlaces one (mergeInputPlaces two three)
    simp only [mergeInputPlaces, first_assoc, greater_assoc, max_assoc]
  one_mul places := by
    change mergeInputPlaces empty places = places
    simp only [mergeInputPlaces, empty, first, greater, bot_sup_eq]
  mul_one places := by
    change mergeInputPlaces places empty = places
    simp only [mergeInputPlaces, empty, first_none, greater_none, sup_bot_eq]

/-- A subtree with the merged places of its entries. -/
abbrev Node (P : Type) := AvlTree (Entry P) (InputPlaceQuery P)

section Index

-- How the host's language orders two ids.
variable (localeCompare : String → String → Ordering)

def compare : Entry P → Entry P → Ordering :=
  compareLex (compareOn Entry.sequence)
    (compareLex (compareOn fun entry => entry.tie.getD 0)
      fun entry other => localeCompare entry.id other.id)

/-- Copies the nodes of one path: the trees that share the others keep theirs. -/
def put (node : Node P) (entry : Entry P) (remove : Bool) : Node P :=
  AvlTree.put Entry.toQuery (compare localeCompare) node entry remove

structure JournalInputPlaceIndex (P : Type) where
  epochs : OrderedMap String (Node P) := ∅
  all : Node P := .nil
  undomained : ℤ := 0
  entries : OrderedMap String (Entry P) := ∅

namespace JournalInputPlaceIndex

/-- While there is one epoch and nothing outside it, its tree is the tree of all. -/
def change (index : JournalInputPlaceIndex P) (entry : Entry P) (remove : Bool) :
    JournalInputPlaceIndex P :=
  match entry.domain with
  | some epoch =>
    let root := put localeCompare ((index.epochs.lookup epoch).getD .nil) entry remove
    let epochs :=
      if root.isNil then index.epochs.erase epoch else index.epochs.set epoch root
    if !root.isNil && epochs.keys.length = 1 && index.undomained = 0 then
      { index with epochs, all := root }
    else { index with epochs, all := put localeCompare index.all entry remove }
  | none =>
    { index with
      undomained := index.undomained + if remove then -1 else 1
      all := put localeCompare index.all entry remove }

def delete (index : JournalInputPlaceIndex P) (id : String) : JournalInputPlaceIndex P :=
  match index.entries.lookup id with
  | none => index
  | some prior =>
    let index := index.change localeCompare prior true
    { index with entries := index.entries.erase id }

def record (index : JournalInputPlaceIndex P) (id : String) (entry : Entry P) :
    JournalInputPlaceIndex P :=
  { index with entries := index.entries.set id entry }.change localeCompare entry false

def cardEntry (card : QueuedMessageRow P) (actionable handoff : Bool)
    (coordinate : Option AgentJournalCursor) : Entry P where
  id := card.messageId
  sequence := (coordinate.map AgentJournalCursor.sequence).getD 0
  domain := some ((coordinate.map AgentJournalCursor.epoch).getD "")
  tie := none
  position := card.position
  head :=
    if card.state = .waiting && card.holdReason = none || card.state = .returned then some card
    else none
  waiting := if actionable then some card else none
  command := if actionable && card.body.command.isSome then some card else none
  handoff := if handoff then some card else none
  maximum := none

def set (index : JournalInputPlaceIndex P) (card : QueuedMessageRow P) (actionable handoff : Bool)
    (coordinate : Option AgentJournalCursor := card.queuedAt) : JournalInputPlaceIndex P :=
  let index := index.delete localeCompare card.messageId
  if card.state = .withdrawn then index
  else
    index.record localeCompare card.messageId (cardEntry card actionable handoff coordinate)

def positionEntry (id : String) (position tie : ℤ) (coordinate : Option AgentJournalCursor) :
    Entry P where
  id
  sequence := (coordinate.map AgentJournalCursor.sequence).getD position
  domain := coordinate.map AgentJournalCursor.epoch
  tie := some tie
  position
  head := none
  command := none
  waiting := none
  handoff := none
  maximum := none

def standsAt (entry prior : Entry P) : Bool :=
  prior.position = entry.position && prior.sequence = entry.sequence &&
    prior.domain = entry.domain && prior.tie.getD 0 = entry.tie.getD 0

def setPosition (index : JournalInputPlaceIndex P) (id : String) (position : ℤ)
    (tie : ℤ := 0) (coordinate : Option AgentJournalCursor := none) :
    JournalInputPlaceIndex P :=
  let entry := positionEntry id position tie coordinate
  if (index.entries.lookup id).any (standsAt entry) then index
  else (index.delete localeCompare id).record localeCompare id entry

def summaryEntry (id : String) (sequence value tie : ℤ) : Entry P where
  id
  sequence
  domain := none
  position := value
  tie := some tie
  head := none
  command := none
  waiting := none
  handoff := none
  maximum := some { id, value, tie }

def summarizes (sequence value tie : ℤ) (prior : Entry P) : Bool :=
  prior.sequence = sequence && prior.maximum.map InputMaximum.value = some value &&
    prior.tie = some tie

def setSummary (index : JournalInputPlaceIndex P) (id : String) (sequence value tie : ℤ) :
    JournalInputPlaceIndex P :=
  if (index.entries.lookup id).any (summarizes sequence value tie) then index
  else
    (index.delete localeCompare id).record localeCompare id
      (summaryEntry id sequence value tie)

def isEmpty (index : JournalInputPlaceIndex P) : Bool :=
  index.entries.keys.length = 0

/-- What stands in an epoch before a sequence, by default in all of it. -/
def query (index : JournalInputPlaceIndex P) (epoch : String) (sequence : WithTop ℤ := ⊤) :
    InputPlaceQuery P :=
  ((index.epochs.lookup epoch).getD .nil).totalLow Entry.toQuery
    fun entry => @decide ((entry.sequence : WithTop ℤ) < sequence)
      (@WithTop.decidableLT ℤ _ (fun left right => Int.decLt left right) _ _)

def maximumAfter (index : JournalInputPlaceIndex P) (sequence : ℤ) : Option String :=
  (index.all.totalHigh Entry.toQuery fun entry => entry.sequence ≤ sequence).maximum.map
    InputMaximum.id

def lastId (index : JournalInputPlaceIndex P) : Option String :=
  index.all.last.map Entry.id

def successorId (index : JournalInputPlaceIndex P) (sequence : ℤ) : Option String :=
  (index.all.firstHigh (fun entry => entry.sequence ≤ sequence) none).map Entry.id

def idsAfter (index : JournalInputPlaceIndex P) (sequence : ℤ) : List String :=
  (index.all.listHigh fun entry => entry.sequence ≤ sequence).map Entry.id

def firstPosition (index : JournalInputPlaceIndex P) : WithTop ℤ :=
  match index.all.first with
  | none => ⊤
  | some entry => entry.position

def allPlaces (index : JournalInputPlaceIndex P) : InputPlaceQuery P :=
  index.all.result

inductive Call (P : Type) where
  | set (card : QueuedMessageRow P) (actionable handoff : Bool)
      (coordinate : Option AgentJournalCursor)
  | setPosition (id : String) (position tie : ℤ) (coordinate : Option AgentJournalCursor)
  | setSummary (id : String) (sequence value tie : ℤ)
  | delete (id : String)

def apply (index : JournalInputPlaceIndex P) : Call P → JournalInputPlaceIndex P
  | .set card actionable handoff coordinate =>
    index.set localeCompare card actionable handoff coordinate
  | .setPosition id position tie coordinate =>
    index.setPosition localeCompare id position tie coordinate
  | .setSummary id sequence value tie => index.setSummary localeCompare id sequence value tie
  | .delete id => index.delete localeCompare id

def after (calls : List (Call P)) : JournalInputPlaceIndex P :=
  calls.foldl (apply localeCompare) {}

end JournalInputPlaceIndex

end Index

end Wakii.InputPlaces
