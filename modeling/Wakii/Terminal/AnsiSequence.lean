import Wakii.Library.Utf16

/-!
# Escape sequences in terminal output

A sequence is read from the text after its escape, and what follows it is
handed on.
-/

namespace Wakii.Terminal

def BACKSPACE : CodeUnit := 0x08
def TAB : CodeUnit := 0x09
def NEWLINE : CodeUnit := 0x0a
def CARRIAGE_RETURN : CodeUnit := 0x0d
def ESCAPE : CodeUnit := 0x1b
def SPACE : CodeUnit := 0x20

inductive TerminalEscapeIntroducer
  | csi
  | osc
  | string
  | intermediate
  | execute
  | final
  deriving DecidableEq

/-- Classifies the unit after the escape; at the end of the input it counts as a final one. -/
def classifyTerminalEscapeIntroducer : Option CodeUnit → TerminalEscapeIntroducer
  | none => .final
  | some code =>
    if code.val = 0x5b then .csi
    else if code.val = 0x5d then .osc
    else if code.val = 0x50 ∨ code.val = 0x58 ∨ code.val = 0x5e ∨ code.val = 0x5f then .string
    else if 0x20 ≤ code.val ∧ code.val ≤ 0x2f then .intermediate
    else if code.val < 0x20 ∨ code.val = 0x7f then .execute
    else .final

def isCsiFinal (code : CodeUnit) : Bool := 0x40 ≤ code.val && code.val ≤ 0x7e

def findStringEnd (isOsc : Bool) : Text → Option ℕ
  | [] => none
  | code :: rest =>
    if code.val = 0x07 ∧ isOsc then some 0
    else if code = ESCAPE ∧ rest.head? = some 0x5c then some 1
    else (findStringEnd isOsc rest).map (· + 1)

/-- How far behind the escape the last unit of the sequence stands, if the input holds it. -/
def findTerminalEscapeSequenceEnd (afterEscape : Text) : Option ℕ :=
  match classifyTerminalEscapeIntroducer afterEscape.head? with
  | .csi => ((afterEscape.drop 1).findIdx? isCsiFinal).map (· + 2)
  | .osc => (findStringEnd true (afterEscape.drop 1)).map (· + 2)
  | .string => (findStringEnd false (afterEscape.drop 1)).map (· + 2)
  | .intermediate => some 1
  | .execute => some 1
  | .final => some 1

def isDigit (code : CodeUnit) : Bool := 0x30 ≤ code.val && code.val ≤ 0x39

def numberOf (digits : Text) : ℕ :=
  digits.foldl (fun value digit => 10 * value + (digit.val - 0x30)) 0

def leadingNumber (params : Text) : Option ℕ :=
  let digits := params.takeWhile isDigit
  if digits.isEmpty then none else some (numberOf digits)

inductive AnsiControlSequence
  | csi (final : CodeUnit) (params : Text) (firstParam : Option ℕ)
  | other
  deriving DecidableEq

def parseAnsiControlSequence (afterEscape : Text) : Option (AnsiControlSequence × Text) :=
  match findTerminalEscapeSequenceEnd afterEscape with
  | none => none
  | some offset =>
    let rest := afterEscape.drop offset
    match classifyTerminalEscapeIntroducer afterEscape.head? with
    | .csi =>
      let params := (afterEscape.drop 1).take (offset - 2)
      let final := (afterEscape[offset - 1]?).getD 0
      some (.csi final params (leadingNumber params), rest)
    | _ => some (.other, rest)

def isNumericCsiParam (code : CodeUnit) : Bool := isDigit code || code.val == 0x3b

def hasCanonicalNumericCsiParams (params : Text) : Bool := params.all isNumericCsiParam

/-- Whether the text moves the cursor up; a sequence that is cut off ends the search. -/
def containsVerticalFrom : ℕ → Text → Bool
  | 0, _ => false
  | _, [] => false
  | fuel + 1, code :: rest =>
    if code = ESCAPE then
      match parseAnsiControlSequence rest with
      | none => false
      | some (.csi final params _, after) =>
        (final.val == 0x41 && hasCanonicalNumericCsiParams params) ||
          containsVerticalFrom fuel after
      | some (.other, after) => containsVerticalFrom fuel after
    else containsVerticalFrom fuel rest

def containsTerminalVerticalLineControl (value : Text) : Bool :=
  containsVerticalFrom value.length value

end Wakii.Terminal
