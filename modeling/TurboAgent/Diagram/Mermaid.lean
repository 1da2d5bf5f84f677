import TurboAgent.Diagram.Selection

/-!
# Mermaid text

A view is rendered as a flowchart, one line for each node and each edge.  Labels are written
character by character, with decimal entities for the characters that Mermaid or HTML would
read.
-/

namespace TurboAgent.Diagram

section Rendering

variable (library : Library)

/-- `append`. -/
def append (out text : List Char) : Except Error (List Char) :=
  if maxOutputBytes - out.length < text.length then .error .enospc else .ok (out ++ text)

def entities : List (Nat × String) := [(34, "#34;"), (35, "#35;"), (38, "#38;"), (60, "#60;"),
  (62, "#62;"), (96, "#96;"), (92, "#92;"), (91, "#91;"), (93, "#93;"), (124, "#124;"),
  (123, "#123;"), (125, "#125;")]

/-- The `switch` of `label_append`. -/
def escapeChar (ch : Char) : List Char :=
  match entities.lookup ch.toNat with
  | some entity => entity.toList
  | none => if ch = '\n' ∨ ch = '\r' ∨ ch = '\t' then [' '] else [ch]

/-- `label_append`. -/
def labelAppend (out label : List Char) : Except Error (List Char) :=
  label.foldlM (fun out ch => append out (escapeChar ch)) out

def title (view : Json) : String :=
  let focused := (view.field "selection").isSome
  if field library (some view) "kind" false = some "plan" then
    if focused then "  subgraph diagram[\"Planned dependencies (focused) - not execution\"]"
    else "  subgraph diagram[\"Planned dependencies - not execution\"]"
  else if field library (some view) "kind" false = some "knowledge" then
    if focused then
      "  subgraph diagram[\"Indexed knowledge (focused) - source freshness unverified\"]"
    else "  subgraph diagram[\"Indexed knowledge - source freshness unverified\"]"
  else if field library (some view) "record_scope" false = some "published_and_current" then
    if focused then
      "  subgraph diagram[\"Published execution and current journal observations (focused) " ++
        "- not a step trace\"]"
    else
      "  subgraph diagram[\"Published execution and current journal observations " ++
        "- not a step trace\"]"
  else
    if focused then
      "  subgraph diagram[\"Published execution records (focused) - not a step trace\"]"
    else "  subgraph diagram[\"Published execution records - not a step trace\"]"

def focusComment : String :=
  "    %% Focused view; consult JSON selection for scope and omitted records."

def pathComment : String :=
  "    %% One minimum-hop path; original edge directions retained; not a causality claim."

def appendComments (view : Json) (out : List Char) : Except Error (List Char) :=
  match view.field "selection" with
  | none => .ok out
  | some selection => do
      let out ← append out (focusComment ++ "\n").toList
      if field library (some selection) "mode" false = some "shortest_path" then
        append out (pathComment ++ "\n").toList
      else .ok out

def appendNode (out : List Char) (entry : Json × Nat) : Except Error (List Char) := do
  let out ← append out ("    n".toList ++ Nat.toDigits 10 entry.2 ++ "[\"".toList)
  let out ← labelAppend out ((field library (some entry.1) "label" false).getD "").toList
  append out "\"]\n".toList

def edgeLabel (edge : Json) : String :=
  let label := (field library (some edge) "label" true).getD ""
  if label = "" then "related" else label

def appendEdge (nodes : List Json) (out : List Char) (edge : Json) :
    Except Error (List Char) := do
  let out ← append out ("    n".toList ++ Nat.toDigits 10 (endOf library nodes edge "from") ++
    " -->|\"".toList)
  let out ← labelAppend out (edgeLabel library edge).toList
  append out ("\"| n".toList ++ Nat.toDigits 10 (endOf library nodes edge "to") ++ ['\n'])

/-- `turbo_diagram_mermaid`. -/
def mermaid (view : Json) : Except Error (List Char) := do
  graphValidate library view
  let out ← appendComments library view ("flowchart TD\n" ++ title library view ++ "\n").toList
  let out ← (nodesOf view).zipIdx.foldlM (appendNode library) out
  let out ← (edgesOf view).foldlM (appendEdge library (nodesOf view)) out
  append out "  end\n".toList

end Rendering

/-! ## Reading back -/

inductive Entry where
  | node (index : Nat) (label : List Char)
  | edge (source target : Nat) (label : List Char)
  deriving DecidableEq

/-- Text with its decimal entities replaced; the number is that of the entity that is being
read. -/
def decode : (number : Option Nat) → List Char → List Char
  | _, [] => []
  | none, ch :: text => if ch = '#' then decode (some 0) text else ch :: decode none text
  | some number, ch :: text =>
      if ch = ';' then Char.ofNat number :: decode none text
      else decode (some (number * 10 + (ch.toNat - 48))) text

def afterStart (start line : List Char) : Option (List Char) :=
  if start <+: line then some (line.drop start.length) else none

/-- The number that a text begins with, and the rest. -/
def readIndex (text : List Char) : Nat × List Char :=
  (Nat.ofDigitChars 10 (text.takeWhile Char.isDigit) 0, text.dropWhile Char.isDigit)

def notQuote (ch : Char) : Bool := ch.toNat != 34

def readLine (line : List Char) : Option Entry := do
  let (index, rest) := readIndex (← afterStart "    n".toList line)
  match afterStart "[\"".toList rest with
  | some text => some (.node index (decode none (text.takeWhile notQuote)))
  | none => do
      let text ← afterStart " -->|\"".toList rest
      let last ← afterStart "\"| n".toList (text.dropWhile notQuote)
      some (.edge index (readIndex last).1 (decode none (text.takeWhile notQuote)))

def readBack (text : List Char) : List Entry :=
  (text.splitOn '\n').filterMap readLine

end TurboAgent.Diagram
