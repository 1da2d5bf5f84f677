import TurboAgent.AgentCompiler.Registry

/-!
# Feeding a plan to the hash

The identity of a plan is the FNV hash of a stream of bytes.  Strings end with a byte that UTF-8
does not use, numbers of the plan have a fixed width, and the fields of JSON objects go in the
order of their keys.  A walk over a JSON value ends early when the hash becomes zero.

Both compilers of the repository have the same helpers.  The text of a number literal is an
argument, as the JSON library keeps it.
-/

namespace TurboAgent.AgentCompiler

/-- The bytes of a number, least significant byte first. -/
def little : Nat → Nat → List UInt8
  | 0, _ => []
  | width + 1, value => UInt8.ofNat value :: little width (value / 256)

def separator : UInt8 := 0xff

def stringBytes (text : String) : List UInt8 :=
  utf8 (ToolSchema.cString text) ++ [separator]

/-- The hash and the bytes that were fed to it. -/
structure Accumulator where
  hash : UInt64
  fed : List UInt8

namespace Accumulator

/-- `DAG_FNV_OFFSET`. -/
def start : Accumulator := ⟨14695981039346656037, []⟩

/-- `dag_hash_bytes`. -/
def bytes (accumulator : Accumulator) (data : List UInt8) : Accumulator where
  hash := data.foldl (fun hash byte => (hash ^^^ byte.toUInt64) * 1099511628211) accumulator.hash
  fed := accumulator.fed ++ data

/-- `dag_hash_u32`. -/
def u32 (accumulator : Accumulator) (value : UInt32) : Accumulator :=
  accumulator.bytes (little 4 value.toNat)

/-- `dag_hash_u64`. -/
def u64 (accumulator : Accumulator) (value : UInt64) : Accumulator :=
  accumulator.bytes (little 8 value.toNat)

/-- `dag_hash_cstring`. -/
def cstring (accumulator : Accumulator) (text : String) : Accumulator :=
  accumulator.bytes (stringBytes text)

end Accumulator

mutual
def sortKeys : Json → Json
  | .array elements => .array (sortElements elements)
  | .object fields => .object ((sortFields fields).insertionSort fun left right =>
      StrLe left.1 right.1)
  | value => value

def sortElements : List Json → List Json
  | [] => []
  | element :: elements => sortKeys element :: sortElements elements

def sortFields : List (String × Json) → List (String × Json)
  | [] => []
  | (key, value) :: fields => (key, sortKeys value) :: sortFields fields
end

section

variable (numberText : Int → Nat → List UInt8)

mutual
/-- `dag_hash_json` on a value whose keys are in order. -/
def hashOrdered (accumulator : Accumulator) : Json → Accumulator
  | .null => accumulator.cstring "null"
  | .bool value => (accumulator.cstring "bool").cstring (if value then "true" else "false")
  | .number mantissa exponent =>
      (accumulator.cstring "number").bytes (numberText mantissa exponent)
  | .string text => (accumulator.cstring "string").cstring text
  | .array elements => hashElements (accumulator.cstring "array") elements
  | .object fields => hashFields (accumulator.cstring "object") fields

def hashElements (accumulator : Accumulator) : List Json → Accumulator
  | [] => accumulator
  | element :: elements =>
      let next := hashOrdered accumulator element
      if next.hash = 0 then next else hashElements next elements

/-- The loop of `dag_hash_json_object`. -/
def hashFields (accumulator : Accumulator) : List (String × Json) → Accumulator
  | [] => accumulator
  | (key, value) :: fields =>
      let next := hashOrdered (accumulator.cstring key) value
      if next.hash = 0 then next else hashFields next fields
end

/-- `dag_hash_json`. -/
def hashJson (accumulator : Accumulator) (value : Json) : Accumulator :=
  hashOrdered numberText accumulator (sortKeys value)

/-- The end of a step in both compilers: its execution metadata. -/
def hashMetadata (accumulator : Accumulator) (metadata : Option Document) : Accumulator :=
  match metadata with
  | some document => hashJson numberText (accumulator.cstring "execution_metadata") document.value
  | none => (accumulator.cstring "execution_metadata").cstring "none"

end

end TurboAgent.AgentCompiler
