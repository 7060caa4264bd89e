import Tapscript.Consensus
import Tapscript.Opcode

/-!
# The catalogue

The version of the library, and the names and constants it publishes.
-/

namespace Tapscript.Catalogue

def versionParts : List Nat := [0, 1]

def version : String := ".".intercalate (versionParts.map toString)

/-- The published constants, with their names. -/
def constants : List (String × Nat) :=
  [("MAX_SCRIPT_ELEMENT_SIZE", maxItemSize), ("MAX_STACK_ELEMENTS", maxStackElements),
    ("MAX_STACK_MEMORY_USAGE", maxStackMemory)]

/-- Every published name, in the order of publication. -/
def names : List String :=
  ["ByteBuffer"] ++ constants.map (·.1) ++ ErrorKind.all.map ErrorKind.name ++
    ["Opcode", "InterpreterLimits", "InterpreterState", "ExecutionResult", "evaluate",
      "verify_script", "cast_to_bool", "is_stack_truthy"] ++
    Opcode.names.map (·.1) ++ ["BoundedStack"]

/-- Whether a name is published. -/
def publishes (name : String) : Bool := names.contains name

end Tapscript.Catalogue
