/-!
# Consensus constants

The limits every tapscript execution is held to by default.
-/

namespace Tapscript

/-- The largest number of bytes in one stack item. -/
def maxItemSize : Nat := 520

/-- The combined number of items on both stacks stays below this number. -/
def maxStackElements : Nat := 1000

/-- The largest number of bytes on both stacks together. -/
def maxStackMemory : Nat := maxItemSize * maxStackElements

end Tapscript
