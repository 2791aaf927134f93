/-!
# The version of the format and its library
-/

namespace DeltaPack

/-- The version of the library. -/
def version : String := "0.1.0"

end DeltaPack
