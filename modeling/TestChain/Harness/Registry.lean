import TestChain.Harness.Error
import TestChain.Params

/-!
# The registry of parameters

A `Registry` knows the parameters of modules, in the order in which they were registered. A module
is registered once.
-/

namespace TestChain

/-- The parameters of modules. -/
structure Registry where
  /-- The modules and their parameters, in order. -/
  entries : Members ParamSet
  /-- No module comes twice. -/
  nodup : entries.names.Nodup

namespace Registry

/-- The registry without modules. -/
def empty : Registry := ⟨[], List.nodup_nil⟩

/-- The parameters of a module. -/
def get? (r : Registry) (name : String) : Option ParamSet :=
  r.entries.lookup name

/-- Whether a module is registered. -/
def contains (r : Registry) (name : String) : Bool :=
  (r.get? name).isSome

/-- The names of the modules, in order. -/
def modules (r : Registry) : List String :=
  r.entries.names

/-- The number of modules. -/
def size (r : Registry) : Nat :=
  r.entries.length

/-- Whether there are no modules. -/
def isEmpty (r : Registry) : Bool :=
  r.entries.isEmpty

/-- The registry with the parameters of a new module at the end. -/
def register (r : Registry) (s : ParamSet) : Except HarnessError Registry :=
  if r.contains s.moduleName then .error (.duplicateParamSet s.moduleName)
  else .ok ⟨Members.put s.moduleName s r.entries, Members.nodup_put r.nodup⟩

end Registry

end TestChain
