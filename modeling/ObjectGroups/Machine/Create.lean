/-
A runtime: a machine whose registry follows a configuration that has been
found valid.
-/
import ObjectGroups.Config
import ObjectGroups.Machine.Run

namespace ObjectGroups

variable {S A V : Type}

/-- A new runtime without cogs, unless the configuration is not valid. -/
def Machine.create (c : RuntimeConfig) (memory : A) : Except RuntimeError (Machine S A V) :=
  match c.validate with
  | .ok () => .ok (.empty (.create c.threads.namePrefix c.threads.stackSize) memory)
  | .error e => .error (.config e)

end ObjectGroups
