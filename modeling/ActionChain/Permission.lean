import ActionChain.Chain.Action
import ActionChain.Text.Case

/-!
# Permissions

A command names the roles that may run it; one that names none is open to
everyone. Otherwise a single role in common is enough, compared without
regard to case.

## Main definitions

* `authorize`: whether somebody with some roles may run a command.
-/

namespace ActionChain

/-- Whether somebody with some roles may run a command. -/
def authorize (c : Command) (roles : List String) : Bool :=
  c.perms.isEmpty ||
    roles.any fun role => c.perms.any fun perm => Text.lowercase perm == Text.lowercase role

end ActionChain
