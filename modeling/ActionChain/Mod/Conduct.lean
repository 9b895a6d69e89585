import ActionChain.Chain.Builtin

/-!
# Behaviours of Mods

What a mod does when an event reaches it and when an action of its name comes
up. A behaviour is an element of a type; the class says what the elements of
that type do, on a bot whose mods all have behaviours of the type. Everything
that runs chains or publishes events works for any such type.

## Main definitions

* `Conduct`: what the behaviours of a type do.
-/

namespace ActionChain

/-- What the behaviours of a type do. Listening may fail with a reason, which
nobody acts on. -/
class Conduct (β : Type) where
  onEvent : β → PlatformEvent → Routine (Bot β) (Except String Unit)
  handle : β → Step → Routine (Bot β) Reply

end ActionChain
