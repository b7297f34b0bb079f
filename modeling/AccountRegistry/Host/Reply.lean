import AccountRegistry.Fault

/-!
# Replies of a host ledger

What a ledger can say to a request.  Nothing is assumed about it: it may name any address.
-/

namespace AccountRegistry

/-- What a host ledger replies to a request: an address, a returned fault or an escaping one. -/
inductive HostReply where
  | deployed (address : Int)
  | refused (fault : Fault)
  | threw (fault : Fault)
  deriving Inhabited

end AccountRegistry
