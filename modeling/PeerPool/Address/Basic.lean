/-! Addresses of the Internet Protocol, of either version. -/

namespace PeerPool

inductive Address where
  | v4 (a b c d : UInt8)
  | v6 (groups : Vector UInt16 8)
deriving DecidableEq, Repr

end PeerPool
