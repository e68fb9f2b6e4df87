import ChatLoad.Net.Peer

/-! What every peer does with bytes: it keeps a buffer for each connection and cuts the frames out. -/

namespace ChatLoad

/-- The unread bytes of all connections, by their numbers. -/
abbrev Buffers := List Bytes

namespace Buffers

/-- Takes in bytes of a connection and hands out the frames that they complete. -/
def hear (buffers : Buffers) (conn : ConnId) (bytes : Bytes) : List Frame × Buffers :=
  let (items, rest) := Item.parse (buffers.getD conn [] ++ bytes)
  let frames := items.filterMap fun
    | .frame frame => some frame
    | .badHeader _ => none
  (frames, buffers.set conn rest)

end Buffers

end ChatLoad
