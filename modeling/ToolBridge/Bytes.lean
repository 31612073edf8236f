/-! Raw octets, and cutting them at a marker. -/

namespace ToolBridge

abbrev Bytes := List UInt8

namespace Bytes

/-- What stands before the first occurrence of `marker` and what follows it. -/
def cutAt (marker : Bytes) (bytes : Bytes) : Option (Bytes × Bytes) :=
  go [] bytes
where
  go (before : Bytes) : Bytes → Option (Bytes × Bytes)
    | [] => if marker.isEmpty then some (before.reverse, []) else none
    | b :: rest =>
      if marker.isPrefixOf (b :: rest) then some (before.reverse, (b :: rest).drop marker.length)
      else go (b :: before) rest

end Bytes

end ToolBridge
