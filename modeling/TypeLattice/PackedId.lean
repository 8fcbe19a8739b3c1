/-!
Identifiers packed into 32 bits: a shard in the four highest bits and the place within the shard
in the other twenty-eight.
-/
namespace TypeLattice

structure PackedId where
  bits : UInt32
  deriving DecidableEq, Repr, Hashable

namespace PackedId

/-- The greatest place within a shard, which is also the mask of the low bits. -/
def maxLocal : UInt32 := 0x0FFFFFFF

def ofShardLocal (shard place : UInt32) : PackedId := ⟨(shard <<< 28) ||| place⟩

def shard (id : PackedId) : UInt32 := id.bits >>> 28

def place (id : PackedId) : UInt32 := id.bits &&& maxLocal

def showName (id : PackedId) : String := s!"Name({id.shard.toNat}:{id.place.toNat})"

end PackedId
end TypeLattice
