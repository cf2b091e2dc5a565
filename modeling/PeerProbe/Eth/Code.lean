/-!
# Message codes of eth/63

Codes relative to the offset of the sub-protocol, and their names in log lines.
-/

namespace PeerProbe.Eth.Code

/-- First message on every connection. -/
def status : UInt64 := 0

/-- Announcement of block hashes. -/
def newBlockHashes : UInt64 := 1

/-- Transactions. -/
def transactions : UInt64 := 2

/-- Query for headers. -/
def getBlockHeaders : UInt64 := 3

/-- Answer to a header query. -/
def blockHeaders : UInt64 := 4

/-- Query for bodies. -/
def getBlockBodies : UInt64 := 5

/-- Answer to a body query. -/
def blockBodies : UInt64 := 6

/-- Propagation of a block. -/
def newBlock : UInt64 := 7

/-- The name of a code. -/
def name (code : UInt64) : String :=
  if code = status then "status"
  else if code = newBlockHashes then "new_block_hashes"
  else if code = transactions then "transactions"
  else if code = getBlockHeaders then "get_block_headers"
  else if code = blockHeaders then "block_headers"
  else if code = getBlockBodies then "get_block_bodies"
  else if code = blockBodies then "block_bodies"
  else if code = newBlock then "new_block"
  else "unknown"

end PeerProbe.Eth.Code
