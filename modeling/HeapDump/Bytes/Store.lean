/-
HeapDump/Bytes/Store.lean

Random access to the bytes of a dump, whatever serves them.

The decoder asks a store for short runs of bytes and never for one that crosses
its end.  It does not learn whether the bytes come from one array or are put
together from windows, so a fact about reading dumps is proved once, over stores,
and carried to windows by saying that their store is the one over the bytes of
the source.
-/
import HeapDump.Bytes.Read

namespace HeapDump

/-- A number of bytes, and a way to read a run of them. -/
structure ByteStore where
  size : Nat
  /-- The bytes at a place, by that place and their number. -/
  read : Nat → Nat → Except Error ByteArray

namespace ByteStore

/-- The store that holds exactly `bytes`. -/
def ofBytes (bytes : ByteArray) : ByteStore where
  size := bytes.size
  read start length := (Bytes.readAt bytes start length).map (·.1)

/-- The number of kind `s` at `start`. -/
def readNumber (store : ByteStore) (s : Scalar) (start : Nat) : Except Error s.Carrier :=
  (store.read start s.size).map s.decode

end ByteStore

end HeapDump
