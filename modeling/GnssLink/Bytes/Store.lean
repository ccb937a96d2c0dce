import GnssLink.Bytes.Basic

/-!
# A byte store of fixed capacity

The payload of a frame is collected, byte by byte, in cells that exist once and for all.  Clearing
the store only sets its length to zero: the cells keep their bytes until they are overwritten, and
storing at an index behind the length brings the cells in between back into view.

## Main definitions

* `Store` — cells and the length of the part in use.
* `Store.store?`, `Store.store`, `Store.clear` — write a cell, empty the store.
* `Store.toBytes` — the part in use.

## Main results

* `Store.length_toBytes` — the part in use has the length of the store.
* `Store.toBytes_store` — a byte that is stored right behind the part in use is appended to it.
-/

namespace GnssLink

/-- A store of `capacity` cells of which the first `length` are in use. -/
structure Store (capacity : Nat) where
  cells : Vector UInt8 capacity
  length : Nat
  length_le : length ≤ capacity

namespace Store

variable {capacity : Nat}

/-- A store with nothing in use. -/
def empty : Store capacity :=
  ⟨Vector.replicate capacity 0, 0, Nat.zero_le _⟩

/-- Nothing is in use any more; the cells keep their bytes. -/
def clear (s : Store capacity) : Store capacity :=
  { s with length := 0, length_le := Nat.zero_le _ }

/-- Write a byte into the cell at an index below the capacity.  The part in use grows to hold it. -/
def store? (s : Store capacity) (index : Nat) (byte : UInt8) : Option (Store capacity) :=
  if h : index < capacity then
    some {
      cells := s.cells.set index byte
      length := max s.length (index + 1)
      length_le := Nat.max_le.2 ⟨s.length_le, h⟩ }
  else
    none

/-- Write a byte where there is a cell for it, and drop it where there is none. -/
def store (s : Store capacity) (index : Nat) (byte : UInt8) : Store capacity :=
  (s.store? index byte).getD s

/-- The bytes in use. -/
def toBytes (s : Store capacity) : Bytes :=
  s.cells.toList.take s.length

@[simp] theorem length_toBytes (s : Store capacity) : s.toBytes.length = s.length := by
  simp [toBytes, s.length_le]

theorem toBytes_store (s : Store capacity) (byte : UInt8) (h : s.length < capacity) :
    (s.store s.length byte).toBytes = s.toBytes ++ [byte] := by
  have hmax : max s.length (s.length + 1) = s.length + 1 := Nat.max_eq_right (Nat.le_succ _)
  have hlen : s.length < s.cells.toList.length := by
    rw [Vector.length_toList]
    exact h
  simp only [store, store?, h, dite_true, Option.getD_some, toBytes, hmax, Vector.toList_set]
  rw [List.take_succ_eq_append_getElem (by rwa [List.length_set]), List.getElem_set_self,
    List.take_set_of_le (Nat.le_refl _)]

@[simp] theorem toBytes_clear (s : Store capacity) : s.clear.toBytes = [] := by
  simp [toBytes, clear]

end Store

end GnssLink
