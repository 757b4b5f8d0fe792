import ChatClient.Ident
import ChatClient.Lookup

/-!
# Something for every room

A table gives every room a list, the empty one unless something was stored for it. So asking for a
room that was never seen is the same as asking for one that has nothing.

## Main definitions

* `RoomTable.get`, `RoomTable.set`

## Main results

* `RoomTable.get_set_self`, `RoomTable.get_set_of_ne`: what is stored for a room is found there and
  nowhere else
-/

namespace ChatClient

/-- A list for every room. -/
structure RoomTable (α : Type) where
  rows : List (RoomId × List α) := []

namespace RoomTable

variable {α : Type}

def empty : RoomTable α := {}

/-- What is stored for the room. -/
def get (t : RoomTable α) (room : RoomId) : List α :=
  (t.rows.lookup room).getD []

/-- The table with another list for the room. -/
def set (t : RoomTable α) (room : RoomId) (items : List α) : RoomTable α :=
  ⟨assign t.rows room items⟩

/-- The table with the list of the room changed by `f`. -/
def update (t : RoomTable α) (room : RoomId) (f : List α → List α) : RoomTable α :=
  t.set room (f (t.get room))

@[simp] theorem get_empty (room : RoomId) : (empty : RoomTable α).get room = [] := rfl

@[simp] theorem get_set_self (t : RoomTable α) (room : RoomId) (items : List α) :
    (t.set room items).get room = items := by
  simp [get, set]

@[simp] theorem get_set_of_ne (t : RoomTable α) {room other : RoomId} (h : other ≠ room)
    (items : List α) : (t.set room items).get other = t.get other := by
  simp [get, set, lookup_assign_of_ne t.rows h]

@[simp] theorem get_update_self (t : RoomTable α) (room : RoomId) (f : List α → List α) :
    (t.update room f).get room = f (t.get room) := by
  simp [update]

@[simp] theorem get_update_of_ne (t : RoomTable α) {room other : RoomId} (h : other ≠ room)
    (f : List α → List α) : (t.update room f).get other = t.get other := by
  simp [update, h]

end RoomTable

end ChatClient
