import JobBroker.Credit.Request

/-!
# The overflow store

Where credit requests wait that a processor would not take yet, in the order in which they were
parked. Requests are taken out by place.
-/

namespace JobBroker.Credit

structure Overflow where
  requests : List CreditRequest := []
  deriving DecidableEq

namespace Overflow

def size (store : Overflow) : Nat := store.requests.length

def isEmpty (store : Overflow) : Bool := store.requests.isEmpty

def append (store : Overflow) (request : CreditRequest) : Overflow :=
  ⟨store.requests ++ [request]⟩

def elementAt? (store : Overflow) (place : Nat) : Option CreditRequest := store.requests[place]?

def elementAt (store : Overflow) (place : Nat) (inside : place < store.size) : CreditRequest :=
  have bound : place < store.requests.length := inside
  store.requests[place]

/-- The store without the request at a place; those behind it move up. -/
def removeAt (store : Overflow) (place : Nat) (_inside : place < store.size) : Overflow :=
  ⟨store.requests.eraseIdx place⟩

def takeAt? (store : Overflow) (place : Nat) : Option (CreditRequest × Overflow) :=
  if inside : place < store.size then
    some (store.elementAt place inside, store.removeAt place inside)
  else
    none

theorem size_removeAt (store : Overflow) (place : Nat) (inside : place < store.size) :
    (store.removeAt place inside).size = store.size - 1 := by
  have bound : place < store.requests.length := inside
  simp only [size, removeAt, List.length_eraseIdx, bound, if_true]

/-- A store that holds anything has a newest request. -/
theorem newest_lt_size {store : Overflow} (nonempty : 0 < store.size) :
    store.size - 1 < store.size :=
  Nat.sub_one_lt_of_lt nonempty

end Overflow

end JobBroker.Credit
