/-!
# Coded fields of a frame

Fields that hold one of a few named values, carried as one byte. The byte 255 stands for "not
set", and every byte without a name reads as that. So reading undoes writing, and writing undoes
reading up to the unknown bytes: these are the laws of a `Coding`, which each of the fields has.
-/

namespace JobBroker.Frame

/-- The byte of a coded field that is not set. -/
def unsetCode : UInt8 := 255

/-- The laws of the field whose values are written by `code` and read by `ofCode`, where just the
`known` bytes have names. There are few values and 256 bytes, so that each law is checked case by
case where a field is given. -/
structure Coding {α : Type} (code : α → UInt8) (ofCode : UInt8 → α) (known : UInt8 → Bool) :
    Prop where
  ofCode_code : ∀ value, ofCode (code value) = value := by
    intro value
    cases value <;> rfl
  code_ofCode : ∀ byte, code (ofCode byte) = if known byte then byte else unsetCode := by
    rintro ⟨⟨n⟩⟩
    revert n
    decide +kernel

/-! ### RecordType -/

inductive RecordType where
  | event | command | commandRejection | unset
  deriving DecidableEq, Repr

namespace RecordType

def code : RecordType → UInt8
  | .event => 0
  | .command => 1
  | .commandRejection => 2
  | .unset => unsetCode

def ofCode (byte : UInt8) : RecordType :=
  match byte with
  | 0 => .event
  | 1 => .command
  | 2 => .commandRejection
  | _ => .unset

def known (byte : UInt8) : Bool := byte < 3

theorem coding : Coding code ofCode known where

end RecordType

/-! ### ValueType -/

inductive ValueType where
  | job | raft | subscriber | subscription | deployment | workflowInstance | incident
  | workflow | noop | topic | partition | unset
  deriving DecidableEq, Repr

namespace ValueType

def code : ValueType → UInt8
  | .job => 0
  | .raft => 1
  | .subscriber => 2
  | .subscription => 3
  | .deployment => 4
  | .workflowInstance => 5
  | .incident => 6
  | .workflow => 7
  | .noop => 8
  | .topic => 9
  | .partition => 10
  | .unset => unsetCode

def ofCode (byte : UInt8) : ValueType :=
  match byte with
  | 0 => .job
  | 1 => .raft
  | 2 => .subscriber
  | 3 => .subscription
  | 4 => .deployment
  | 5 => .workflowInstance
  | 6 => .incident
  | 7 => .workflow
  | 8 => .noop
  | 9 => .topic
  | 10 => .partition
  | _ => .unset

def known (byte : UInt8) : Bool := byte < 11

theorem coding : Coding code ofCode known where

end ValueType

/-! ### EventType -/

inductive EventType where
  | job | raft | subscriber | subscription | deployment | workflowInstance | incident
  | workflow | noop | topic | partition | unset
  deriving DecidableEq, Repr

namespace EventType

def code : EventType → UInt8
  | .job => 0
  | .raft => 1
  | .subscriber => 2
  | .subscription => 3
  | .deployment => 4
  | .workflowInstance => 5
  | .incident => 6
  | .workflow => 7
  | .noop => 8
  | .topic => 9
  | .partition => 10
  | .unset => unsetCode

def ofCode (byte : UInt8) : EventType :=
  match byte with
  | 0 => .job
  | 1 => .raft
  | 2 => .subscriber
  | 3 => .subscription
  | 4 => .deployment
  | 5 => .workflowInstance
  | 6 => .incident
  | 7 => .workflow
  | 8 => .noop
  | 9 => .topic
  | 10 => .partition
  | _ => .unset

def known (byte : UInt8) : Bool := byte < 11

theorem coding : Coding code ofCode known where

end EventType

/-! ### SubscriptionType -/

inductive SubscriptionType where
  | topic | job | unset
  deriving DecidableEq, Repr

namespace SubscriptionType

def code : SubscriptionType → UInt8
  | .topic => 0
  | .job => 1
  | .unset => unsetCode

def ofCode (byte : UInt8) : SubscriptionType :=
  match byte with
  | 0 => .topic
  | 1 => .job
  | _ => .unset

def known (byte : UInt8) : Bool := byte < 2

theorem coding : Coding code ofCode known where

end SubscriptionType

end JobBroker.Frame
