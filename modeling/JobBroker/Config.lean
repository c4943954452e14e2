import JobBroker.Error

/-!
# Configuration of a manager
-/

namespace JobBroker

structure Config where
  name : String := "jobqueue.subscription.manager"
  creditCapacity : Nat := 1024
  /-- The microseconds between two tries of a parked credit request. -/
  retryInterval : Nat := 1000
  deriving DecidableEq, Repr

namespace Config

inductive Fault where
  | noCreditCapacity
  | noRetryInterval
  deriving DecidableEq, Repr

def Fault.message : Fault → String
  | noCreditCapacity => "credit_capacity must be greater than zero"
  | noRetryInterval => "backpressure_retry_interval must be greater than zero"

def Fault.error (fault : Fault) : SubscriptionError := .invalidConfig fault.message

def fault? (config : Config) : Option Fault :=
  if config.creditCapacity = 0 then some .noCreditCapacity
  else if config.retryInterval = 0 then some .noRetryInterval
  else none

end Config

end JobBroker
