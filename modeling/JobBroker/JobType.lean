import JobBroker.MessagePack.Document
import JobBroker.Text.Quoted

/-!
# Job types

The kind of job that a worker asks for: any byte string, compared byte by byte. Its text is for
people and for names of units; different job types may share a text.
-/

namespace JobBroker

open MessagePack

structure JobType where
  bytes : Bytes
  deriving DecidableEq

namespace JobType

def ofText (text : String) : JobType := ⟨Utf8.encode text⟩

/-- The job type as text, with replacement characters for bytes that spell none. -/
def text (jobType : JobType) : String := Utf8.repair jobType.bytes

def labelled (jobType : JobType) : String := "JobType(" ++ Quoted.quote jobType.text ++ ")"

/-- The order of job types: that of their bytes, the first difference deciding, and a job type
before its extensions. -/
def le (a b : JobType) : Bool := decide (a.bytes ≤ b.bytes)

def document (jobType : JobType) : Document := .ofBytes jobType.bytes

end JobType

end JobBroker
