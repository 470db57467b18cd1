/-!
# Admission policies

A reader-writer lock lets many readers in at the same time, or one writer alone.  The two policies
differ only in who gets in first: readers, or whoever asked first among readers and ticketed
writers.
-/

namespace ReaderWriter

inductive Policy where
  /-- Readers never wait for a queued writer, so writers may starve. -/
  | readerPreference
  /-- Writers take tickets, and readers do not overtake a ticketed writer. -/
  | fairTicket
  deriving DecidableEq, Repr

namespace Policy

/-- Every policy, in the order in which a command without a choice runs them. -/
def all : List Policy := [.readerPreference, .fairTicket]

def name : Policy → String
  | .readerPreference => "reader_preference"
  | .fairTicket => "fair_ticket"

/-- The name of the policy inside the text of a structured value. -/
def variantName : Policy → String
  | .readerPreference => "ReaderPreference"
  | .fairTicket => "FairTicket"

def ofName? (name : String) : Option Policy :=
  all.find? (·.name == name)

theorem mem_all (policy : Policy) : policy ∈ all := by
  cases policy <;> decide

theorem ofName?_name (policy : Policy) : ofName? policy.name = some policy := by
  cases policy <;> decide

end Policy

end ReaderWriter
