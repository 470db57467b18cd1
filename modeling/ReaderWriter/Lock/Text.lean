import ReaderWriter.Lock
import ReaderWriter.Text.Structured

/-!
# The text of a snapshot
-/

namespace ReaderWriter.Snapshot

def structuredText (s : Snapshot) : String :=
  Text.structured "LockSnapshot"
    [ ("active_readers", toString s.activeReaders),
      ("exclusive", toString s.exclusive),
      ("next_writer_ticket", toString s.nextWriterTicket),
      ("last_served_ticket", Text.optional (s.lastServedTicket.map toString)),
      ("queued_readers", toString s.queuedReaders) ]

end ReaderWriter.Snapshot
