import Herold.Queue.BlobRefs
import Herold.Queue.Cancel
import Herold.Queue.Retry
import Herold.Srs.Chain
import Herold.Smtp.RequireTls
import Herold.Smtp.OneShot
import Herold.Smtp.Candidates
import Herold.Imap.Interleave
import Herold.Imap.ReadOnly
import Herold.Smtp.Deliver
import Herold.Sieve.Injection
import Herold.Sieve.Glob
import Herold.Sieve.Julian
import Herold.Sieve.Flags
import Herold.Sieve.Enclose
import Herold.Sieve.Parts
import Herold.Jmap.Refusal
import Herold.Jmap.Filter
import Herold.Send.Replay
import Herold.Send.Ownership
import Herold.Import.Deletion
import Herold.Import.WaterMarks
import Herold.Import.Expunge
import Herold.Arc.Tampering
import Herold.Spf.Budget
import Herold.Spf.Bounded
import Herold.Smtp.Transparency
import Herold.Smtp.Spill
import Herold.Maillist.Moderation
import Herold.Maillist.Copies
import Herold.Contacts.Photos
import Herold.Sieve.Numeric
import Herold.Imap.SetDenotation
import Herold.Imap.PartialFetch
import Herold.Imap.MultiAppend
import Herold.Imap.SearchConjunction
import Herold.Imap.TwinStreams
import Herold.Imap.Idle
import Herold.Contacts.Resuming
import Herold.Mail.Rethread
import Herold.Jmap.ResultPointer
import Herold.Jmap.UserText
import Herold.Imap.Qresync
import Herold.Imap.ReminderRuns
import Herold.Imap.Sections
import Herold.Imap.Supplied
import Herold.Queue.Hosts
import Herold.Queue.Reports
import Herold.Mail.Utf8Check
import Herold.Store.Ranks
import Herold.Sieve.Accounting
import Herold.Store.Edits
