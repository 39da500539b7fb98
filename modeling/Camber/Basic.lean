import Mathlib.Tactic

/-! The types that several of the components share. -/

namespace Camber

/-- How a participant of a shutdown came to its end. -/
inductive ParticipantDisposition where
  | completed
  | cancelledAndJoined
  | named

inductive RuntimeError where
  | multipart (message : String)
  | requestBodyLimit (message : String)
  | requestBodyUnreadable (message : String)
  | invalidArgument (message : String)
  | io (message : String)
  | taskPanicked (message : String)
  | deadlineExceeded (boundary : String)
  | limitExceeded (boundary : String)
  | channelClosed
  | cancelled
  | timeout
deriving DecidableEq

inductive RuntimeError.Variant where
  | multipart
  | requestBodyLimit
  | requestBodyUnreadable
  | invalidArgument
  | io
  | taskPanicked
  | deadlineExceeded
  | limitExceeded
  | channelClosed
  | cancelled
  | timeout

def RuntimeError.variant : RuntimeError → RuntimeError.Variant
  | .multipart _ => .multipart
  | .requestBodyLimit _ => .requestBodyLimit
  | .requestBodyUnreadable _ => .requestBodyUnreadable
  | .invalidArgument _ => .invalidArgument
  | .io _ => .io
  | .taskPanicked _ => .taskPanicked
  | .deadlineExceeded _ => .deadlineExceeded
  | .limitExceeded _ => .limitExceeded
  | .channelClosed => .channelClosed
  | .cancelled => .cancelled
  | .timeout => .timeout

def RuntimeError.display : RuntimeError → String
  | .multipart message => "invalid multipart body: " ++ message
  | .requestBodyLimit message => "request body limit exceeded: " ++ message
  | .requestBodyUnreadable message => "request body unreadable: " ++ message
  | .invalidArgument message => "invalid argument: " ++ message
  | .io message => "io error: " ++ message
  | .taskPanicked message => "task panicked: " ++ message
  | .deadlineExceeded boundary => "deadline exceeded: " ++ boundary
  | .limitExceeded boundary => "byte limit exceeded: " ++ boundary
  | .channelClosed => "channel closed"
  | .cancelled => "operation cancelled"
  | .timeout => "operation timed out"

end Camber
