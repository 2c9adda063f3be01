import Oneshot.Failure
import Oneshot.Text.Layout
import Oneshot.Text.Quoted

/-! # The texts of failures and read errors

Each has a message, a list of the messages of its sources from the outside in, and a layout that
shows its structure. -/
set_option autoImplicit false
namespace Oneshot

open Text (Layout)

namespace SystemKind

def name : SystemKind → String
  | .notFound => "NotFound"
  | .permissionDenied => "PermissionDenied"
  | .unexpectedEof => "UnexpectedEof"
  | .other => "Other"
  | .timedOut => "TimedOut"
  | .interrupted => "Interrupted"
  | .invalidData => "InvalidData"
  | .invalidInput => "InvalidInput"
  | .alreadyExists => "AlreadyExists"
  | .wouldBlock => "WouldBlock"
  | .brokenPipe => "BrokenPipe"

def text : SystemKind → String
  | .notFound => "entity not found"
  | .permissionDenied => "permission denied"
  | .unexpectedEof => "unexpected end of file"
  | .other => "other error"
  | .timedOut => "timed out"
  | .interrupted => "operation interrupted"
  | .invalidData => "invalid data"
  | .invalidInput => "invalid input parameter"
  | .alreadyExists => "entity already exists"
  | .wouldBlock => "operation would block"
  | .brokenPipe => "broken pipe"

def all : List SystemKind :=
  [.notFound, .permissionDenied, .unexpectedEof, .other, .timedOut, .interrupted, .invalidData,
    .invalidInput, .alreadyExists, .wouldBlock, .brokenPipe]

def ofName? (s : String) : Option SystemKind := all.find? fun k => k.name == s

end SystemKind

/-- How the message of a read error begins when it hands on a producer's failure. -/
@[irreducible] def ReadError.lead : String := "future completed with an error: "

@[irreducible] def ReadError.timeoutText (limit : Duration) : String :=
  "timed out after " ++ limit.text ++ " waiting for the future"

@[irreducible] def ReadError.cancelledText : String := "future was cancelled"

@[irreducible] def Failure.panickedText (message : String) : String :=
  "continuation panicked: " ++ message

mutual
def Failure.text : Failure → String
  | .message s => s
  | .system kind => kind.text
  | .systemWith _ s => s
  | .labelled s => s
  | .wrapping s _ => s
  | .panicked s => Failure.panickedText s
  | .unread e => e.text

def ReadError.text : ReadError → String
  | .timeout limit => ReadError.timeoutText limit
  | .cancelled => ReadError.cancelledText
  | .failed cause => ReadError.lead ++ cause.text

def Cause.text : Cause → String
  | .mk _ failure => failure.text
end

mutual
/-- The messages of the source, of its source, and so on. -/
def Failure.sources : Failure → List String
  | .message _ => []
  | .system _ => []
  | .systemWith _ _ => []
  | .labelled _ => []
  | .wrapping _ source => source.text :: source.sources
  | .panicked _ => []
  | .unread e => e.sources

def ReadError.sources : ReadError → List String
  | .timeout _ => []
  | .cancelled => []
  | .failed cause => cause.text :: cause.sources

def Cause.sources : Cause → List String
  | .mk _ failure => failure.sources
end

mutual
def Failure.layout : Failure → Layout
  | .message s => .word (Text.quoted s)
  | .system kind => .around "Kind" (.word kind.name)
  | .systemWith kind s =>
    .record "Custom" (.field "kind" (.word kind.name) (.field "error" (.word (Text.quoted s)) .done))
  | .labelled s =>
    .record "Custom" (.field "text" (.word (Text.quoted s)) (.field "source" (.word "None") .done))
  | .wrapping s source =>
    .record "Custom"
      (.field "text" (.word (Text.quoted s)) (.field "source" (.around "Some" source.layout) .done))
  | .panicked s =>
    .record "ContinuationPanicked" (.field "message" (.word (Text.quoted s)) .done)
  | .unread e => e.layout

def ReadError.layout : ReadError → Layout
  | .timeout limit => .around "Timeout" (.word limit.text)
  | .cancelled => .word "Cancelled"
  | .failed cause => .around "Failed" cause.layout

def Cause.layout : Cause → Layout
  | .mk _ failure => failure.layout
end

theorem ReadError.sources_failed (c : Cause) :
    (ReadError.failed c).sources = c.text :: c.sources := by
  simp only [ReadError.sources]

theorem ReadError.text_failed (c : Cause) :
    (ReadError.failed c).text = lead ++ c.text := by
  simp only [ReadError.text]

end Oneshot
