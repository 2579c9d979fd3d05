import Raster.Band
import Raster.Fault
import Raster.PixelFormat
/-!
# Errors

Requests that are checked before anything is drawn are refused with an error, and then
nothing has changed. An error names its cause with the numbers involved. Its category
says which part of the request was wrong, and `Error.message` puts the category's
heading before the wording of the cause.

`Failure` is what a checked request can end in: the refusal, or, where the request goes
on to memory that nobody checked, a fault.
-/

namespace Raster

/-- Which part of a request is wrong. -/
inductive ErrorCategory
  /-- A setting, or a size that does not match its bytes. -/
  | validation
  /-- A rectangle that is not inside its framebuffer. -/
  | bounds
  /-- A picture that cannot be written. -/
  | image
  /-- A text that is not what it should describe. -/
  | serialization
  /-- Anything else. -/
  | other
  deriving DecidableEq

/-- What stands before the wording of an error of this category. -/
def ErrorCategory.heading : ErrorCategory → String
  | .validation => "validation error: "
  | .bounds => "bounds error: "
  | .image => "image error: "
  | .serialization => "serialization error: "
  | .other => ""

/-- The whole text of an error: heading and wording. -/
def ErrorCategory.message (category : ErrorCategory) (detail : String) : String :=
  category.heading ++ detail

/-- The part a band plays in a request. -/
inductive BandRole
  | fill
  | copyDestination
  | copySource
  deriving DecidableEq

def BandRole.name : BandRole → String
  | .fill => "fill"
  | .copyDestination => "copy destination"
  | .copySource => "copy source"

/-- Why a request is refused. -/
inductive Error
  /-- The number of bytes of a framebuffer is not a 64-bit number. -/
  | sizeOverflow
  /-- The bytes given for a framebuffer are more or fewer than its size asks for. -/
  | sizeMismatch (format : PixelFormat) (width height : UInt32) (needed got : Nat)
  /-- A number of worker threads was asked for, and it is zero. -/
  | noThreads
  /-- The end of a span is not a 32-bit number. -/
  | spanOverflow
  /-- A horizontal span is not inside the framebuffer. -/
  | spanOutside (x y n width height : UInt32)
  /-- A vertical span is not inside the framebuffer. -/
  | columnSpanOutside (x y n width height : UInt32)
  /-- A band is not inside its framebuffer. -/
  | bandOutside (role : BandRole) (band : Band) (width height : UInt32)
  /-- A picture without pixels has no file form. -/
  | emptyPicture
  /-- A text does not describe the setting it should. -/
  | malformedText
  deriving DecidableEq

namespace Error

/-- The part of the request that is wrong. -/
def category : Error → ErrorCategory
  | .sizeOverflow | .sizeMismatch .. | .noThreads => .validation
  | .spanOverflow | .spanOutside .. | .columnSpanOutside .. | .bandOutside .. => .bounds
  | .emptyPicture => .image
  | .malformedText => .serialization

def detail : Error → String
  | .sizeOverflow => "framebuffer size overflow"
  | .sizeMismatch format width height needed got =>
      s!"{format.name} framebuffer {width}x{height} needs {needed} bytes, got {got}"
  | .noThreads => "blit threading 'threads' must be >= 1 when set"
  | .spanOverflow => "span end overflows u32"
  | .spanOutside x y n width height =>
      s!"span x={x} y={y} n={n} outside {width}x{height} framebuffer"
  | .columnSpanOutside x y n width height =>
      s!"column span x={x} y={y} n={n} outside {width}x{height} framebuffer"
  | .bandOutside role band width height =>
      s!"{role.name} band {band.description.compact} outside {width}x{height} framebuffer"
  | .emptyPicture => "a picture without pixels cannot be written"
  | .malformedText => "the text does not describe the setting"

def message (e : Error) : String := e.category.message e.detail

end Error

/-- What a request can end in instead of a result. -/
inductive Failure
  /-- It was refused, and nothing has changed. -/
  | error (error : Error)
  /-- It stopped on a broken precondition. -/
  | fault (fault : Fault)
  deriving DecidableEq

end Raster
