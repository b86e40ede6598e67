import Chip8.Log.Level
import Chip8.Memory
import Chip8.Picture.Scheme
import Chip8.Text.Number
import Chip8.Text.Quoted

/-!
# Failures

The causes for which an operation is refused, and the sentence that reports each.
-/
namespace Chip8

/-- What the cells of an array are. -/
inductive CellKind where
  | pixel
  /-- A part of a colour. -/
  | channel
  deriving DecidableEq, Repr

def CellKind.name : CellKind → String
  | pixel => "bool"
  | channel => "uint8"

inductive Failure where
  /-- An element of a program is no byte. -/
  | programByte
  /-- A program of this size is longer than the program memory. -/
  | programSize (size : Nat)
  /-- The system cannot open or read a file, for a reason that it gives with a number. -/
  | file (number : Nat) (reason name : String)
  /-- A file name has a null character. -/
  | fileName
  | keyRange (key : Int)
  | memoryRange (start length : Int)
  | dumpWidth (width : Int)
  /-- A rate of instructions or of timer ticks is not positive. -/
  | ratePositive (instructions ticks : Int)
  /-- There are more timer ticks than instructions. -/
  | rateOrder (instructions ticks : Int)
  /-- A threshold names no level. -/
  | threshold (name : String)
  /-- A message is logged at a level that does not exist. -/
  | level
  | haltCapacity (capacity : Int)
  /-- A run has more steps than a progress display can count. -/
  | stepCount
  | scheme (name : String)
  | scale (factor : Int)
  /-- A scale is too large for a signed word of 64 bits. -/
  | scaleSize
  /-- A number in an array of bytes is out of range. One beyond 64 bits has a message of its own. -/
  | byteRange (value : Int)
  /-- The rows of a nested array differ in length below its first dimensions. -/
  | ragged (shape : List Nat)
  /-- A nested array has more dimensions than arrays may have. -/
  | dimensions
  /-- More lengths are given for an array than it may have dimensions. -/
  | dimensionCount (count : Nat)
  /-- A length given for an array is no signed word of 64 bits. -/
  | lengthSize
  /-- A length of an array is negative. -/
  | lengthSign
  /-- The size of an array is no signed word of 64 bits. -/
  | arraySize
  /-- There is no room for an array. -/
  | arrayMemory (kind : CellKind) (shape : List Nat)
  | paletteShape (shape : List Nat)
  | frameShape (shape : List Nat)
  deriving DecidableEq, Repr

namespace Failure

/-- Names in quotes, in brackets. -/
def listing (names : List String) : String :=
  "[" ++ ", ".intercalate (names.map fun n => "'" ++ n ++ "'") ++ "]"

/-- Lengths in parentheses, with a comma after a single one. -/
def shapeText : List Nat → String
  | [n] => "(" ++ Nat.repr n ++ ",)"
  | shape => "(" ++ ", ".intercalate (shape.map Nat.repr) ++ ")"

/-- The most digits of a length that is written in a message. -/
def maxDigits : Nat := 4300

def message : Failure → String
  | programByte => "bytes must be in range(0, 256)"
  | programSize size =>
    "Program of " ++ Nat.repr size ++ " bytes does not fit in " ++
      Nat.repr Memory.programSpace ++ " bytes of program memory"
  | file number reason name =>
    "[Errno " ++ Nat.repr number ++ "] " ++ reason ++ ": " ++ Quoted.text name
  | fileName => "embedded null byte"
  | keyRange key => "Key index must be in 0..15, got " ++ Int.repr key
  | memoryRange start length =>
    if length.natAbs < Nat.pow 10 maxDigits then
      "Memory range 0x" ++ Hex.text 1 start ++ "+" ++ Int.repr length ++ " is outside 0x000-0xFFF"
    else
      "Exceeds the limit (" ++ Nat.repr maxDigits ++ " digits) for integer string conversion; " ++
        "use sys.set_int_max_str_digits() to increase the limit"
  | dumpWidth width => "width must be positive, got " ++ Int.repr width
  | ratePositive instructions ticks =>
    "Frequencies must be positive, got instruction_frequency=" ++ Int.repr instructions ++
      " and timer_frequency=" ++ Int.repr ticks
  | rateOrder instructions ticks =>
    "instruction_frequency (" ++ Int.repr instructions ++ ") must be at least timer_frequency (" ++
      Int.repr ticks ++ ")"
  | threshold name =>
    "Unknown log level '" ++ name ++ "'. Available: " ++ listing (Level.all.map Level.name)
  | level => "tuple.index(x): x not in tuple"
  | haltCapacity capacity => "max_halts must be positive, got " ++ Int.repr capacity
  | stepCount => "Python int too large to convert to C ssize_t"
  | scheme name =>
    "Unknown color scheme '" ++ name ++ "'. Available: " ++ listing (Scheme.all.map Scheme.name)
  | scale factor => "scale must be at least 1, got " ++ Int.repr factor
  | scaleSize => "Python int too large to convert to C long"
  | byteRange value =>
    if -0x8000000000000000 ≤ value ∧ value < 0x8000000000000000 then
      "Python integer " ++ Int.repr value ++ " out of bounds for uint8"
    else "Python int too large to convert to C long"
  | ragged shape =>
    "setting an array element with a sequence. The requested array has an inhomogeneous shape " ++
      "after " ++ Nat.repr shape.length ++ " dimensions. The detected shape was " ++
      shapeText shape ++ " + inhomogeneous part."
  | dimensions =>
    "setting an array element with a sequence. The requested array would exceed the maximum " ++
      "number of dimension of 64."
  | dimensionCount count =>
    "maximum supported dimension for an ndarray is currently 64, found " ++ Nat.repr count
  | lengthSize => "Maximum allowed dimension exceeded"
  | lengthSign => "negative dimensions are not allowed"
  | arraySize =>
    "array is too big; `arr.size * arr.dtype.itemsize` is larger than the maximum possible size."
  | arrayMemory kind shape =>
    "Unable to allocate " ++ Size.text (shape.foldr (· * ·) 1) ++ " for an array with shape " ++
      shapeText shape ++ " and data type " ++ kind.name
  | paletteShape shape => "palette must have shape (2, 3), got " ++ shapeText shape
  | frameShape shape => "Expected a (64, 32) frame, got shape " ++ shapeText shape

end Failure

end Chip8
