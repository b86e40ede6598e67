import Chip8.Failure
import Chip8.Text.Number

/-!
# The console log

A console writes a message on a line of its own if the level of the message is at least the
threshold. The line tells the level, in colour on a terminal that is to have colours, the name of
the console, and, if lines are stamped, the seconds since the console was opened. The clock is read
once at the opening and once for each stamped line that is written.
-/
namespace Chip8

/-- What a clock shows at its next readings; the last is shown for ever. -/
structure Clock where
  now : Float
  later : List Float

/-- The clock after a reading. -/
def Clock.tick (c : Clock) : Clock :=
  match c.later with
  | [] => c
  | t :: ts => ⟨t, ts⟩

/-- How a console is to be opened. -/
structure ConsoleSettings where
  name : String := "chipvm"
  threshold : String := "INFO"
  coloured : Bool := true
  stamped : Bool := true
  /-- Whether the console writes to a terminal. -/
  terminal : Bool := false
  deriving DecidableEq, Repr

/-- A line as it is written, with its level. -/
structure LogLine where
  level : Level
  text : String
  deriving DecidableEq, Repr

/-- A log with its settings and what it has written (`ConsoleLogger`). -/
structure Console where
  name : String
  threshold : Level
  coloured : Bool
  stamped : Bool
  /-- What the clock showed at the opening. -/
  opened : Float
  clock : Clock
  /-- All that was written, oldest first. -/
  lines : Array LogLine

/-- The escape sequence that starts the colour of a level. -/
def Level.colour : Level → String
  | .debug => "\x1b[36m"
  | .info => "\x1b[32m"
  | .warning => "\x1b[33m"
  | .error => "\x1b[31m"

/-- The level at the right end of a field of eight, in brackets. -/
def Level.tag (l : Level) : String :=
  "[" ++ String.ofList (Pad.left 8 ' ' l.name.toList) ++ "]"

namespace Console

/-- A console with nothing written, if its threshold is the name of a level. -/
def create (s : ConsoleSettings) (clock : Clock) : Except Failure Console :=
  match Level.ofAnyCase? s.threshold with
  | none => .error (.threshold s.threshold)
  | some threshold => .ok {
      name := s.name
      threshold := threshold
      coloured := s.coloured && s.terminal
      stamped := s.stamped
      opened := clock.now
      clock := clock.tick
      lines := #[] }

/-- The name of the threshold is all that may be wrong with the settings. -/
theorem create_eq_ok_iff {s : ConsoleSettings} {clock : Clock} {c : Console} :
    create s clock = .ok c ↔ ∃ threshold, Level.ofAnyCase? s.threshold = some threshold ∧
      c = { name := s.name, threshold := threshold, coloured := s.coloured && s.terminal
            stamped := s.stamped, opened := clock.now, clock := clock.tick, lines := #[] } := by
  unfold create
  cases Level.ofAnyCase? s.threshold with
  | none => simp
  | some threshold => simp [eq_comm]

/-- Whether messages of a level are written. -/
def admits (c : Console) (l : Level) : Bool := c.threshold.rank ≤ l.rank

/-- The seconds since the opening, in brackets. -/
def stamp (c : Console) : String :=
  if c.stamped then "[" ++ Fixed.text 8 2 (c.clock.now - c.opened) ++ "s]" else ""

/-- The tag of a level, in its colour if there are colours. -/
def tag (c : Console) (l : Level) : String :=
  if c.coloured then l.colour ++ l.tag ++ "\x1b[0m" else l.tag

/-- The line of a message (`_format_message`). -/
def line (c : Console) (l : Level) (message : String) : LogLine :=
  ⟨l, c.stamp ++ c.tag l ++ "[" ++ c.name ++ "] " ++ message ++ "\n"⟩

/-- Write a message if its level is high enough (`debug`, `info`, `warning`, `error`). -/
def log (c : Console) (l : Level) (message : String) : Console :=
  if c.admits l then
    { c with
      lines := c.lines.push (c.line l message)
      clock := if c.stamped then c.clock.tick else c.clock }
  else c

/-- Log at the level of a name, which must be exact (`log`). -/
def logNamed (c : Console) (level message : String) : Except Failure Console :=
  match Level.ofName? level with
  | none => .error .level
  | some l => .ok (c.log l message)

/-- All that was written. -/
def transcript (c : Console) : String := c.lines.foldl (fun text l => text ++ l.text) ""

theorem transcript_eq_join (c : Console) :
    c.transcript = String.join (c.lines.toList.map LogLine.text) := by
  rw [transcript, String.join, List.foldl_map, Array.foldl_toList]

end Console

end Chip8
