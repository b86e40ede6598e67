/-!
# Log levels

The four levels of a message, from the least to the most urgent.
-/
namespace Chip8

inductive Level where
  | debug
  | info
  | warning
  | error
  deriving DecidableEq, Repr

namespace Level

def name : Level → String
  | debug => "DEBUG"
  | info => "INFO"
  | warning => "WARNING"
  | error => "ERROR"

def rank : Level → Nat
  | debug => 0
  | info => 1
  | warning => 2
  | error => 3

def all : List Level := [debug, info, warning, error]

/-- The level of exactly this name. -/
def ofName? (s : String) : Option Level := all.find? fun l => l.name = s

theorem ofName?_name (l : Level) : ofName? l.name = some l := by cases l <;> rfl

theorem ofName?_eq_some_iff {s : String} {l : Level} : ofName? s = some l ↔ l.name = s := by
  constructor
  · intro h
    have hname := List.find?_some h
    exact of_decide_eq_true hname
  · rintro rfl
    exact ofName?_name l

theorem ofName?_eq_none_iff {s : String} : ofName? s = none ↔ ∀ l : Level, l.name ≠ s := by
  simp only [Option.eq_none_iff_forall_ne_some, ne_eq, ofName?_eq_some_iff]

/-- The capital of a letter of the level names. The small letter without a dot is an `I` too. -/
def capital (c : Char) : Char := if c = '\u0131' then 'I' else c.toUpper

/-- The level of this name, in small or capital letters. -/
def ofAnyCase? (s : String) : Option Level := ofName? (s.map capital)

end Level

end Chip8
