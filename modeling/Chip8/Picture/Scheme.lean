import Chip8.Word

/-!
# Colours

A palette has a colour for the pixels that are off and one for those that are on. Some palettes have
names.
-/
namespace Chip8

structure Colour where
  red : Byte
  green : Byte
  blue : Byte
  deriving DecidableEq, Repr

structure Palette where
  off : Colour
  on : Colour
  deriving DecidableEq, Repr

/-- The named palettes. -/
inductive Scheme where
  | amber
  | blue
  | classic
  | retro
  | white
  deriving DecidableEq, Repr

namespace Scheme

def name : Scheme → String
  | amber => "amber"
  | blue => "blue"
  | classic => "classic"
  | retro => "retro"
  | white => "white"

/-- The schemes in the order of their names. -/
def all : List Scheme := [amber, blue, classic, retro, white]

def palette : Scheme → Palette
  | amber => ⟨⟨0, 0, 0⟩, ⟨255, 176, 0⟩⟩
  | blue => ⟨⟨0, 0, 64⟩, ⟨0, 255, 255⟩⟩
  | classic => ⟨⟨0, 0, 0⟩, ⟨0, 255, 0⟩⟩
  | retro => ⟨⟨64, 0, 64⟩, ⟨255, 255, 0⟩⟩
  | white => ⟨⟨0, 0, 0⟩, ⟨255, 255, 255⟩⟩

def ofName? (s : String) : Option Scheme := all.find? fun scheme => scheme.name = s

end Scheme

end Chip8
