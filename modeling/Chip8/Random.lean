import Chip8.Word

/-!
# Sources of random bytes

A source takes the key that the machine holds and gives a byte and the key for the next draw, so a
run is determined by its first key.
-/
namespace Chip8

structure RandomKey where
  first : BitVec 32
  second : BitVec 32
  deriving DecidableEq, Repr

/-- The key of a seed, which counts modulo `2 ^ 32`. -/
def RandomKey.ofSeed (seed : Int) : RandomKey := ⟨0, BitVec.ofInt 32 seed⟩

/-- A source of random bytes (`RandomByteFn`). -/
abbrev ByteSource := RandomKey → RandomKey × Byte

namespace ByteSource

/-- The source that always gives the low byte of `value` and keeps the key
(`constant_random_byte`). -/
def constant (value : Int) : ByteSource := fun key => (key, BitVec.ofInt 8 value)

/-- The source that gives the bytes of the key's second word in turn, lowest first. -/
def rotating : ByteSource := fun key =>
  (⟨key.first, key.second.rotateRight 8⟩, key.second.setWidth 8)

/-- The key after `n` draws. -/
def advance (source : ByteSource) (n : Nat) (key : RandomKey) : RandomKey :=
  n.repeat (fun k => (source k).1) key

/-- The bytes of the first `n` draws, each with the key that it leaves. -/
def draws (source : ByteSource) : Nat → RandomKey → List (RandomKey × Byte)
  | 0, _ => []
  | n + 1, key => source key :: draws source n (source key).1

end ByteSource

/-!
## Threefry

The counter-based generator Threefry on two 32-bit words with twenty rounds, and the source of
random bytes made from it. Every draw splits the key in two by its counters: one half is the key of
the next draw, the other is split again and gives the byte.
-/

namespace Threefry

/-- Two 32-bit words: a counter, or what the rounds make of it. -/
structure Block where
  a : BitVec 32
  b : BitVec 32
  deriving DecidableEq, Repr

/-- The `i`-th word of the key schedule, which repeats after three. -/
def schedule (key : RandomKey) (i : Nat) : BitVec 32 :=
  match i % 3 with
  | 0 => key.first
  | 1 => key.second
  | _ => key.first ^^^ key.second ^^^ 0x1BD11BDA

/-- One round: add, rotate and mix. -/
def Block.round (s : Block) (rotation : Nat) : Block :=
  let a := s.a + s.b
  ⟨a, s.b.rotateLeft rotation ^^^ a⟩

/-- The rotations of the four rounds of group `i`. -/
def rotations (i : Nat) : List Nat := if i % 2 = 0 then [13, 15, 26, 6] else [17, 29, 16, 24]

/-- Add the words of the key schedule for the end of group `i`. -/
def Block.inject (s : Block) (key : RandomKey) (i : Nat) : Block :=
  ⟨s.a + schedule key (i + 1), s.b + schedule key (i + 2) + BitVec.ofNat 32 (i + 1)⟩

/-- Five groups of four rounds, each followed by words of the key schedule. -/
def encrypt (key : RandomKey) (counter : Block) : Block :=
  (List.range 5).foldl (fun s i => ((rotations i).foldl Block.round s).inject key i)
    ⟨counter.a + schedule key 0, counter.b + schedule key 1⟩

/-- The key that a key gives at a counter below `2 ^ 32`. -/
def split (key : RandomKey) (counter : BitVec 32) : RandomKey :=
  let s := encrypt key ⟨0, counter⟩
  ⟨s.a, s.b⟩

/-- The low byte of both words together, from the second half of the second half of the key. -/
def byte (key : RandomKey) : Byte :=
  let s := split (split (split key 1) 1) 0
  (s.first ^^^ s.second).setWidth 8

/-- The source of uniformly distributed bytes (`jax_random_byte`). -/
def source : ByteSource := fun key => (split key 0, byte key)

end Threefry

end Chip8
