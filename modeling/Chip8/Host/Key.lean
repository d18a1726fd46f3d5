/-!
# Keys of the host keyboard

The keys of a host keyboard that mean something here: sixteen in a square on the left, which
stand for the keys of the keypad, and one to leave by.

```
1 2 3 4        1 2 3 C
Q W E R   -->  4 5 6 D
A S D F        7 8 9 E
Z X C V        A 0 B F
```
-/

namespace Chip8

/-- A key of the host keyboard. -/
inductive HostKey where
  | key1 | key2 | key3 | key4
  | q | w | e | r
  | a | s | d | f
  | z | x | c | v
  | escape
deriving DecidableEq, Repr

namespace HostKey

/-- The name of a key. -/
def name : HostKey → String
  | key1 => "Key1"
  | key2 => "Key2"
  | key3 => "Key3"
  | key4 => "Key4"
  | q => "Q"
  | w => "W"
  | e => "E"
  | r => "R"
  | a => "A"
  | s => "S"
  | d => "D"
  | f => "F"
  | z => "Z"
  | x => "X"
  | c => "C"
  | v => "V"
  | escape => "Escape"

/-- All keys that mean something, row by row. -/
def all : List HostKey :=
  [key1, key2, key3, key4, q, w, e, r, a, s, d, f, z, x, c, v, escape]

/-- The key with a name. Other keys of a keyboard mean nothing. -/
def ofName? (name : String) : Option HostKey :=
  all.find? fun key => key.name = name

/-- The key of the keypad that each key of the host stands for. -/
def keymap : List (HostKey × UInt8) :=
  [(key1, 0x1), (key2, 0x2), (key3, 0x3), (key4, 0xC),
   (q, 0x4), (w, 0x5), (e, 0x6), (r, 0xD),
   (a, 0x7), (s, 0x8), (d, 0x9), (f, 0xE),
   (z, 0xA), (x, 0x0), (c, 0xB), (v, 0xF)]

end HostKey

end Chip8
