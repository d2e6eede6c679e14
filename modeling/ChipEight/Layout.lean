/-!
# The fixed numbers of the machine

Where things lie in memory, how large the screen and the stack are, and how fast the two clocks
run. `glyphs` is the table of hexadecimal digits that a program finds at `fontAddress`.
-/

namespace ChipEight

/-- The number of addressable bytes. -/
abbrev memorySize : Nat := 4096

/-- The highest address; addresses are taken modulo the one after it. -/
def addressMask : UInt16 := 0x0FFF

/-- Where programs are placed and where they start to run. -/
def programStart : UInt16 := 0x200

/-- The length of the longest program. The last byte of memory is left out, since no instruction
can start there. -/
def maxProgramSize : Nat := addressMask.toNat - programStart.toNat

/-- The last address at which an instruction can start: both of its bytes have to be in memory. -/
def lastInstruction : UInt16 := addressMask - 1

/-- Where the glyphs of the hexadecimal digits lie. -/
def fontAddress : UInt16 := 0x050

/-- The number of bytes, and so of rows, in a glyph. -/
def glyphSize : UInt16 := 5

/-- The number of pixels in a row of the screen. -/
abbrev screenWidth : Nat := 64

/-- The number of rows of the screen. -/
abbrev screenHeight : Nat := 32

/-- The number of registers, and of keys on the keypad. -/
abbrev registerCount : Nat := 16

/-- The number of return addresses that the stack can hold. -/
abbrev stackDepth : Nat := 16

/-- How often a second the delay and sound timers count down. -/
def timerRate : Nat := 60

/-- The nanoseconds between two counts of the timers, and the length of a frame. -/
def timerPeriod : Nat := 1000000000 / timerRate

/-- The instructions run in a second unless another speed is asked for. -/
def defaultSpeed : Nat := 700

/-- The greatest number of instructions that can be asked for in a second. -/
def maxSpeed : Nat := 1000000

/-- How many dots of a window a pixel is wide and high. -/
def windowScale : Nat := 10

/-- The glyphs of `0` to `F`, five rows each; only the left four pixels of a row are ever lit. -/
def glyphs : List UInt8 :=
  [0xF0, 0x90, 0x90, 0x90, 0xF0,
   0x20, 0x60, 0x20, 0x20, 0x70,
   0xF0, 0x10, 0xF0, 0x80, 0xF0,
   0xF0, 0x10, 0xF0, 0x10, 0xF0,
   0x90, 0x90, 0xF0, 0x10, 0x10,
   0xF0, 0x80, 0xF0, 0x10, 0xF0,
   0xF0, 0x80, 0xF0, 0x90, 0xF0,
   0xF0, 0x10, 0x20, 0x40, 0x40,
   0xF0, 0x90, 0xF0, 0x90, 0xF0,
   0xF0, 0x90, 0xF0, 0x10, 0xF0,
   0xF0, 0x90, 0xF0, 0x90, 0x90,
   0xE0, 0x90, 0xE0, 0x90, 0xE0,
   0xF0, 0x80, 0x80, 0x80, 0xF0,
   0xE0, 0x90, 0x90, 0x90, 0xE0,
   0xF0, 0x80, 0xF0, 0x80, 0xF0,
   0xF0, 0x80, 0xF0, 0x80, 0x80]

/-- There is a glyph for each of the sixteen digits. -/
theorem length_glyphs : glyphs.length = 16 * glyphSize.toNat := rfl

end ChipEight
