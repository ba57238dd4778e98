import WeatherTerminal.Common.Raster
/-!
# The display controller

The ST7789 as the driver sees it over the 8-bit bus: commands `0x2A` and
`0x2B` take the four bytes of a column or row range, `0x2C` takes the
pointer to the window's corner and then pixels, high byte first. A 16-bit
store is two bytes on this bus, the low one first.
-/

namespace WeatherTerminal

namespace Lcd

/-- A byte on the bus, to the command or to the data register. -/
inductive BusByte
  | command (v : UInt8)
  | data (v : UInt8)
deriving DecidableEq, Repr

/-- A store of the driver to one of the two registers of the bus. -/
inductive Write
  /-- `LCD->_u8_REG`. -/
  | reg (v : UInt8)
  /-- `LCD->_u8_RAM`. -/
  | ram8 (v : UInt8)
  /-- `LCD->_u16_RAM`. -/
  | ram16 (v : UInt16)
deriving DecidableEq, Repr

/-- The bytes a store puts on the bus, those of sixteen bits the low one
first. -/
def Write.bytes : Write → List BusByte
  | .reg v => [.command v]
  | .ram8 v => [.data v]
  | .ram16 v => [.data v.toUInt8, .data (v >>> 8).toUInt8]

/-- What the controller makes of the next data byte, after the command it was
sent. -/
inductive Mode
  /-- Nothing. -/
  | other
  /-- A byte of the column range, behind these. -/
  | columns (ps : List UInt8)
  | rows (ps : List UInt8)
  /-- A byte of a pixel, the high one where there is one. -/
  | ram (high : Option UInt8)
deriving DecidableEq, Repr

/-- The controller: its memory with the window, and what it takes the next
byte for. -/
structure St7789 where
  raster : Raster UInt16
  mode : Mode

/-- Two bytes as a word, the high one first. -/
def word (high low : UInt8) : UInt16 := UInt16.ofNat (high.toNat * 256 + low.toNat)

namespace St7789

/-- The window that has been set last, its columns and its rows. -/
def window (s : St7789) : Window := s.raster.window

/-- The pixel of column `x` and row `y` in the memory. -/
def mem (s : St7789) : ℕ → ℕ → UInt16 := s.raster.mem

/-- The columns of the window have been sent. -/
def setColumns (s : St7789) (x₁ x₂ : UInt16) : St7789 :=
  { raster := { s.raster with window := { s.window with x₁ := x₁.toNat, x₂ := x₂.toNat } }
    mode := .other }

/-- The rows of the window have been sent. -/
def setRows (s : St7789) (y₁ y₂ : UInt16) : St7789 :=
  { raster := { s.raster with window := { s.window with y₁ := y₁.toNat, y₂ := y₂.toNat } }
    mode := .other }

/-- A command byte: what follows are columns, rows, pixels from the corner, or
nothing that is kept. -/
def command (s : St7789) (v : UInt8) : St7789 :=
  if v = 0x2A then { s with mode := .columns [] }
  else if v = 0x2B then { s with mode := .rows [] }
  else if v = 0x2C then { raster := s.raster.corner, mode := .ram none }
  else { s with mode := .other }

/-- A data byte, as the command before it has it. -/
def data (s : St7789) (v : UInt8) : St7789 :=
  match s.mode with
  | .other => s
  | .columns [a, b, c] => s.setColumns (word a b) (word c v)
  | .columns ps => { s with mode := .columns (ps ++ [v]) }
  | .rows [a, b, c] => s.setRows (word a b) (word c v)
  | .rows ps => { s with mode := .rows (ps ++ [v]) }
  | .ram none => { s with mode := .ram (some v) }
  | .ram (some high) => { raster := s.raster.put (word high v), mode := .ram none }

/-- A byte on the bus, a command or data. -/
def step (s : St7789) : BusByte → St7789
  | .command v => s.command v
  | .data v => s.data v

/-- The controller behind stores, byte by byte. -/
def run (s : St7789) (ws : List Write) : St7789 := (ws.flatMap Write.bytes).foldl step s

/-- Power-on: the window is the whole memory, of 240 columns and 320 rows. -/
def powerOn (mem : ℕ → ℕ → UInt16) : St7789 where
  raster := ⟨⟨0, 239, 0, 319⟩, (0, 0), mem⟩
  mode := .other

end St7789

end Lcd

end WeatherTerminal
