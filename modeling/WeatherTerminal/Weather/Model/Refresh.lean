import Mathlib.Algebra.Group.Int.Defs
import WeatherTerminal.Common.Heap
import WeatherTerminal.Weather.Model.Record
/-!
# Weather — a refresh

`weather_get_test` and its caller `timer_callback`. What a call meets is an
input: whether its allocations are granted, what the network does, and
what stands behind null.
-/

namespace WeatherTerminal

namespace Weather

open Jsmn

/-- What a call of `weather_get_test` meets: the network, the heap and the
memory behind null. -/
structure Env where
  /-- The receive buffer is granted. -/
  bufferGranted : Bool
  net : Net
  /-- The token array is granted. -/
  tokensGranted : Bool
  /-- The memory behind null. -/
  stray : List UInt8
deriving DecidableEq, Repr

/-- What outlives a call: `bytes_read` and the heap, whose blocks are counted.
-/
structure Globals where
  bytesRead : ℤ
  heap : Heap

/-- A value passed where a `size_t` is wanted, modulo 2 to the 32nd. -/
def sizeT (n : ℤ) : ℕ := (n % 2 ^ 32).toNat

/-- `weather_get_test`: its result code and the record it leaves. The code
that is collected in `ret` is not the one that is returned. -/
def weatherGetTest (env : Env) (winfo : WeatherInfo) (g : Globals) :
    Except Fault (ℤ × WeatherInfo × Globals) :=
  match g.heap.malloc env.bufferGranted with
  | (none, heap) => .ok (rtEok, winfo, { g with heap := heap })
  | (some buffer, heap) =>
      let c := weatherGetComm env.net g.bytesRead (Block.filled respBufsz 0)
      if c.ret = rtEok then do
        let (tokens, heap) := heap.malloc env.tokensGranted
        let (len, filled) ← tokensLen c.buffer.bytes (sizeT c.bytesRead) tokens.isSome
        -- the early return frees neither block
        if len ≤ 0 then .ok (-rtError, winfo, { bytesRead := c.bytesRead, heap := heap })
        else
          let (strings, js) ← weatherLookups (tokens.map fun _ => filled)
            (some (jsmnItemInit 0 0 len)) c.buffer
          let winfo ← formatReply strings js env.stray winfo
          let heap ← heap.free tokens
          let heap ← heap.free (some buffer)
          .ok (rtEok, winfo, { bytesRead := c.bytesRead, heap := heap })
      else do
        let heap ← heap.free (some buffer)
        .ok (rtEok, winfo, { bytesRead := c.bytesRead, heap := heap })

/-! ## The labels -/

/-- The labels a refresh sets. The layouts 6 to 8 are those of the three
days. -/
inductive Label
  | wlabel1
  | wlabel2
  | wlabel3
  | wlabelTemp
  | wlabelLocation
  | layoutLabel1 (d : Day)
  | layoutLabel2 (d : Day)
  | layoutLabel3 (d : Day)
deriving DecidableEq, Repr

/-- The member a label shows, as the callback sets its text. -/
def Label.member : Label → Member
  | .wlabel1 => .nowText
  | .wlabel2 => .nowHumi
  | .wlabel3 => .nowTime
  | .wlabelTemp => .nowTemp
  | .wlabelLocation => .nowLocation
  | .layoutLabel1 d => .dayTime d
  | .layoutLabel2 d => .dayText d
  | .layoutLabel3 d => .dayTemp d

/-- What a call of `timer_callback` meets: whether its record is granted, and
the rest. -/
structure Tick where
  /-- The record is granted. -/
  recordGranted : Bool
  env : Env
deriving DecidableEq, Repr

/-- The texts on the display, and what outlives a call. -/
structure Terminal where
  labels : Label → List UInt8
  globals : Globals

/-- `timer_callback`: the record, the call, the labels, and the record freed.
-/
def timerCallback (tick : Tick) (s : Terminal) : Except Fault Terminal :=
  match s.globals.heap.malloc tick.recordGranted with
  | (none, _) => .error .nullRecord
  | (some winfo, heap) => do
      let (_, w, g) ← weatherGetTest tick.env (Block.filled infoSize 0)
        { s.globals with heap := heap }
      let heap ← g.heap.free (some winfo)
      return { labels := fun l => w.cstr l.member.offset
               globals := { g with heap := heap } }

/-- A run of refreshes, up to the first that runs into a fault. -/
def timerCallbacks (ticks : List Tick) (s : Terminal) : Except Fault Terminal :=
  ticks.foldlM (fun s tick => timerCallback tick s) s

end Weather

end WeatherTerminal
