import GameConsole.Graphics.Decoder
import GameConsole.Graphics.Queue
import GameConsole.Syscall.Dispatcher

/-! Calls on the graphics driver: submitting command buffers and ending a frame. Commands leave
the device in the order of the calls; it keeps them until they are handed to a queue. -/
namespace GameConsole.Syscall

open GameConsole.Graphics

structure GraphicsDevice where
  limit : UInt32
  state : GpuState
  counts : DecodeCounts
  outbox : Array Delivery

namespace GraphicsDevice

def initial (limit : UInt32) : GraphicsDevice := ⟨limit, .initial, {}, #[]⟩

def absorb (g : GraphicsDevice) (d : Decoder) : GraphicsDevice :=
  { g with
    state := d.state, counts := d.counts
    outbox := g.outbox ++ d.commands.map .command }

def takeOutbox (g : GraphicsDevice) : Array Delivery × GraphicsDevice :=
  (g.outbox, { g with outbox := #[] })

def decoder (g : GraphicsDevice) (journal : Journal) : Decoder := ⟨g.state, g.counts, #[], journal⟩

end GraphicsDevice

namespace GraphicsDriver

variable {δ : Type}

def coreClockMegahertz : Int64 := 911

def submit (device : Part δ GraphicsDevice) : Handler δ := fun a g =>
  let gpu := device.get g.devices
  let (d, result) :=
    (gpu.decoder g.journal).submit g.memory gpu.limit a.first.toUInt32 a.second a.third
  let g := { g with devices := device.put (gpu.absorb d) g.devices, journal := d.journal }
  match result with
  | .ok () => (.ok 0, g)
  | .error fault => (.faulted fault, g)

def submitDone (device : Part δ GraphicsDevice) : Handler δ := fun _ g =>
  let gpu := device.get g.devices
  (.ok 0, { g with devices := device.put { gpu with outbox := gpu.outbox.push .frame } g.devices })

def coreClock : Handler δ := fun _ g => (.ok coreClockMegahertz, g)

def module (device : Part δ GraphicsDevice) : Module δ where
  name := "libgnm"
  handlers :=
    [(Number.submitCommandBuffers, submit device), (Number.submitDone, submitDone device),
     (Number.getGpuCoreClockFrequency, coreClock)]

end GraphicsDriver

end GameConsole.Syscall
