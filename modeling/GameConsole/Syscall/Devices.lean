import GameConsole.Syscall.Audio
import GameConsole.Syscall.Graphics
import GameConsole.Syscall.Kernel
import GameConsole.Syscall.Pad

/-! The devices of a console, and the modules that act on them. -/
namespace GameConsole.Syscall

structure Devices where
  kernel : Kernel
  audio : NullAudio
  pad : NullPad
  graphics : GraphicsDevice

namespace Devices

def initial (limit : UInt32) : Devices := ⟨{}, .initial, {}, .initial limit⟩

def kernelPart : Part Devices Kernel := ⟨kernel, fun kernel d => { d with kernel }⟩
def audioPart : Part Devices NullAudio := ⟨audio, fun audio d => { d with audio }⟩
def padPart : Part Devices NullPad := ⟨pad, fun pad d => { d with pad }⟩
def graphicsPart : Part Devices GraphicsDevice := ⟨graphics, fun graphics d => { d with graphics }⟩

def kernelModule (neoMode : Bool) : Module Devices := Kernel.module kernelPart neoMode
def audioModule : Module Devices := Audio.module (NullAudio.backend audioPart)
def padModule : Module Devices := Pad.module (NullPad.backend padPart)
def graphicsModule : Module Devices := GraphicsDriver.module graphicsPart

def modules (neoMode : Bool) : List (Module Devices) :=
  [kernelModule neoMode, audioModule, padModule, graphicsModule]

def dispatcher (neoMode : Bool) : Dispatcher Devices × List Event :=
  Dispatcher.empty.installAll (modules neoMode)

end Devices

end GameConsole.Syscall
