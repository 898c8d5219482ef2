import GameConsole.Program.Assembly
import GameConsole.Program.Loader
import GameConsole.Syscall.Number

/-! The program that runs when no other is given. It prints a banner, starts the sound, and then
reads the first pad for ever, with a pause after each read. -/
namespace GameConsole.Bios
open Syscall (Number.write Number.audioOutInit Number.padReadState)

def entry : UInt64 := 0x400000
def bannerAddress : UInt64 := 0x400200
def padBuffer : UInt64 := 0x400300

def banner : String := "WeaR-emu Internal BIOS v1.0\n"

def bannerBytes : List UInt8 := banner.toUTF8.toList

def standardOutput : UInt32 := 1

def startUp : List Statement :=
  [.moveSigned .rax Number.write.toUInt32, .moveSigned .rdi standardOutput,
   .move .rsi bannerAddress, .moveSigned .rdx bannerBytes.length.toUInt32, .syscall,
   .moveSigned .rax Number.audioOutInit.toUInt32, .syscall]

def poll : List Statement :=
  [.moveSigned .rax Number.padReadState.toUInt32, .moveSigned .rdi 0, .move .rsi padBuffer,
   .syscall, .pause, .jump startUp.length]

def statements : List Statement := startUp ++ poll

def program : List UInt8 := Assembly.assemble statements

def writeAll : List (UInt64 × List UInt8) → Memory → Memory × Option MemoryFault
  | [], m => (m, none)
  | (address, bytes) :: rest, m =>
    match m.writeBlock address bytes with
    | .ok m => writeAll rest m
    | .error fault => (m, some fault)

def load : Loader := fun m =>
  let terminator := bannerAddress + bannerBytes.length.toUInt64
  match writeAll [(entry, program), (bannerAddress, bannerBytes), (terminator, [0])] m with
  | (m, none) => (m, .loaded ⟨entry, "internal BIOS"⟩)
  | (m, some fault) => (m, .failed (.memory fault))

end GameConsole.Bios
