/-! The numbers of the system calls and their names. Not every named call is implemented. -/
namespace GameConsole.Syscall

namespace Number

def exit : UInt64 := 1
def write : UInt64 := 4
def getpid : UInt64 := 20
def getuid : UInt64 := 24
def mmap : UInt64 := 477

def audioOutInit : UInt64 := 495
def audioOutOpen : UInt64 := 496
def audioOutClose : UInt64 := 497
def audioOutOutput : UInt64 := 498
def audioOutOutputs : UInt64 := 499
def audioOutSetVolume : UInt64 := 500
def audioOutGetPortState : UInt64 := 501
def audioOutGetSystemState : UInt64 := 502

def padRead : UInt64 := 570
def padReadState : UInt64 := 571
def padOpen : UInt64 := 572
def padClose : UInt64 := 573
def padGetHandle : UInt64 := 574
def padSetVibration : UInt64 := 575

def submitCommandBuffers : UInt64 := 591
def loadStartModule : UInt64 := 594
def debugOut : UInt64 := 602
def submitDone : UInt64 := 614
def isNeoMode : UInt64 := 618
def getCpuTemperature : UInt64 := 621
def getGpuCoreClockFrequency : UInt64 := 626

def names : List (UInt64 × String) :=
  [(exit, "sys_exit"), (3, "sys_read"), (write, "sys_write"), (5, "sys_open"), (6, "sys_close"),
   (10, "sys_unlink"), (getpid, "sys_getpid"), (getuid, "sys_getuid"), (136, "sys_mkdir"),
   (188, "sys_stat"), (189, "sys_fstat"), (272, "sys_getdents"), (mmap, "sys_mmap"),
   (478, "sys_lseek"),
   (audioOutInit, "sceAudioOutInit"), (audioOutOpen, "sceAudioOutOpen"),
   (audioOutClose, "sceAudioOutClose"), (audioOutOutput, "sceAudioOutOutput"),
   (audioOutOutputs, "sceAudioOutOutputs"), (audioOutSetVolume, "sceAudioOutSetVolume"),
   (audioOutGetPortState, "sceAudioOutGetPortState"),
   (audioOutGetSystemState, "sceAudioOutGetSystemState"),
   (padRead, "scePadRead"), (padReadState, "scePadReadState"), (padOpen, "scePadOpen"),
   (padClose, "scePadClose"), (padGetHandle, "scePadGetHandle"),
   (padSetVibration, "scePadSetVibration"),
   (submitCommandBuffers, "sceGnmSubmitCommandBuffers"),
   (loadStartModule, "sceKernelLoadStartModule"), (debugOut, "sceKernelDebugOut"),
   (submitDone, "sceGnmSubmitDone"), (isNeoMode, "sceKernelIsNeoMode"),
   (getCpuTemperature, "sceKernelGetCpuTemperature"),
   (getGpuCoreClockFrequency, "sceGnmGetGpuCoreClockFrequency")]

end Number

def name (number : UInt64) : String :=
  (Number.names.lookup number).getD ("syscall_" ++ toString number.toNat)

end GameConsole.Syscall
