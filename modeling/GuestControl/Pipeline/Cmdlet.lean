/-!
# Names of the shell's machine commands

The commands, their parameters, and the members of returned objects that are
read outside a schema.
-/

namespace GuestControl

namespace Cmdlet

def getMachine := "Get-VM"
def startMachine := "Start-VM"
def stopMachine := "Stop-VM"
def suspendMachine := "Suspend-VM"
def resumeMachine := "Resume-VM"
def restartMachine := "Restart-VM"
def removeMachine := "Remove-VM"
def newMachine := "New-VM"
def setMachine := "Set-VM"
def setFirmware := "Set-VMFirmware"
def getHost := "Get-VMHost"
def getCheckpoint := "Get-VMSnapshot"
def takeCheckpoint := "Checkpoint-VM"
def restoreCheckpoint := "Restore-VMSnapshot"
def removeCheckpoint := "Remove-VMSnapshot"
def getDisk := "Get-VHD"

end Cmdlet

namespace Parameter

def id := "Id"
def name := "Name"
def path := "Path"
def passThru := "PassThru"
def save := "Save"
def turnOff := "TurnOff"
def force := "Force"
def confirm := "Confirm"
def machine := "VM"
def generation := "Generation"
def diskPath := "VHDPath"
def switchName := "SwitchName"
def processorCount := "ProcessorCount"
def memoryStartup := "MemoryStartupBytes"
def transport := "EnhancedSessionTransportType"
def secureBoot := "EnableSecureBoot"

end Parameter

namespace Member

def id := "Id"
def isDeleted := "IsDeleted"
def size := "Size"

end Member

end GuestControl
