import RecordFlow.Fault

/-!
# Spill settings

Where spill files are made and how many bytes are gathered before they are written. Settings that
are not given have defaults; `SpillConfig.build` refuses a buffer of no size and a directory that
does not exist, in this order.
-/

namespace RecordFlow

/-- The size of the write buffer when none is given: sixteen mebibytes. -/
def defaultBufferSize : Nat := 16 * 1024 * 1024

/-- Spill settings as they are given. -/
structure SpillOptions where
  directory : Option String := none
  bufferSize : Option Nat := none
deriving DecidableEq, Repr

/-- Spill settings in force. Without a directory, files go to the one for temporary files. -/
structure SpillConfig where
  directory : Option String
  bufferSize : Nat
  bufferSize_pos : 0 < bufferSize
deriving DecidableEq, Repr

namespace SpillConfig

/-- The settings in force when none is given. -/
def default : SpillConfig :=
  ⟨none, defaultBufferSize, by decide⟩

/-- The settings that some options ask for; `isDirectory` tells which directories exist. -/
def build (isDirectory : String → Bool) (options : SpillOptions) : Except Fault SpillConfig :=
  let bufferSize := options.bufferSize.getD defaultBufferSize
  if h : 0 < bufferSize then
    match options.directory with
    | none => .ok ⟨none, bufferSize, h⟩
    | some path =>
      if isDirectory path then .ok ⟨some path, bufferSize, h⟩ else .error (.missingDirectory path)
  else .error .zeroBuffer

/-- The default settings with a buffer of some size. -/
def ofBufferSize (bufferSize : Option Nat) : Except Fault SpillConfig :=
  build (fun _ => true) { bufferSize := bufferSize }

end SpillConfig

end RecordFlow
