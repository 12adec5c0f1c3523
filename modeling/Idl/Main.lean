/-
This file is the program: it reads the command line, carries out what is asked for on
the real file system, and shows what comes of it.
-/

import Idl.Command.Run

namespace Idl

/-- The failure with a number that may be given as its negative. -/
def FileFault.ofCode (code : UInt32) (description : String) : FileFault :=
  .ofNumber description.capitalize (min code.toNat (0 - code).toNat)

/-- The failure of an operation of the operating system. -/
def FileFault.ofError : IO.Error → FileFault
  | .alreadyExists _ code description => .ofCode code description
  | .otherError code description => .ofCode code description
  | .resourceBusy code description => .ofCode code description
  | .resourceVanished code description => .ofCode code description
  | .unsupportedOperation code description => .ofCode code description
  | .hardwareFault code description => .ofCode code description
  | .unsatisfiedConstraints code description => .ofCode code description
  | .illegalOperation code description => .ofCode code description
  | .protocolError code description => .ofCode code description
  | .timeExpired code description => .ofCode code description
  | .interrupted _ code description => .ofCode code description
  | .noFileOrDirectory _ code description => .ofCode code description
  | .invalidArgument _ code description => .ofCode code description
  | .permissionDenied _ code description => .ofCode code description
  | .resourceExhausted _ code description => .ofCode code description
  | .inappropriateType _ code description => .ofCode code description
  | .noSuchThing _ code description => .ofCode code description
  | .unexpectedEof => .system "Unexpected end of file" 0
  | .userError description => .system description 0

/-- The real file system. -/
def systemAccess : FileAccess IO where
  view := fun path => do
    if path.toList.contains '\x00' then return .error .nullByte
    try
      let bytes ← IO.FS.readBinFile path
      return .ok ⟨bytes.size, .ok bytes⟩
    catch failure => return .error (.ofError failure)
  write := fun path text => do
    if path.toList.contains '\x00' then return .error .nullByte
    try
      IO.FS.writeFile path text
      return .ok ()
    catch failure => return .error (.ofError failure)

end Idl

/-- Read the command line, carry it out, and show what comes of it. -/
def main (arguments : List String) : IO UInt32 := do
  match Idl.Command.Request.ofArguments arguments with
  | .error fault =>
    IO.eprintln ("error: " ++ fault.message)
    return 2
  | .ok request =>
    let terminal ← (← IO.getStderr).isTty
    let outcome ← Idl.Command.run Idl.systemAccess terminal request
    IO.print outcome.output
    IO.eprint outcome.errors
    return UInt32.ofNat outcome.code
