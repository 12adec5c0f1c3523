/-
This file reads a command line. Options that set how the program works as a whole may
stand before the command or behind it, and those behind it win; each option is given at
most once on either side. A value follows its option as the next argument or behind an
equals sign, and two dashes alone end the options. Whatever does not fit is refused with
its cause; asking for the version is answered as soon as it is read.
-/

import Idl.File.Access

namespace Idl.Command

/-! ### Requests -/

/-- When reports are coloured. -/
inductive ColorChoice where
  /-- Colour what goes to a terminal. -/
  | auto
  | always
  | never
deriving DecidableEq, Repr

/-- How the program works as a whole. -/
structure Settings where
  color : ColorChoice
  byteLimit : Nat
deriving DecidableEq, Repr

/-- What a command line asks for. -/
inductive Request where
  /-- Show the version. -/
  | version
  /-- Check files, and report what is wrong as JSON if asked to. -/
  | check (files : List String) (json : Bool) (settings : Settings)
  /-- Write the schema of a file to another file, or show it. -/
  | dump (input : String) (output : Option String) (settings : Settings)
deriving DecidableEq, Repr

/-- Why a command line is refused. -/
inductive UsageFault where
  | missingCommand
  | unknownCommand (word : String)
  | unknownOption (argument : String)
  | repeatedOption (option : String)
  | missingValue (option : String)
  | surplusValue (option : String)
  | invalidValue (option value : String)
  | missingFile
  | emptyFile
  | surplusFile (path : String)
deriving DecidableEq, Repr

/-- The fault in words. -/
def UsageFault.message : UsageFault → String
  | .missingCommand => "a command is required: check or dump"
  | .unknownCommand word => "unknown command: " ++ word
  | .unknownOption argument => "unexpected argument: " ++ argument
  | .repeatedOption option => "given more than once: " ++ option
  | .missingValue option => "a value is required for " ++ option
  | .surplusValue option => "no value is expected for " ++ option
  | .invalidValue option value => "invalid value for " ++ option ++ ": " ++ value
  | .missingFile => "a file is required"
  | .emptyFile => "a file name may not be empty"
  | .surplusFile path => "unexpected file: " ++ path

/-! ### Single arguments -/

/-- The forms that an argument can have. -/
inductive Form where
  /-- Two dashes, which end the options. -/
  | separator
  /-- A long option, and the value behind its equals sign. -/
  | long (name : List Char) (value : Option String)
  /-- A short option, and the characters right behind it. -/
  | short (name : Char) (behind : List Char)
  /-- Anything else, a single dash among it. -/
  | word
deriving DecidableEq, Repr

/-- The form of an argument. -/
def Form.of (argument : List Char) : Form :=
  match argument with
  | ['-', '-'] => .separator
  | '-' :: '-' :: name =>
    .long (name.takeWhile fun character => character != '=')
      (match name.dropWhile fun character => character != '=' with
        | [] => none
        | _ :: value => some (String.ofList value))
  | '-' :: name :: behind => .short name behind
  | _ => .word

/-- The value right behind a short option, which an equals sign may introduce. -/
def attachedValue? : List Char → Option String
  | [] => none
  | '=' :: value => some (String.ofList value)
  | value => some (String.ofList value)

/-- A decimal number, which a plus sign may introduce, if it fits 64 bits. -/
def number? (text : List Char) : Option Nat :=
  let digits := match text with
    | '+' :: rest => rest
    | _ => text
  let value := digits.foldl (fun sum digit => 10 * sum + (digit.toNat - '0'.toNat)) 0
  if !digits.isEmpty && digits.all Char.isDigit && value < UInt64.size then some value else none

/-- The choice that a word stands for. -/
def colorChoice? (word : String) : Option ColorChoice :=
  if word == "auto" then some .auto
  else if word == "always" then some .always
  else if word == "never" then some .never
  else none

/-! ### Options -/

/-- The options of the program and of its commands. -/
inductive Flag where
  | color
  | maxSize
  | version
  | json
  | output
deriving DecidableEq, Repr

/-- The long name of an option. -/
def Flag.name : Flag → String
  | .color => "--color"
  | .maxSize => "--max-size"
  | .version => "--version"
  | .json => "--json"
  | .output => "--output"

/-- The side of a command line that is being read: before its command, or behind it. -/
inductive Side where
  | before
  | behindCheck
  | behindDump
deriving DecidableEq, Repr

/-- The options that may stand on a side. -/
def Side.flags : Side → List Flag
  | .before => [.color, .maxSize, .version]
  | .behindCheck => [.color, .maxSize, .json]
  | .behindDump => [.color, .maxSize, .output]

/-- The option of a long name on a side. -/
def Side.long? (side : Side) (name : List Char) : Option Flag :=
  side.flags.find? fun flag => flag.name.toList == '-' :: '-' :: name

/-- The option of a short name on a side. -/
def Side.short? (side : Side) (name : Char) : Option Flag :=
  match side, name with
  | .before, 'V' => some .version
  | .behindDump, 'o' => some .output
  | _, _ => none

/-- The option that an argument names on a side, and the value attached to it. What stands right
behind a short option without a value is not looked at. -/
def Side.option? (side : Side) : Form → Option (Flag × Option String)
  | .long name value => (side.long? name).map fun flag => (flag, value)
  | .short name behind =>
    (side.short? name).map fun flag =>
      (flag, if flag == .output then attachedValue? behind else none)
  | .separator => none
  | .word => none

/-- What has been read on one side of a command line. -/
structure Given where
  color : Option ColorChoice
  byteLimit : Option Nat
  json : Bool
  output : Option String
  /-- The files, the last one first. -/
  files : List String
deriving DecidableEq, Repr

/-- Nothing has been read. -/
def Given.nothing : Given := ⟨none, none, false, none, []⟩

namespace Given

/-- Take the value of an option, which must be given for the first time. -/
def setValue (given : Given) (flag : Flag) (value : String) : Except UsageFault Given :=
  match flag with
  | .color =>
    if given.color.isSome then .error (.repeatedOption flag.name)
    else
      match colorChoice? value with
      | none => .error (.invalidValue flag.name value)
      | some choice => .ok { given with color := some choice }
  | .maxSize =>
    if given.byteLimit.isSome then .error (.repeatedOption flag.name)
    else
      match number? value.toList with
      | none => .error (.invalidValue flag.name value)
      | some limit => .ok { given with byteLimit := some limit }
  | .output =>
    if given.output.isSome then .error (.repeatedOption flag.name)
    else if value.isEmpty then .error .emptyFile
    else .ok { given with output := some value }
  | .version => .error (.surplusValue flag.name)
  | .json => .error (.surplusValue flag.name)

/-- Take the option that asks for JSON, which must be given for the first time. -/
def setJson (given : Given) : Except UsageFault Given :=
  if given.json then .error (.repeatedOption Flag.json.name) else .ok { given with json := true }

/-- Take a file. -/
def addFile (given : Given) (path : String) : Given :=
  { given with files := path :: given.files }

end Given

/-! ### Whole command lines -/

/-- Where reading one side of a command line ends. -/
inductive Stop where
  /-- The version is asked for. -/
  | version
  /-- A word has been reached that must be a command. -/
  | word (given : Given) (word : String) (rest : List String)
  /-- Everything has been read. -/
  | finished (given : Given)
deriving DecidableEq, Repr

/-- Read what is behind two dashes that end the options: files, if a command stands before. -/
def readFiles (side : Side) (given : Given) (rest : List String) : Except UsageFault Stop :=
  match side, rest with
  | .before, [] => .error .missingCommand
  | .before, word :: _ => .error (.unknownCommand word)
  | _, _ => .ok (.finished (rest.foldl Given.addFile given))

/-- Read one side of a command line. -/
def readSide (side : Side) (given : Given) : List String → Except UsageFault Stop
  | [] => .ok (.finished given)
  | argument :: rest =>
    match Form.of argument.toList with
    | .separator => readFiles side given rest
    | .word =>
      if side == .before then .ok (.word given argument rest)
      else readSide side (given.addFile argument) rest
    | form =>
      match side.option? form with
      | none => .error (.unknownOption argument)
      | some (.version, none) => .ok .version
      | some (.json, none) =>
        match given.setJson with
        | .error fault => .error fault
        | .ok given => readSide side given rest
      | some (flag, some value) =>
        match given.setValue flag value with
        | .error fault => .error fault
        | .ok given => readSide side given rest
      | some (flag, none) =>
        match rest with
        | [] => .error (.missingValue flag.name)
        | value :: later =>
          if Form.of value.toList == .word then
            match given.setValue flag value with
            | .error fault => .error fault
            | .ok given => readSide side given later
          else .error (.missingValue flag.name)

/-- The settings of a command line, where what stands behind the command wins. -/
def settings (before behind : Given) : Settings where
  color := (behind.color.or before.color).getD .auto
  byteLimit := (behind.byteLimit.or before.byteLimit).getD defaultByteLimit

/-- The request to check the files that have been read. -/
def checkRequest (before behind : Given) : Except UsageFault Request :=
  if behind.files.isEmpty then .error .missingFile
  else if behind.files.any String.isEmpty then .error .emptyFile
  else .ok (.check behind.files.reverse behind.json (settings before behind))

/-- The request to write the schema of the file that has been read. -/
def dumpRequest (before behind : Given) : Except UsageFault Request :=
  match behind.files.reverse with
  | [] => .error .missingFile
  | [input] =>
    if input.isEmpty then .error .emptyFile
    else .ok (.dump input behind.output (settings before behind))
  | _ :: surplus :: _ => .error (.surplusFile surplus)

/-- The request of a command and the arguments behind it. -/
def readCommand (before : Given) (word : String) (rest : List String) :
    Except UsageFault Request :=
  if word == "check" then
    match readSide .behindCheck .nothing rest with
    | .ok (.finished behind) => checkRequest before behind
    | .ok _ => .error .missingFile
    | .error fault => .error fault
  else if word == "dump" then
    match readSide .behindDump .nothing rest with
    | .ok (.finished behind) => dumpRequest before behind
    | .ok _ => .error .missingFile
    | .error fault => .error fault
  else .error (.unknownCommand word)

/-- The request that a command line makes. -/
def Request.ofArguments (arguments : List String) : Except UsageFault Request :=
  match readSide .before .nothing arguments with
  | .error fault => .error fault
  | .ok .version => .ok .version
  | .ok (.finished _) => .error .missingCommand
  | .ok (.word before word rest) => readCommand before word rest

end Idl.Command
