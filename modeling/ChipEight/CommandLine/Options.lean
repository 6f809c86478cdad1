import ChipEight.Clock.Basic
import ChipEight.Text.Numeral
import ChipEight.Text.Quoted
import ChipEight.Window

/-!
The options of the command line. Each argument is first classified on its own: an option may be
written in full or by any beginning that no other option shares, and its value may be attached with
an equals sign. Everything else, negative numbers among it, is a value; after a double hyphen all
arguments are values. Then the arguments are consumed in order. The first value that no option takes
is the program file. A double hyphen attached to an option vanishes too, and leaves it without a
number; whoever needs the number finds out.
-/

namespace ChipEight.CommandLine

inductive Flag
  | help | scale | cpuHz | seed | disassemble | debug | verbose
deriving DecidableEq, Repr

namespace Flag

/-- The ways to write each option in full. -/
def names : List (String × Flag) :=
  [("-h", help), ("--help", help), ("--scale", scale), ("--cpu-hz", cpuHz), ("--seed", seed),
   ("--disassemble", disassemble), ("--debug", debug), ("--verbose", verbose)]

def named? (name : String) : Option Flag := (names.find? fun (n, _) => n = name).map (·.2)

/-- The names of an option, as error messages show them. -/
def label (flag : Flag) : String :=
  "/".intercalate ((names.filter fun (_, f) => f = flag).map (·.1))

def takesValue : Flag → Bool
  | scale | cpuHz | seed => true
  | help | disassemble | debug | verbose => false

end Flag

inductive UsageError
  | invalidInteger (flag : Flag) (text : String)
  | missingValue (flag : Flag)
  | unusedValue (flag : Flag) (text : String)
  | ambiguous (argument : String) (candidates : List String)
  | unrecognized (arguments : List String)
deriving DecidableEq

def UsageError.message : UsageError → String
  | invalidInteger flag text =>
    "argument " ++ flag.label ++ ": invalid int value: " ++ Text.quoted text
  | missingValue flag => "argument " ++ flag.label ++ ": expected one argument"
  | unusedValue flag text =>
    "argument " ++ flag.label ++ ": ignored explicit argument " ++ Text.quoted text
  | ambiguous argument candidates =>
    "ambiguous option: " ++ argument ++ " could match " ++ ", ".intercalate candidates
  | unrecognized arguments => "unrecognized arguments: " ++ " ".intercalate arguments

inductive Token
  | value (text : String)
  /-- The double hyphen. -/
  | separator
  | option (flag : Flag) (attached : Option String)
  /-- The short form of help with characters glued to it, or attached. -/
  | gluedHelp (rest : List Char)
  /-- What looks like an option and is none. -/
  | unknown (text : String)
deriving DecidableEq

namespace Token

/-- Splits an argument at its first equals sign. -/
def attachment (s : String) : String × Option String :=
  let chars := s.toList
  let name := chars.takeWhile (· ≠ '=')
  match chars.dropWhile (· ≠ '=') with
  | _ :: rest => (String.ofList name, some (String.ofList rest))
  | [] => (s, none)

/-- What an argument is that starts with a hyphen, goes on, and names no option in full. -/
def ofUnnamed (s : String) : Except UsageError Token :=
  let (name, attached) := attachment s
  let candidates :=
    if "--".toList.isPrefixOf s.toList then
      Flag.names.filter fun (n, _) => name.toList.isPrefixOf n.toList
    else []
  match candidates, s.toList with
  | [(_, flag)], _ => .ok (.option flag attached)
  | _ :: _ :: _, _ => .error (.ambiguous s (candidates.map (·.1)))
  | [], '-' :: 'h' :: rest => .ok (.gluedHelp rest)
  | [], chars =>
    if Text.looksNegative s ∨ ' ' ∈ chars then .ok (.value s) else .ok (.unknown s)

/-- What an argument is, before any double hyphen. -/
def ofString (s : String) : Except UsageError Token :=
  match s.toList with
  | '-' :: _ :: _ =>
    match Flag.named? s, attachment s with
    | some flag, _ => .ok (.option flag none)
    | none, (name, some attached) =>
      match Flag.named? name with
      | some flag =>
        .ok (if name = "-h" then .gluedHelp attached.toList else .option flag (some attached))
      | none => ofUnnamed s
    | none, (_, none) => ofUnnamed s
  | _ => .ok (.value s)

def ofStrings : List String → Except UsageError (List Token)
  | [] => .ok []
  | s :: rest =>
    if s = "--" then .ok (.separator :: rest.map .value)
    else
      match ofString s, ofStrings rest with
      | .ok token, .ok tokens => .ok (token :: tokens)
      | .error e, _ => .error e
      | .ok _, .error e => .error e

end Token

/-- What is set by an option that takes a number. -/
inductive Setting
  | number (n : Int)
  /-- An empty list of numbers: the value was a double hyphen. -/
  | empty
deriving DecidableEq

/-- The setting that a value stands for, if it is a double hyphen or a number. -/
def Setting.ofString? (text : String) : Option Setting :=
  if text = "--" then some .empty else (Text.integer? text).map .number

structure Options where
  rom : Option String := none
  scale : Setting := .number Window.defaultScale
  cpuHz : Setting := .number Clock.defaultCpuHz
  seed : Option Setting := none
  disassemble : Bool := false
  debug : Bool := false
  verbose : Bool := false
deriving DecidableEq

inductive Request
  | help
  | options (o : Options)
deriving DecidableEq

namespace Options

def setValue (o : Options) (flag : Flag) (text : String) : Except UsageError Options :=
  match flag, Setting.ofString? text with
  | _, none => .error (.invalidInteger flag text)
  | .scale, some setting => .ok { o with scale := setting }
  | .cpuHz, some setting => .ok { o with cpuHz := setting }
  | .seed, some setting => .ok { o with seed := some setting }
  | _, some _ => .ok o

def switchOn (o : Options) : Flag → Options
  | .disassemble => { o with disassemble := true }
  | .debug => { o with debug := true }
  | .verbose => { o with verbose := true }
  | _ => o

end Options

/-- What has been consumed of a command line. -/
structure Progress where
  options : Options := {}
  /-- Whether the place of the program file has been passed. -/
  romPassed : Bool := false
  /-- The arguments that nothing takes. -/
  extras : List String := []

namespace Progress

/-- Takes a value that belongs to no option. -/
def takeValue (p : Progress) (text : String) : Progress :=
  if p.romPassed then { p with extras := p.extras ++ [text] }
  else { p with options := { p.options with rom := some text }, romPassed := true }

/-- Takes an argument that is none. -/
def takeExtra (p : Progress) (text : String) : Progress :=
  { p with extras := p.extras ++ [text] }

end Progress

/-- What is refused of the characters glued to the short form of help. They may repeat it, and all
that follows is refused; so is an attached value without characters. -/
def unusedAfterHelp (glued : List Char) : Option String :=
  let rest := glued.dropWhile (· = 'h')
  if glued.isEmpty ∨ !rest.isEmpty then some (String.ofList rest) else none

/-- Consumes classified arguments in order. A double hyphen vanishes at the place of the program
file, before it or right after it, and is an argument that nothing takes elsewhere. -/
def consume (p : Progress) : List Token → Except UsageError Request
  | [] => if p.extras.isEmpty then .ok (.options p.options) else .error (.unrecognized p.extras)
  | .value text :: .separator :: rest =>
    if p.romPassed then consume ((p.takeValue text).takeExtra "--") rest
    else consume (p.takeValue text) rest
  | .value text :: rest => consume (p.takeValue text) rest
  | .separator :: rest => consume (if p.romPassed then p.takeExtra "--" else p) rest
  | .unknown text :: rest => consume (p.takeExtra text) rest
  | .gluedHelp glued :: _ =>
    match unusedAfterHelp glued with
    | some text => .error (.unusedValue .help text)
    | none => .ok .help
  | .option flag (some text) :: rest =>
    if flag.takesValue then
      match p.options.setValue flag text with
      | .ok options => consume { p with options } rest
      | .error e => .error e
    else .error (.unusedValue flag text)
  | .option flag none :: rest =>
    if flag.takesValue then
      match rest with
      | .value text :: rest =>
        match p.options.setValue flag text with
        | .ok options => consume { p with options } rest
        | .error e => .error e
      | _ => .error (.missingValue flag)
    else if flag = .help then .ok .help
    else consume { p with options := p.options.switchOn flag } rest

def parse (arguments : List String) : Except UsageError Request :=
  match Token.ofStrings arguments with
  | .ok tokens => consume {} tokens
  | .error e => .error e

end ChipEight.CommandLine
