namespace NodeSchema.Command

inductive Flag where
  | schema
  | options
  | lifetime
  | spanImport
  | astModule
  | output
  | dump
deriving DecidableEq

def Flag.long : Flag → String
  | schema => "schema"
  | options => "options"
  | lifetime => "lifetime"
  | spanImport => "span-import"
  | astModule => "ast-module"
  | output => "output"
  | dump => "dump"

def Flag.short? : Flag → Option Char
  | schema => some 's'
  | output => some 'o'
  | _ => none

/-- Whether the value of an option is the path of a file; a path is not empty. -/
def Flag.isPath : Flag → Bool
  | schema => true
  | options => true
  | output => true
  | _ => false

def Flag.takesValue : Flag → Bool
  | dump => false
  | _ => true

/-- An argument as it is written. -/
inductive Argument where
  | long (name : String) (value : Option String)
  | short (letter : Char) (value : Option String)
  /-- Two dashes, after which there are no more options. -/
  | endOfOptions
  | plain (text : String)
deriving DecidableEq

/-- The value behind the letter of a short option; an equals sign before it is left out. -/
def attached : List Char → Option String
  | [] => none
  | '=' :: value => some (String.ofList value)
  | value => some (String.ofList value)

def Argument.ofText (text : String) : Argument :=
  match text.toList with
  | ['-', '-'] => .endOfOptions
  | '-' :: '-' :: rest =>
    let name := rest.takeWhile (· != '=')
    let value := rest.dropWhile (· != '=')
    .long (String.ofList name) (if value.isEmpty then none else some (String.ofList value.tail))
  | '-' :: letter :: rest => .short letter (attached rest)
  | _ => .plain text

/-- The option that an argument names, out of those allowed, with its attached value. -/
def Argument.flag? (allowed : List Flag) : Argument → Option (Flag × Option String)
  | .long name value => (allowed.find? (·.long == name)).map (·, value)
  | .short letter value => (allowed.find? (·.short? == some letter)).map (·, value)
  | _ => none

/-- The options that have been given with their values. -/
abbrev Given : Type := List (Flag × String)

/-- Adds an option unless it has been given before or misses its path. -/
def Given.add? (given : Given) (flag : Flag) (value : String) : Option Given :=
  if given.any (·.1 == flag) || (flag.isPath && value == "") then none
  else some ((flag, value) :: given)

/-- The options in a list of arguments, none if it cannot be understood. -/
def readFlags (allowed : List Flag) (given : Given) : List String → Option Given
  | [] => some given
  | argument :: rest =>
    match Argument.ofText argument with
    | .endOfOptions => if rest.isEmpty then some given else none
    | .plain _ => none
    | argument =>
      match argument.flag? allowed with
      | none => none
      | some (flag, some value) =>
        if flag.takesValue then
          match given.add? flag value with
          | some given => readFlags allowed given rest
          | none => none
        else none
      | some (flag, none) =>
        if flag.takesValue then
          match rest with
          | [] => none
          | value :: rest =>
            match Argument.ofText value with
            | .plain _ =>
              match given.add? flag value with
              | some given => readFlags allowed given rest
              | none => none
            | _ => none
        else
          match given.add? flag "" with
          | some given => readFlags allowed given rest
          | none => none

end NodeSchema.Command
