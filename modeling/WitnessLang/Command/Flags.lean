import WitnessLang.Number.Integer
import WitnessLang.Text.Quoted

set_option autoImplicit false

namespace WitnessLang.Command

inductive FlagValue where
  | text (s : String)
  | number (n : Int)
  | switch (on : Bool)
  deriving DecidableEq, Repr

structure Flag where
  name : String
  letter : Option Char := none
  default : FlagValue
  deriving Repr

/-- Whether a flag stands alone, without a value behind it. -/
def Flag.isSwitch (f : Flag) : Bool :=
  match f.default with
  | .switch _ => true
  | _ => false

def Flag.shown (f : Flag) : String :=
  match f.letter with
  | some c => "-" ++ String.ofList [c] ++ ", --" ++ f.name
  | none => "--" ++ f.name

inductive FlagFault where
  | badSyntax (arg : String)
  | unknownName (name : String)
  | unknownLetter (letter : Char) (group : String)
  | noValue (name : String)
  | noLetterValue (letter : Char) (group : String)
  | badValue (value flag reason : String)
  deriving DecidableEq, Repr

def FlagFault.message : FlagFault → String
  | .badSyntax arg => "bad flag syntax: " ++ arg
  | .unknownName name => "unknown flag: --" ++ name
  | .unknownLetter c group => "unknown shorthand flag: " ++ Quoted.ofChar c ++ " in -" ++ group
  | .noValue name => "flag needs an argument: --" ++ name
  | .noLetterValue c group => "flag needs an argument: " ++ Quoted.ofChar c ++ " in -" ++ group
  | .badValue value flag reason =>
    "invalid argument " ++ Quoted.ofString value ++ " for " ++ Quoted.ofString flag ++ " flag: " ++ reason

structure Arguments where
  /-- The flags that are given, the last one first. -/
  given : List (String × FlagValue) := []
  /-- The arguments that are no flags. -/
  plain : List String := []
  deriving Repr

namespace Arguments

def has (a : Arguments) (name : String) : Bool := (a.given.lookup name).isSome

def text (a : Arguments) (name default : String) : String :=
  match a.given.lookup name with
  | some (.text s) => s
  | _ => default

def number (a : Arguments) (name : String) (default : Int) : Int :=
  match a.given.lookup name with
  | some (.number n) => n
  | _ => default

def switch (a : Arguments) (name : String) (default : Bool) : Bool :=
  match a.given.lookup name with
  | some (.switch b) => b
  | _ => default

end Arguments

def readNumber (s : String) : Except String Int :=
  match Integer.parse s with
  | .ok n => .ok n
  | .error e => .error ("strconv.ParseInt: parsing " ++ Quoted.ofString s ++ ": " ++ e.message)

def readSwitch (s : String) : Except String Bool :=
  if ["1", "t", "T", "TRUE", "true", "True"].contains s then .ok true
  else if ["0", "f", "F", "FALSE", "false", "False"].contains s then .ok false
  else .error ("strconv.ParseBool: parsing " ++ Quoted.ofString s ++ ": invalid syntax")

def Flag.read (f : Flag) (value : String) : Except FlagFault FlagValue :=
  let r : Except String FlagValue := match f.default with
    | .text _ => .ok (.text value)
    | .number _ => (readNumber value).map .number
    | .switch _ => (readSwitch value).map .switch
  match r with
  | .ok v => .ok v
  | .error reason => .error (.badValue value f.shown reason)

/-- The rest of the argument behind a flag, and the arguments behind that. -/
abbrev Taken := Arguments × List String

def Arguments.give (a : Arguments) (f : Flag) (value : String) : Except FlagFault Arguments := do
  return { a with given := (f.name, ← f.read value) :: a.given }

/-- A text up to an equals sign, and what is behind it. -/
def cutAtEquals (s : String) : String × Option String :=
  let cs := s.toList
  let name := String.ofList (cs.takeWhile (· != '='))
  match cs.dropWhile (· != '=') with
  | [] => (name, none)
  | _ :: value => (name, some (String.ofList value))

def takeLong (flags : List Flag) (a : Arguments) (arg : String) (rest : List String) :
    Except FlagFault Taken := do
  let body := String.ofList (arg.toList.drop 2)
  let first := body.toList.head?
  if first == some '-' || first == some '=' then throw (.badSyntax arg)
  let (name, value) := cutAtEquals body
  match flags.find? fun f => f.name == name with
  | none => throw (.unknownName name)
  | some f =>
    match value, rest with
    | some v, _ => return (← a.give f v, rest)
    | none, _ =>
      if f.isSwitch then return (← a.give f "true", rest)
      else match rest with
        | v :: rest => return (← a.give f v, rest)
        | [] => throw (.noValue name)

/-- A letter as it is shown when nobody knows it; beyond ASCII there is one sign for all. -/
def shownLetter (c : Char) : Char := if c.toNat < 0x80 then c else 'Ã'

/-- Takes flags written by their letters; letters that start with `test.` are left alone. -/
def takeLetters (flags : List Flag) (a : Arguments) (rest : List String) :
    List Char → Except FlagFault Taken
  | [] => return (a, rest)
  | c :: letters => do
    let group := String.ofList (c :: letters)
    if "test.".isPrefixOf group then return (a, rest)
    match flags.find? fun f => f.letter == some c with
    | none => throw (.unknownLetter (shownLetter c) group)
    | some f =>
      match letters with
      | '=' :: v :: vs => return (← a.give f (String.ofList (v :: vs)), rest)
      | _ =>
        if f.isSwitch then takeLetters flags (← a.give f "true") rest letters
        else if !letters.isEmpty then return (← a.give f (String.ofList letters), rest)
        else match rest with
          | v :: rest => return (← a.give f v, rest)
          | [] => throw (.noLetterValue c group)

/-- Reads a command line of at most `n` arguments; two dashes alone end the flags. -/
def readArguments (flags : List Flag) : Nat → Arguments → List String → Except FlagFault Arguments
  | 0, a, rest => .ok { a with plain := a.plain ++ rest }
  | _ + 1, a, [] => .ok a
  | n + 1, a, arg :: rest =>
    match arg.toList with
    | '-' :: '-' :: [] => .ok { a with plain := a.plain ++ rest }
    | '-' :: '-' :: _ => do
      let (a, rest) ← takeLong flags a arg rest
      readArguments flags n a rest
    | '-' :: c :: letters => do
      let (a, rest) ← takeLetters flags a rest (c :: letters)
      readArguments flags n a rest
    | _ => readArguments flags n { a with plain := a.plain ++ [arg] } rest

end WitnessLang.Command
