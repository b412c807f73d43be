/-!
# Switches and arguments

A command line is a list of words.  A word `--name` or `--name=value` gives a long switch, a word
`-abc` a cluster of short ones, in which whatever follows a switch that takes a value is its
value.  A value that is not part of the word is the next word, which then must not look like a
switch.  A single `-`, every other word, and all words after `--` are arguments.

* `scan`   what the words give, or nothing when they break these rules.
-/

namespace LinearProgram

namespace CommandLine

inductive Kind where
  /-- takes no value, given at most once -/
  | flag
  /-- takes no value, given any number of times -/
  | counter
  /-- takes a value, given at most once -/
  | value
  /-- asks for help, and no more words are looked at -/
  | help
  deriving DecidableEq

structure Switch where
  long : String
  short : Option Char
  kind : Kind

/-- a switch as it was given -/
structure Given where
  switch : Switch
  value : Option String

structure Scan where
  given : List Given
  arguments : List String

/-- what one word is -/
inductive Word where
  | unknown
  /-- the mark after which there are only arguments -/
  | endOfSwitches
  | argument
  | given (all : List Given)
  /-- the last switch takes the next word as its value -/
  | wanting (all : List Given) (switch : Switch)

/-- the switches of a cluster, and the one that still wants its value -/
def cluster (switches : List Switch) : List Char → Option (List Given × Option Switch)
  | [] => some ([], none)
  | c :: rest =>
    match switches.find? (·.short == some c) with
    | none => none
    | some s =>
      match s.kind with
      | .help => some ([⟨s, none⟩], none)
      | .value =>
        match rest with
        | [] => some ([], some s)
        | '=' :: value => some ([⟨s, some (String.ofList value)⟩], none)
        | value => some ([⟨s, some (String.ofList value)⟩], none)
      | _ => (cluster switches rest).map fun (given, wanting?) => (⟨s, none⟩ :: given, wanting?)

/-- a long switch, its value after the first `=` -/
def long (switches : List Switch) (body : List Char) : Word :=
  let (name, value) := body.span (· != '=')
  match switches.find? (·.long == String.ofList name) with
  | none => .unknown
  | some s =>
    match s.kind, value with
    | .value, [] => .wanting [] s
    | .value, _ :: value => .given [⟨s, some (String.ofList value)⟩]
    | _, [] => .given [⟨s, none⟩]
    | _, _ :: _ => .unknown

def classify (switches : List Switch) (word : String) : Word :=
  match word.toList with
  | ['-', '-'] => .endOfSwitches
  | '-' :: '-' :: body => long switches body
  | '-' :: c :: rest =>
    match cluster switches (c :: rest) with
    | none => .unknown
    | some (given, none) => .given given
    | some (given, some s) => .wanting given s
  | _ => .argument

/-- the word cannot be the value of the switch before it -/
def looksLikeSwitch (word : String) : Bool :=
  match word.toList with
  | '-' :: _ :: _ => true
  | _ => false

def Scan.give (given : List Given) (s : Scan) : Scan := { s with given := given ++ s.given }

/-- What the words give.  A `leading` scan stops before the first argument, and then knows no
mark for the end of the switches. -/
def scan (switches : List Switch) (leading : Bool) : List String → Option Scan
  | [] => some ⟨[], []⟩
  | word :: rest =>
    match classify switches word with
    | .unknown => none
    | .endOfSwitches => if leading then none else some ⟨[], rest⟩
    | .argument =>
      if leading then some ⟨[], word :: rest⟩
      else (scan switches leading rest).map fun s => { s with arguments := word :: s.arguments }
    | .given given =>
      if given.any (·.switch.kind == .help) then some ⟨given, []⟩
      else (scan switches leading rest).map (·.give given)
    | .wanting given s =>
      match rest with
      | [] => none
      | value :: rest =>
        if looksLikeSwitch value then none
        else (scan switches leading rest).map (·.give (given ++ [⟨s, some value⟩]))

namespace Scan

/-- how often a switch is given -/
def count (s : Scan) (switch : Switch) : Nat := s.given.countP (·.switch.long == switch.long)

def has (s : Scan) (switch : Switch) : Bool := s.count switch != 0

/-- the largest reading of a counter -/
def fullCounter : Nat := 255

/-- The reading of a counter, which stays where it is once it is full. -/
def reading (s : Scan) (switch : Switch) : Nat := min fullCounter (s.count switch)

/-- no switch is given more often than its kind allows -/
def repeatsOnlyCounters (s : Scan) : Bool :=
  s.given.all fun g => g.switch.kind == .counter || s.count g.switch == 1

/-- the value of a switch, read by `read?`; the default if it is not given -/
def valueOf {α : Type} (s : Scan) (switch : Switch) (default : α) (read? : String → Option α) :
    Option α :=
  match s.given.find? (·.switch.long == switch.long) with
  | none => some default
  | some g => g.value.bind read?

end Scan

end CommandLine

end LinearProgram
