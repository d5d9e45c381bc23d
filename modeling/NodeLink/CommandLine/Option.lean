import NodeLink.Export
import NodeLink.Layout.Strategy

/-!
# Options of the command line

Every option has a long name and some a short one. An option takes a value or is a switch. A long name may
be cut short as long as it stays clear which one is meant.
-/

namespace NodeLink.CommandLine

inductive Flag where
  | help
  | output
  | format
  | layout
  | curved
  | plainIcons
  | plainPaths
  | width
  | height
  | padding
  | background
  | seed
  | watch
  | delay
  | verbose
  deriving DecidableEq, Repr

namespace Flag

def all : List Flag :=
  [.help, .output, .format, .layout, .curved, .plainIcons, .plainPaths, .width, .height, .padding,
    .background, .seed, .watch, .delay, .verbose]

def names : Flag → List String
  | .help => ["-h", "--help"]
  | .output => ["-o", "--output"]
  | .format => ["-f", "--format"]
  | .layout => ["-l", "--layout"]
  | .curved => ["--curved"]
  | .plainIcons => ["--no-embed-icons"]
  | .plainPaths => ["--no-optimize"]
  | .width => ["--width"]
  | .height => ["--height"]
  | .padding => ["--padding"]
  | .background => ["--background"]
  | .seed => ["--seed"]
  | .watch => ["--watch"]
  | .delay => ["--delay"]
  | .verbose => ["-v", "--verbose"]

def takesValue : Flag → Bool
  | .help | .curved | .plainIcons | .plainPaths | .watch | .verbose => false
  | _ => true

def title (flag : Flag) : String := "/".intercalate flag.names

def named : List (List Char × Flag) := all.flatMap fun flag => flag.names.map fun name => (name.toList, flag)

def ofName? (name : List Char) : Option Flag := (named.find? fun entry => entry.1 == name).map (·.2)

end Flag

inductive Misuse where
  | ambiguous (given : List Char) (names : List (List Char))
  | noValue (flag : Flag)
  | strayValue (flag : Flag) (value : List Char)
  | notANumber (flag : Flag) (kind : String) (value : List Char)
  | noChoice (flag : Flag) (value : List Char) (choices : List String)
  | missing (name : String)
  | unknown (arguments : List (List Char))
  deriving Repr

namespace Misuse

def shownChoices (choices : List String) : String :=
  ", ".intercalate (choices.map fun c => String.ofList (Text.quoted c.toList))

def wording : Misuse → String
  | .ambiguous given names =>
    "ambiguous option: " ++ String.ofList given ++ " could match " ++
      ", ".intercalate (names.map String.ofList)
  | .noValue _ => "expected one argument"
  | .strayValue _ value => "ignored explicit argument " ++ String.ofList (Text.quoted value)
  | .notANumber _ kind value => "invalid " ++ kind ++ " value: " ++ String.ofList (Text.quoted value)
  | .noChoice _ value choices =>
    "invalid choice: " ++ String.ofList (Text.quoted value) ++ " (choose from " ++ shownChoices choices ++ ")"
  | .missing name => "the following arguments are required: " ++ name
  | .unknown arguments => "unrecognized arguments: " ++ " ".intercalate (arguments.map String.ofList)

def flag? : Misuse → Option Flag
  | .noValue flag | .strayValue flag _ | .notANumber flag .. | .noChoice flag .. => some flag
  | _ => none

def message (m : Misuse) : String :=
  match m.flag? with
  | some flag => "argument " ++ flag.title ++ ": " ++ m.wording
  | none => m.wording

end Misuse

/-- Why the arguments lead to no run: help is asked for, or they are misused. -/
inductive Stop where
  | help
  | misuse (m : Misuse)

/-- What an option is set to: a value of its own, or no value, which two dashes joined to the option say. -/
inductive Chosen (α : Type) where
  | value (x : α)
  | nothing
  deriving DecidableEq, Repr

namespace Chosen

/-- Reads what an option is set to. -/
def read {α : Type} (readValue : List Char → Except Stop α) (text : List Char) : Except Stop (Chosen α) :=
  if text = ['-', '-'] then .ok .nothing else .value <$> readValue text

/-- What was chosen, as a value of a document. No value is an empty list. -/
def toJson {α : Type} (ofValue : α → Json) : Chosen α → Json
  | .value x => ofValue x
  | .nothing => .list []

def get {α : Type} (otherwise : Fault) : Chosen α → Except Fault α
  | .value x => .ok x
  | .nothing => .error otherwise

end Chosen

/-- What the arguments of a run say. -/
structure Arguments where
  input : List Char
  output : Chosen (List Char) := .value ['.']
  format : Chosen Format := .value .svg
  layout : Chosen String := .value Strategy.defaultName
  curved : Bool := false
  embedIcons : Bool := true
  optimize : Bool := true
  width : Chosen Number := .value (.whole 800)
  height : Chosen Number := .value (.whole 600)
  padding : Chosen Number := .value (.whole 20)
  background : Chosen String := .value "transparent"
  seed : Option (Chosen Int) := none
  watch : Bool := false
  delay : Chosen Number := .value (.real 1.0)
  verbose : Bool := false

namespace Arguments

def realOf (flag : Flag) (value : List Char) : Except Stop Number :=
  match Number.readFloat? value with
  | some x => .ok (.real x)
  | none => .error (.misuse (.notANumber flag "float" value))

def wholeOf (flag : Flag) (value : List Char) : Except Stop Int :=
  match Number.readWhole? value with
  | some n => .ok n
  | none => .error (.misuse (.notANumber flag "int" value))

def layoutNames : List String := (Strategy.named.map (·.1)).mergeSort fun a b => a ≤ b

def choiceOf (flag : Flag) (choices : List String) (value : List Char) : Except Stop String :=
  let name := String.ofList value
  if choices.contains name then .ok name else .error (.misuse (.noChoice flag value choices))

def formatOf (flag : Flag) (value : List Char) : Except Stop Format := do
  let name ← choiceOf flag (Format.all.map Format.name) value
  return (Format.all.find? fun format => format.name == name).getD .svg

def switch (a : Arguments) : Flag → Except Stop Arguments
  | .help => .error .help
  | .curved => .ok { a with curved := true }
  | .plainIcons => .ok { a with embedIcons := false }
  | .plainPaths => .ok { a with optimize := false }
  | .watch => .ok { a with watch := true }
  | .verbose => .ok { a with verbose := true }
  | _ => .ok a

def assign (a : Arguments) (flag : Flag) (value : List Char) : Except Stop Arguments := do
  match flag with
  | .output => return { a with output := ← Chosen.read .ok value }
  | .format => return { a with format := ← Chosen.read (formatOf flag) value }
  | .layout => return { a with layout := ← Chosen.read (choiceOf flag layoutNames) value }
  | .width => return { a with width := ← Chosen.read (realOf flag) value }
  | .height => return { a with height := ← Chosen.read (realOf flag) value }
  | .padding => return { a with padding := ← Chosen.read (realOf flag) value }
  | .background => return { a with background := ← Chosen.read (fun cs => .ok (String.ofList cs)) value }
  | .seed => return { a with seed := some (← Chosen.read (wholeOf flag) value) }
  | .delay => return { a with delay := ← Chosen.read (realOf flag) value }
  | _ => return a

/-- Takes an option in, with its value if it takes one. -/
def take (a : Arguments) (setting : Flag × Option (List Char)) : Except Stop Arguments :=
  match setting.2 with
  | some value => a.assign setting.1 value
  | none => a.switch setting.1

def options (a : Arguments) : Options where
  fields := [("width", a.width.toJson .number), ("height", a.height.toJson .number),
    ("padding", a.padding.toJson .number), ("background", a.background.toJson .text),
    ("embed_icons", .bool a.embedIcons), ("optimize", .bool a.optimize),
    ("curved_edges", .bool a.curved)].foldl
      (fun fields field => Json.setField field.1 field.2 fields) Options.defaults

def directory (a : Arguments) : Except Fault (List Char) := a.output.get (.noMember "list" "mkdir")

end Arguments
end NodeLink.CommandLine
